import FlagScript.Builtin
import FlagScript.Value

/-!
# Expressions

A script is a list of expressions. Flag and function names stand in them in upper case, without the
`$` of the source.
-/

namespace FlagScript

inductive BinaryOp where
  | equal | notEqual | less | lessOrEqual | greater | greaterOrEqual
  | add | sub | mul | div
  | and | or
  deriving DecidableEq, Inhabited

inductive UnaryOp where
  | neg | not
  deriving DecidableEq, Inhabited

inductive AssignOp where
  | set | increment | decrement | incrementBy | decrementBy
  deriving DecidableEq, Inhabited

/-- An expression. Only text that a script writes between `@` is a quoted literal. A `step` assigns
without a value, as `$A++` does. -/
inductive Expr where
  | literal (value : Value) (quoted : Bool)
  | flag (name : String)
  | assign (name : String) (op : AssignOp) (value : Expr)
  | step (name : String) (op : AssignOp)
  | call (name : String) (args : List Expr)
  | group (inner : Expr)
  | binary (op : BinaryOp) (left right : Expr)
  | unary (op : UnaryOp) (operand : Expr)
  deriving Inhabited

/-- A sequence of statements. -/
abbrev Script := List Expr

namespace BinaryOp

/-- The operator as it is written. -/
def symbol : BinaryOp → String
  | equal => "=="
  | notEqual => "!="
  | less => "<"
  | lessOrEqual => "<="
  | greater => ">"
  | greaterOrEqual => ">="
  | add => "+"
  | sub => "-"
  | mul => "*"
  | div => "/"
  | and => "&&"
  | or => "||"

def name : BinaryOp → String
  | equal => "EQUALITY"
  | notEqual => "NON_EQUALITY"
  | less => "LESS_THAN"
  | lessOrEqual => "LESS_THAN_EQUALITY"
  | greater => "GREATER_THAN"
  | greaterOrEqual => "GREATER_THAN_EQUALITY"
  | add => "ADDITION"
  | sub => "SUBTRACTION"
  | mul => "MULTIPLICATION"
  | div => "DIVISION"
  | and => "AND"
  | or => "OR"

/-- How tightly an operator binds: those of one level associate to the left. -/
def level : BinaryOp → Nat
  | or | and => 5
  | equal | notEqual => 4
  | less | lessOrEqual | greater | greaterOrEqual => 3
  | add | sub => 2
  | mul | div => 1

def apply (op : BinaryOp) (a b : Value) : Value :=
  match op with
  | equal => .bool (a.equals b)
  | notEqual => .bool (!a.equals b)
  | less => .bool (a.less b)
  | lessOrEqual => .bool (a.lessOrEquals b)
  | greater => .bool (a.greater b)
  | greaterOrEqual => .bool (a.greaterOrEquals b)
  | add => a.add b
  | sub => a.sub b
  | mul => a.mul b
  | div => a.div b
  | and => a.and b
  | or => a.or b

end BinaryOp

namespace UnaryOp

def symbol : UnaryOp → String
  | neg => "-"
  | not => "!"

def name : UnaryOp → String
  | neg => "NEGATION"
  | not => "NOT"

def apply (op : UnaryOp) (a : Value) : Value :=
  match op with
  | neg => a.neg
  | not => a.not

end UnaryOp

namespace AssignOp

def symbol : AssignOp → String
  | set => "="
  | increment => "++"
  | decrement => "--"
  | incrementBy => "+="
  | decrementBy => "-="

def name : AssignOp → String
  | set => "SET"
  | increment => "INCREMENT_ONE"
  | decrement => "DECREMENT_ONE"
  | incrementBy => "INCREMENT_AMOUNT"
  | decrementBy => "DECREMENT_AMOUNT"

end AssignOp

/-! ### Equality -/

namespace Expr

mutual

/-- Whether two expressions are the same. -/
def same : Expr → Expr → Bool
  | literal v q, literal v' q' => v = v' && q == q'
  | flag n, flag n' => n == n'
  | assign n op v, assign n' op' v' => n == n' && op = op' && same v v'
  | step n op, step n' op' => n == n' && op = op'
  | call n as, call n' as' => n == n' && sameAll as as'
  | group e, group e' => same e e'
  | binary op l r, binary op' l' r' => op = op' && same l l' && same r r'
  | unary op e, unary op' e' => op = op' && same e e'
  | _, _ => false

/-- Whether two lists hold the same expressions. -/
def sameAll : List Expr → List Expr → Bool
  | [], [] => true
  | e :: es, e' :: es' => same e e' && sameAll es es'
  | _, _ => false

end

mutual

theorem same_self : ∀ e : Expr, same e e = true
  | literal _ _ => by simp [same]
  | flag _ => by simp [same]
  | assign _ _ v => by simp [same, same_self v]
  | step _ _ => by simp [same]
  | call _ as => by simp [same, sameAll_self as]
  | group e => by simp [same, same_self e]
  | binary _ l r => by simp [same, same_self l, same_self r]
  | unary _ e => by simp [same, same_self e]

theorem sameAll_self : ∀ es : List Expr, sameAll es es = true
  | [] => by simp [sameAll]
  | e :: es => by simp [sameAll, same_self e, sameAll_self es]

end

mutual

theorem eq_of_same : ∀ {e e' : Expr}, same e e' = true → e = e'
  | literal _ _, e', h => by cases e' <;> simp_all [same]
  | flag _, e', h => by cases e' <;> simp_all [same]
  | assign _ _ v, e', h => by
    cases e' <;> simp only [same, Bool.and_eq_true, Bool.false_eq_true, decide_eq_true_eq,
      beq_iff_eq] at h
    obtain ⟨⟨rfl, rfl⟩, hv⟩ := h
    rw [eq_of_same hv]
  | step _ _, e', h => by cases e' <;> simp_all [same]
  | call _ as, e', h => by
    cases e' <;> simp only [same, Bool.and_eq_true, Bool.false_eq_true, beq_iff_eq] at h
    obtain ⟨rfl, has⟩ := h
    rw [eq_of_sameAll has]
  | group e, e', h => by
    cases e' <;> simp only [same, Bool.false_eq_true] at h
    rw [eq_of_same h]
  | binary _ l r, e', h => by
    cases e' <;> simp only [same, Bool.and_eq_true, Bool.false_eq_true, decide_eq_true_eq] at h
    obtain ⟨⟨rfl, hl⟩, hr⟩ := h
    rw [eq_of_same hl, eq_of_same hr]
  | unary _ e, e', h => by
    cases e' <;> simp only [same, Bool.and_eq_true, Bool.false_eq_true, decide_eq_true_eq] at h
    obtain ⟨rfl, he⟩ := h
    rw [eq_of_same he]

theorem eq_of_sameAll : ∀ {es es' : List Expr}, sameAll es es' = true → es = es'
  | [], es', h => by cases es' <;> simp_all [sameAll]
  | e :: es, es', h => by
    cases es' <;> simp only [sameAll, Bool.and_eq_true, Bool.false_eq_true] at h
    rw [eq_of_same h.1, eq_of_sameAll h.2]

end

instance : DecidableEq Expr := fun e e' =>
  if h : same e e' = true then isTrue (eq_of_same h)
  else isFalse fun he => h (he ▸ same_self e)

end Expr

/-! ### Effects -/

namespace Expr

mutual

/-- The first assignment or call with an effect, depth first from left to right. -/
def firstEffect : Expr → Option Expr
  | literal _ _ => none
  | flag _ => none
  | assign name op value => some (assign name op value)
  | step name op => some (step name op)
  | call name args =>
    match Builtin.find? name with
    | some b => if b.hasEffect then some (call name args) else firstEffectOf args
    | none => firstEffectOf args
  | group inner => firstEffect inner
  | binary _ left right => (firstEffect left).or (firstEffect right)
  | unary _ operand => firstEffect operand

/-- The first one in a list of expressions. -/
def firstEffectOf : List Expr → Option Expr
  | [] => none
  | e :: es => (firstEffect e).or (firstEffectOf es)

end

end Expr

end FlagScript
