import FlagScript.Phrase.Meaning

/-!
# Words and levels of expressions

A word is what a token says, apart from its place and its spelling. `Expr.words` reads an expression
from left to right as the words of a script, and `Expr.Fits` says that it needs no parentheses
beyond its groups:

    level 6      := name (= | += | -=) level 6  |  level 5
    level n + 1  := level n + 1 (operator of level n + 1) level n  |  level n
    level 0      := (! | -) level 0  |  term

Terms are literals, flags, steps, calls and groups. A call's arguments and a group's content are of
level 6 again.
-/

namespace FlagScript

/-- What a token says: operators and punctuation their class, names the name in upper case, and
literals the value that they decode to. -/
inductive Word where
  | mark (kind : TokenClass)
  | name (name : String)
  | literal (kind : TokenClass) (value : Value)
  deriving DecidableEq

/-- The class of the tokens that say a word. -/
def Word.kind : Word → TokenClass
  | mark kind => kind
  | name _ => .identifier
  | literal kind _ => kind

/-- What a token says. A literal that has no value, such as a number out of range, says nothing. -/
def Token.word? (t : Token) : Option Word :=
  if t.kind = .identifier then some (.name t.name)
  else if t.kind.isLiteral then
    match t.literal with
    | .ok (.literal v _) => some (.literal t.kind v)
    | _ => none
  else some (.mark t.kind)

/-! ### Operators as tokens -/

/-- The class of the tokens that write an operator. -/
def BinaryOp.kind : BinaryOp → TokenClass
  | equal => .equal
  | notEqual => .notEqual
  | less => .less
  | lessOrEqual => .lessOrEqual
  | greater => .greater
  | greaterOrEqual => .greaterOrEqual
  | add => .plus
  | sub => .minus
  | mul => .star
  | div => .slash
  | and => .and
  | or => .or

def UnaryOp.kind : UnaryOp → TokenClass
  | neg => .minus
  | not => .not

def AssignOp.kind : AssignOp → TokenClass
  | set => .set
  | increment => .increment
  | decrement => .decrement
  | incrementBy => .incrementBy
  | decrementBy => .decrementBy

/-- Whether an assignment of this kind has a value. -/
def AssignOp.takesValue : AssignOp → Bool
  | set | incrementBy | decrementBy => true
  | increment | decrement => false

/-- The class of the literals that write a value. -/
def Value.tokenKind (quoted : Bool) : Value → TokenClass
  | int _ | float _ => .number
  | bool _ => .boolean
  | text _ => if quoted then .quotedText else .text

namespace TokenClass

theorem eq_kind_of_binaryOp? {k : TokenClass} {op : BinaryOp} (h : k.binaryOp? = some op) :
    k = op.kind := by
  cases k <;> cases h <;> rfl

theorem eq_kind_of_unaryOp? {k : TokenClass} {op : UnaryOp} (h : k.unaryOp? = some op) :
    k = op.kind := by
  cases k <;> cases h <;> rfl

theorem eq_kind_of_assignOp? {k : TokenClass} {op : AssignOp} (h : k.assignOp? = some op) :
    k = op.kind ∧ op.takesValue = true := by
  cases k <;> cases h <;> exact ⟨rfl, rfl⟩

theorem eq_kind_of_stepOp? {k : TokenClass} {op : AssignOp} (h : k.stepOp? = some op) :
    k = op.kind ∧ op.takesValue = false := by
  cases k <;> cases h <;> exact ⟨rfl, rfl⟩

end TokenClass

/-! ### Expressions as words -/

namespace Expr

mutual

/-- The words of an expression from left to right. -/
def words : Expr → List Word
  | literal v quoted => [.literal (v.tokenKind quoted) v]
  | flag name => [.name name]
  | assign name op value => .name name :: .mark op.kind :: words value
  | step name op => [.name name, .mark op.kind]
  | call name args => .name name :: .mark .leftParen :: (argumentWords args ++ [.mark .rightParen])
  | group inner => .mark .leftParen :: (words inner ++ [.mark .rightParen])
  | binary op left right => words left ++ .mark op.kind :: words right
  | unary op operand => .mark op.kind :: words operand

/-- The words of arguments, with commas between them. -/
def argumentWords : List Expr → List Word
  | [] => []
  | [e] => words e
  | e :: e' :: es => words e ++ .mark .comma :: argumentWords (e' :: es)

end

/-- How loosely an expression binds: an assignment with a value looser than every operator, an
expression with a prefix operator in front as tightly as a term. -/
def level : Expr → Nat
  | assign _ _ _ => 6
  | binary op _ _ => op.level
  | _ => 0

mutual

/-- Every operand binds tightly enough for its place, and assignments have a value exactly if they
are to have one. -/
def Fits : Expr → Prop
  | literal _ _ => True
  | flag _ => True
  | assign _ op value => op.takesValue = true ∧ Fits value
  | step _ op => op.takesValue = false
  | call _ args => AllFit args
  | group inner => Fits inner
  | binary op left right =>
    left.level ≤ op.level ∧ right.level < op.level ∧ Fits left ∧ Fits right
  | unary _ operand => operand.level = 0 ∧ Fits operand

def AllFit : List Expr → Prop
  | [] => True
  | e :: es => Fits e ∧ AllFit es

end

theorem level_binaryOp_lt (op : BinaryOp) : op.level < 6 := by cases op <;> decide

end Expr

/-- The words of a script from its first statement to its last. -/
def Script.words (script : Script) : List Word := script.flatMap Expr.words

end FlagScript
