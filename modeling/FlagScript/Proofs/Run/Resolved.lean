import FlagScript.Proofs.Run.Effects
import FlagScript.Proofs.Source.Translation

/-!
# Calls that resolve

A call of a function that does not exist answers zero, and missing arguments are zero. `evalExpr?`
goes without these ways out: it has no answer where a call names no function, or has a number of
arguments that the function does not take. It answers exactly if all calls in the expression
resolve, and then as evaluation does (`evalExpr?_eq_some_iff`). Calls are checked while a script is
read, and those that stand for operators resolve too. So no way out is ever taken by a script that
was read, be it run as it is or with calls in place of its operators (`resolves_of_parse`).
-/

namespace FlagScript

namespace Expr

/-- A call names a function that exists and takes as many arguments; other expressions have nothing
to resolve. -/
def Resolves : Expr → Prop
  | call name args => ∃ b, Builtin.find? name = some b ∧ b.accepts args.length = true
  | literal _ _ | flag _ | step _ _ | assign _ _ _ | group _ | binary _ _ _ | unary _ _ => True

/-- An operator between or in front of operands, or an assignment. -/
def IsOperation : Expr → Prop
  | binary _ _ _ | unary _ _ | assign _ _ _ | step _ _ => True
  | literal _ _ | flag _ | call _ _ | group _ => False

mutual

theorem resolves_of_checked : ∀ {e : Expr}, e.Checked → ∀ x ∈ e.nodes, x.Resolves
  | .literal _ _, _ => by simp [nodes, Resolves]
  | .flag _, _ => by simp [nodes, Resolves]
  | .step _ _, _ => by simp [nodes, Resolves]
  | .assign _ _ value, h => by
    rw [nodes, List.forall_mem_cons]
    exact ⟨trivial, resolves_of_checked (e := value) h⟩
  | .call _ args, h => by
    rw [nodes, List.forall_mem_cons]
    exact ⟨h.1, resolves_of_allChecked h.2⟩
  | .group inner, h => by
    rw [nodes, List.forall_mem_cons]
    exact ⟨trivial, resolves_of_checked (e := inner) h⟩
  | .binary _ left right, h => by
    rw [nodes, List.forall_mem_cons, List.forall_mem_append]
    exact ⟨trivial, resolves_of_checked h.1, resolves_of_checked h.2⟩
  | .unary _ operand, h => by
    rw [nodes, List.forall_mem_cons]
    exact ⟨trivial, resolves_of_checked (e := operand) h⟩

theorem resolves_of_allChecked : ∀ {es : List Expr}, AllChecked es →
    ∀ x ∈ nodesOf es, x.Resolves
  | [], _ => by simp [nodesOf]
  | _ :: _, h => by
    rw [nodesOf, List.forall_mem_append]
    exact ⟨resolves_of_checked h.1, resolves_of_allChecked h.2⟩

end

mutual

/-- All calls of a plain expression resolve, and it has no operators and no assignments. -/
theorem nodes_of_plain : ∀ {e : Expr}, e.Plain → ∀ x ∈ e.nodes, x.Resolves ∧ ¬x.IsOperation
  | .literal _ _, _ => by simp [nodes, Resolves, IsOperation]
  | .flag _, _ => by simp [nodes, Resolves, IsOperation]
  | .call _ args, h => by
    rw [nodes, List.forall_mem_cons]
    exact ⟨⟨h.1, id⟩, nodes_of_allPlain h.2⟩
  | .group inner, h => by
    rw [nodes, List.forall_mem_cons]
    exact ⟨⟨trivial, id⟩, nodes_of_plain (e := inner) h⟩
  | .assign _ _ _, h | .step _ _, h | .binary _ _ _, h | .unary _ _, h => h.elim

theorem nodes_of_allPlain : ∀ {es : List Expr}, AllPlain es →
    ∀ x ∈ nodesOf es, x.Resolves ∧ ¬x.IsOperation
  | [], _ => by simp [nodesOf]
  | _ :: _, h => by
    rw [nodesOf, List.forall_mem_append]
    exact ⟨nodes_of_plain h.1, nodes_of_allPlain h.2⟩

end

mutual

/-- Without operators there is nothing to put calls for. -/
theorem toCalls_of_plain : ∀ {e : Expr}, e.Plain → e.toCalls = e
  | .literal _ _, _ => rfl
  | .flag _, _ => rfl
  | .call _ args, h => by rw [toCalls, allToCalls_of_plain h.2]
  | .group inner, h => by rw [toCalls, toCalls_of_plain (e := inner) h]
  | .assign _ _ _, h | .step _ _, h | .binary _ _ _, h | .unary _ _, h => h.elim

theorem allToCalls_of_plain : ∀ {es : List Expr}, AllPlain es → allToCalls es = es
  | [], _ => rfl
  | _ :: _, h => by rw [allToCalls, toCalls_of_plain h.1, allToCalls_of_plain h.2]

end

end Expr

/-! ## Running without ways out -/

namespace Interpreter

variable {W : Type} [World W]

/-- Runs the function of this name, if there is one and it takes so many arguments. -/
def runCall? (s : Interpreter W) (name : String) (args : List Value) :
    Option (Value × Interpreter W) :=
  match Builtin.find? name with
  | some b => if b.accepts args.length then some (s.runBuiltin b args) else none
  | none => none

mutual

/-- The value of an expression, if every call that evaluation comes to resolves. -/
def evalExpr? (s : Interpreter W) : Expr → Option (Value × Interpreter W)
  | .literal v _ => some (v, s)
  | .flag name => some (s.flags.read name, s)
  | .group inner => evalExpr? s inner
  | .binary op left right => do
    let (a, s) ← evalExpr? s left
    let (b, s) ← evalExpr? s right
    return (op.apply a b, s)
  | .unary op operand => do
    let (a, s) ← evalExpr? s operand
    return (op.apply a, s)
  | .step name op => some (s.assign name op none)
  | .assign name op value => do
    let (v, s) ← evalExpr? s value
    return s.assign name op (some v)
  | .call name args => do
    let (vs, s) ← evalArgs? s args
    s.runCall? name vs

def evalArgs? (s : Interpreter W) : List Expr → Option (List Value × Interpreter W)
  | [] => some ([], s)
  | e :: es => do
    let (v, s) ← evalExpr? s e
    let (vs, s) ← evalArgs? s es
    return (v :: vs, s)

end

def execFrom? (result : Value) (s : Interpreter W) : Script → Option (Value × Interpreter W)
  | [] => some (result, s)
  | e :: es => do
    let (v, s) ← s.evalExpr? e
    execFrom? v { s with last := v } es

/-- Runs a script, if every call that it comes to resolves. -/
def exec? (s : Interpreter W) (script : Script) : Option (Value × Interpreter W) :=
  execFrom? .zero s script

theorem length_evalArgs (s : Interpreter W) (es : List Expr) :
    (s.evalArgs es).1.length = es.length := by
  induction es generalizing s with
  | nil => rfl
  | cons e es ih => rw [evalArgs_cons, List.length_cons, List.length_cons, ih]

theorem runCall?_eq_some_iff {s : Interpreter W} {name : String} {args : List Value}
    {r : Value × Interpreter W} :
    s.runCall? name args = some r ↔
      (∃ b, Builtin.find? name = some b ∧ b.accepts args.length = true) ∧
        r = s.runCall name args := by
  unfold runCall? runCall
  cases Builtin.find? name with
  | none => simp
  | some b =>
    cases haccepts : b.accepts args.length with
    | false => simp [haccepts]
    | true => simp [haccepts, eq_comm (a := r)]

theorem some_eq_some_iff {α : Type} {a r : α} : some a = some r ↔ r = a := by
  rw [Option.some.injEq, eq_comm]

/-- What goes on with an answer that is given under a condition. -/
theorem bind_eq_some_iff_of_answer {α β : Type} {x : Option α} {a : α} {p : Prop}
    (h : ∀ {r}, x = some r ↔ p ∧ r = a) {f : α → Option β} {b : β} :
    (x >>= f) = some b ↔ p ∧ f a = some b := by
  rw [Option.bind_eq_bind, Option.bind_eq_some_iff]
  constructor
  · rintro ⟨r, hr, hf⟩
    obtain ⟨hp, rfl⟩ := h.1 hr
    exact ⟨hp, hf⟩
  · rintro ⟨hp, hf⟩
    exact ⟨a, h.2 ⟨hp, rfl⟩, hf⟩

mutual

/-- Evaluation without ways out answers exactly if all calls resolve, and answers the same. -/
theorem evalExpr?_eq_some_iff : ∀ {s : Interpreter W} (e : Expr) {r : Value × Interpreter W},
    s.evalExpr? e = some r ↔ (∀ x ∈ e.nodes, x.Resolves) ∧ r = s.evalExpr e
  | s, .literal v quoted, r => by
    rw [evalExpr?, evalExpr, Expr.nodes, List.forall_mem_singleton, Expr.Resolves, true_and,
      some_eq_some_iff]
  | s, .flag name, r => by
    rw [evalExpr?, evalExpr, Expr.nodes, List.forall_mem_singleton, Expr.Resolves, true_and,
      some_eq_some_iff]
  | s, .step name op, r => by
    rw [evalExpr?, evalExpr, Expr.nodes, List.forall_mem_singleton, Expr.Resolves, true_and,
      some_eq_some_iff]
  | s, .group inner, r => by
    rw [evalExpr?, evalExpr, evalExpr?_eq_some_iff inner, Expr.nodes, List.forall_mem_cons,
      Expr.Resolves, true_and]
  | s, .unary op operand, r => by
    rw [evalExpr?, evalExpr, bind_eq_some_iff_of_answer (evalExpr?_eq_some_iff operand),
      Expr.nodes, List.forall_mem_cons, Expr.Resolves, true_and]
    exact and_congr_right fun _ => some_eq_some_iff
  | s, .assign name op value, r => by
    rw [evalExpr?, evalExpr, bind_eq_some_iff_of_answer (evalExpr?_eq_some_iff value),
      Expr.nodes, List.forall_mem_cons, Expr.Resolves, true_and]
    exact and_congr_right fun _ => some_eq_some_iff
  | s, .binary op left right, r => by
    rw [evalExpr?, evalExpr, bind_eq_some_iff_of_answer (evalExpr?_eq_some_iff left),
      bind_eq_some_iff_of_answer (evalExpr?_eq_some_iff right), Expr.nodes, List.forall_mem_cons,
      List.forall_mem_append, Expr.Resolves, true_and, and_assoc]
    exact and_congr_right fun _ => and_congr_right fun _ => some_eq_some_iff
  | s, .call name args, r => by
    rw [evalExpr?, evalExpr, bind_eq_some_iff_of_answer (evalArgs?_eq_some_iff args)]
    simp only
    -- the function takes as many values as there are arguments
    rw [runCall?_eq_some_iff, length_evalArgs, Expr.nodes, List.forall_mem_cons, Expr.Resolves,
      ← and_assoc, and_comm (b := ∃ b, _)]

theorem evalArgs?_eq_some_iff : ∀ {s : Interpreter W} (es : List Expr)
    {r : List Value × Interpreter W},
    s.evalArgs? es = some r ↔ (∀ x ∈ Expr.nodesOf es, x.Resolves) ∧ r = s.evalArgs es
  | s, [], r => by
    rw [evalArgs?, evalArgs, some_eq_some_iff]
    simp [Expr.nodesOf]
  | s, e :: es, r => by
    rw [evalArgs?, evalArgs, bind_eq_some_iff_of_answer (evalExpr?_eq_some_iff e),
      bind_eq_some_iff_of_answer (evalArgs?_eq_some_iff es), Expr.nodesOf, List.forall_mem_append,
      and_assoc]
    exact and_congr_right fun _ => and_congr_right fun _ => some_eq_some_iff

end

/-- Running without ways out answers exactly if all calls of the script resolve. -/
theorem exec?_eq_some_iff {s : Interpreter W} {script : Script} {r : Value × Interpreter W} :
    s.exec? script = some r ↔ (∀ x ∈ script.nodes, x.Resolves) ∧ r = s.exec script := by
  have hfrom : ∀ (v : Value) (s : Interpreter W) {r : Value × Interpreter W},
      s.execFrom? v script = some r ↔
        (∀ x ∈ Expr.nodesOf script, x.Resolves) ∧ r = s.execFrom v script := by
    induction script with
    | nil =>
      intro v s r
      rw [execFrom?, execFrom, some_eq_some_iff]
      simp [Expr.nodesOf]
    | cons e es ih =>
      intro v s r
      rw [execFrom?, execFrom, bind_eq_some_iff_of_answer (evalExpr?_eq_some_iff e),
        Expr.nodesOf, List.forall_mem_append, and_assoc]
      exact and_congr_right fun _ => ih _ _
  exact hfrom .zero s

end Interpreter

/-- All calls of a script that was read resolve, and so do all calls of the script with calls in
place of its operators and assignments. This has none of these left, and putting calls for them
once more changes nothing. So running one or the other, from any state, never goes on with a
function that does not exist or with another number of arguments than it takes. -/
theorem Script.resolves_of_parse {source : String} {script : Script}
    (h : parse source = .ok script) :
    (∀ x ∈ script.nodes, x.Resolves) ∧
    (∀ x ∈ Script.nodes (script.map Expr.toCalls), x.Resolves ∧ ¬x.IsOperation) ∧
    (script.map Expr.toCalls).map Expr.toCalls = script.map Expr.toCalls ∧
    ∀ (W : Type) [World W] (s : Interpreter W),
      s.exec? script = some (s.exec script) ∧
        s.exec? (script.map Expr.toCalls) = some (s.exec (script.map Expr.toCalls)) := by
  obtain ⟨_, hstatements, _⟩ := statements_of_parse h
  have hchecked : Expr.AllChecked script :=
    Expr.allChecked_iff.2 fun e he => (hstatements e he).2
  have hplain : Expr.AllPlain (script.map Expr.toCalls) := by
    rw [Expr.allPlain_iff, List.forall_mem_map]
    exact fun e he => Expr.plain_toCalls (hstatements e he).1 (hstatements e he).2
  have hscript := Expr.resolves_of_allChecked hchecked
  have hcalls := Expr.nodes_of_allPlain hplain
  refine ⟨hscript, hcalls, ?_, fun W _ s => ⟨?_, ?_⟩⟩
  · rw [← Expr.allToCalls_eq_map (script.map Expr.toCalls)]
    exact Expr.allToCalls_of_plain hplain
  · exact Interpreter.exec?_eq_some_iff.2 ⟨hscript, rfl⟩
  · exact Interpreter.exec?_eq_some_iff.2 ⟨fun x hx => (hcalls x hx).1, rfl⟩

/-- Negated comparisons, signs, a step and an assigned amount, with calls among their operands. -/
theorem Script.resolves_of_parse_mixed :
    ∃ script,
      parse "$n += -2 <= $Add(1, @2@) $m-- $n != !($inc(m) || $in_inven(key))" = .ok script ∧
      (∀ x ∈ script.nodes, x.Resolves) ∧
      (∀ x ∈ Script.nodes (script.map Expr.toCalls), x.Resolves ∧ ¬x.IsOperation) ∧
      (script.map Expr.toCalls).map Expr.toCalls = script.map Expr.toCalls ∧
      let s := Interpreter.withFlags (MemoryWorld.withInventory ["key"]) [("N", .int 1)]
      s.exec? script = some (s.exec script) ∧
        s.exec? (script.map Expr.toCalls) = some (s.exec (script.map Expr.toCalls)) := by
  obtain ⟨script, hparse, -⟩ : ∃ script,
      parse "$n += -2 <= $Add(1, @2@) $m-- $n != !($inc(m) || $in_inven(key))" = .ok script ∧
        True := by decide +kernel
  obtain ⟨hscript, hcalls, hagain, hrun⟩ := resolves_of_parse hparse
  exact ⟨script, hparse, hscript, hcalls, hagain, hrun MemoryWorld _⟩

end FlagScript
