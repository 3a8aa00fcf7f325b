import FlagScript.Proofs.Run.Effects
import FlagScript.Proofs.Run.Labels

/-!
# Flags that stay as they are

Evaluation visits every expression in an expression once, in the order of its tree
(`exprs_visits`). A visit sets a flag if the expression assigns to it, or calls a function that sets
flags with a label that names it; and nothing but visits sets flags (`getElem?_evalExpr`). Labels
are values that a run computes, but where they are literals they can be told from the tree, and so
can the flags that a script sets and those that it leaves alone (`Interpreter.exec_leavesAlone`).
-/

namespace FlagScript

/-- An expression that evaluation comes to, and the state in which it does. -/
structure Visit (W : Type) where
  state : Interpreter W
  expr : Expr

variable {W : Type} [World W] {name : String}

/-- The flags that an expression sets when it is visited, besides those that the expressions within
it set. -/
def Visit.sets (v : Visit W) : List String :=
  match v.expr with
  | .assign target _ _ | .step target _ => [target]
  | .call function args =>
    (Interpreter.callLabels function (v.state.evalArgs args).1).map Interpreter.labelOf
  | _ => []

theorem Visit.sets_call (s : Interpreter W) (function : String) (args : List Expr) :
    (Visit.mk s (.call function args)).sets =
      (Interpreter.callLabels function (s.evalArgs args).1).map Interpreter.labelOf := rfl

namespace Interpreter

/-! ## Visits -/

mutual

/-- The visits of an evaluation: an expression comes before those within it, and these come first to
last. -/
def visits (s : Interpreter W) : Expr → List (Visit W)
  | .literal v quoted => [⟨s, .literal v quoted⟩]
  | .flag name => [⟨s, .flag name⟩]
  | .step name op => [⟨s, .step name op⟩]
  | .assign name op value => ⟨s, .assign name op value⟩ :: visits s value
  | .call name args => ⟨s, .call name args⟩ :: argumentVisits s args
  | .group inner => ⟨s, .group inner⟩ :: visits s inner
  | .binary op left right =>
    ⟨s, .binary op left right⟩ :: (visits s left ++ visits (s.evalExpr left).2 right)
  | .unary op operand => ⟨s, .unary op operand⟩ :: visits s operand

def argumentVisits (s : Interpreter W) : List Expr → List (Visit W)
  | [] => []
  | e :: es => visits s e ++ argumentVisits (s.evalExpr e).2 es

end

/-- The visits in a run of statements. -/
def execVisits (s : Interpreter W) : Script → List (Visit W)
  | [] => []
  | e :: es =>
    s.visits e ++ execVisits { (s.evalExpr e).2 with last := (s.evalExpr e).1 } es

mutual

/-- No expression is passed by, and none is evaluated twice. -/
theorem exprs_visits : ∀ (s : Interpreter W) (e : Expr), (s.visits e).map Visit.expr = e.nodes
  | _, .literal _ _ | _, .flag _ | _, .step _ _ => rfl
  | s, .assign _ _ value => by rw [visits, List.map_cons, exprs_visits s value, Expr.nodes]
  | s, .group inner => by rw [visits, List.map_cons, exprs_visits s inner, Expr.nodes]
  | s, .unary _ operand => by rw [visits, List.map_cons, exprs_visits s operand, Expr.nodes]
  | s, .binary _ left right => by
    rw [visits, List.map_cons, List.map_append, exprs_visits s left, exprs_visits _ right,
      Expr.nodes]
  | s, .call _ args => by rw [visits, List.map_cons, exprs_argumentVisits s args, Expr.nodes]

theorem exprs_argumentVisits : ∀ (s : Interpreter W) (es : List Expr),
    (s.argumentVisits es).map Visit.expr = Expr.nodesOf es
  | _, [] => rfl
  | s, e :: es => by
    rw [argumentVisits, List.map_append, exprs_visits s e, exprs_argumentVisits _ es,
      Expr.nodesOf]

end

theorem exprs_execVisits (s : Interpreter W) (script : Script) :
    (s.execVisits script).map Visit.expr = script.nodes := by
  induction script generalizing s with
  | nil => rfl
  | cons e es ih =>
    rw [execVisits, List.map_append, exprs_visits s e, ih, Script.nodes, Script.nodes,
      Expr.nodesOf]

/-! ## Flags that are set -/

omit [World W] in
theorem exists_mem_append_iff {p : Visit W → Prop} {vs vs' : List (Visit W)} :
    (∃ v ∈ vs ++ vs', p v) ↔ (∃ v ∈ vs, p v) ∨ ∃ v ∈ vs', p v := by
  simp only [List.mem_append, or_and_right, exists_or]

mutual

/-- Visits set the flags that are assigned to by name and those that labels name. -/
theorem exists_sets_iff : ∀ (s : Interpreter W) (e : Expr),
    (∃ v ∈ s.visits e, name ∈ v.sets) ↔ name ∈ e.targets ∨ name ∈ (s.labels e).map labelOf
  | s, .literal _ _ | s, .flag _ | s, .step _ _ => by
    simp [visits, Visit.sets, Expr.targets, labels]
  | s, .assign target _ value => by
    rw [visits, List.exists_mem_cons_iff, exists_sets_iff s value, Expr.targets, List.mem_append,
      labels, or_right_comm, or_comm]
    rfl
  | s, .group inner => by
    rw [visits, List.exists_mem_cons_iff, exists_sets_iff s inner, Expr.targets, labels]
    exact or_iff_right List.not_mem_nil
  | s, .unary _ operand => by
    rw [visits, List.exists_mem_cons_iff, exists_sets_iff s operand, Expr.targets, labels]
    exact or_iff_right List.not_mem_nil
  | s, .binary _ left right => by
    rw [visits, List.exists_mem_cons_iff, exists_mem_append_iff, exists_sets_iff s left,
      exists_sets_iff _ right, Expr.targets, List.mem_append, labels, List.map_append,
      List.mem_append, or_or_or_comm]
    -- the operator itself sets nothing
    exact or_iff_right List.not_mem_nil
  | s, .call _ args => by
    rw [visits, List.exists_mem_cons_iff, exists_sets_argumentVisits_iff s args, Expr.targets,
      labels, List.map_append, List.mem_append, or_comm, or_assoc]
    rfl

theorem exists_sets_argumentVisits_iff : ∀ (s : Interpreter W) (es : List Expr),
    (∃ v ∈ s.argumentVisits es, name ∈ v.sets) ↔
      name ∈ Expr.targetsOf es ∨ name ∈ (s.argumentLabels es).map labelOf
  | s, [] => by simp [argumentVisits, Expr.targetsOf, argumentLabels]
  | s, e :: es => by
    rw [argumentVisits, exists_mem_append_iff, exists_sets_iff s e,
      exists_sets_argumentVisits_iff _ es, Expr.targetsOf, List.mem_append, argumentLabels,
      List.map_append, List.mem_append, or_or_or_comm]

end

theorem exists_sets_execVisits_iff (s : Interpreter W) (script : Script) :
    (∃ v ∈ s.execVisits script, name ∈ v.sets) ↔
      name ∈ script.targets ∨ name ∈ (s.execLabels script).map labelOf := by
  induction script generalizing s with
  | nil => simp [execVisits, Script.targets, execLabels]
  | cons e es ih =>
    rw [execVisits, exists_mem_append_iff, exists_sets_iff s e, ih, Script.targets,
      Script.targets, List.flatMap_cons, List.mem_append, execLabels, List.map_append,
      List.mem_append, or_or_or_comm]

/-! ## Flags that are not set -/

omit [World W] in
theorem getElem?_put_of_ne (s : Interpreter W) {label : String} (h : name ≠ label) (v : Value) :
    (s.put label v).flags[name]? = s.flags[name]? := by
  rw [put, Std.ExtTreeMap.getElem?_insert, if_neg]
  rw [Std.LawfulEqCmp.compare_eq_iff_eq]
  exact h.symm

theorem getElem?_runBuiltin (s : Interpreter W) (b : Builtin) (args : List Value)
    (h : name ∉ (builtinLabels b args).map labelOf) :
    (s.runBuiltin b args).2.flags[name]? = s.flags[name]? := by
  cases b
  -- these set the flag that their first argument names
  case enable | disable | toggle | inc | dec | set =>
    have hne : name ≠ labelOf (args.getD 0 .zero) := by
      simpa [builtinLabels, Builtin.setsFlag] using h
    exact s.getElem?_put_of_ne hne _
  all_goals rfl

theorem getElem?_runCall (s : Interpreter W) (function : String) (args : List Value)
    (h : name ∉ (callLabels function args).map labelOf) :
    (s.runCall function args).2.flags[name]? = s.flags[name]? := by
  unfold runCall
  unfold callLabels at h
  cases hb : Builtin.find? function with
  | none => rfl
  | some b =>
    rw [hb] at h
    exact s.getElem?_runBuiltin b args h

mutual

/-- A flag that no visit sets is as it was. -/
theorem getElem?_evalExpr : ∀ (s : Interpreter W) {e : Expr},
    (∀ v ∈ s.visits e, name ∉ v.sets) → (s.evalExpr e).2.flags[name]? = s.flags[name]?
  | _, .literal _ _, _ | _, .flag _, _ => rfl
  | s, .step target _, h => by
    rw [visits, List.forall_mem_singleton] at h
    exact s.getElem?_put_of_ne (List.ne_of_not_mem_cons h) _
  | s, .assign target _ value, h => by
    rw [visits, List.forall_mem_cons] at h
    rw [← getElem?_evalExpr s (e := value) h.2]
    exact getElem?_put_of_ne _ (List.ne_of_not_mem_cons h.1) _
  | s, .group inner, h => by
    rw [visits, List.forall_mem_cons] at h
    exact getElem?_evalExpr s (e := inner) h.2
  | s, .unary _ operand, h => by
    rw [visits, List.forall_mem_cons] at h
    exact getElem?_evalExpr s (e := operand) h.2
  | s, .binary _ left right, h => by
    rw [visits, List.forall_mem_cons, List.forall_mem_append] at h
    rw [← getElem?_evalExpr s h.2.1]
    exact getElem?_evalExpr _ h.2.2
  | s, .call function args, h => by
    rw [visits, List.forall_mem_cons, Visit.sets_call] at h
    rw [evalExpr_call, getElem?_runCall _ function _ h.1, getElem?_evalArgs s h.2]

theorem getElem?_evalArgs : ∀ (s : Interpreter W) {es : List Expr},
    (∀ v ∈ s.argumentVisits es, name ∉ v.sets) →
      (s.evalArgs es).2.flags[name]? = s.flags[name]?
  | _, [], _ => rfl
  | s, e :: es, h => by
    rw [argumentVisits, List.forall_mem_append] at h
    rw [← getElem?_evalExpr s h.1]
    exact getElem?_evalArgs _ h.2

end

theorem getElem?_execFrom (result : Value) (s : Interpreter W) {script : Script}
    (h : ∀ v ∈ s.execVisits script, name ∉ v.sets) :
    (s.execFrom result script).2.flags[name]? = s.flags[name]? := by
  induction script generalizing result s with
  | nil => rfl
  | cons e es ih =>
    rw [execVisits, List.forall_mem_append] at h
    rw [execFrom, ih _ _ h.2]
    exact s.getElem?_evalExpr h.1

end Interpreter

/-! ## What can be told from the tree -/

namespace Expr

/-- The label that the first of some arguments is, if that is a literal. -/
def literalLabel? : List Expr → Option String
  | literal v _ :: _ => some (Text.upper v.toText)
  | _ => none

/-- An expression sets the flag of this name, whatever the run: it assigns to it, or calls a
function that sets the flag of a label, which is a literal and names it. -/
def Sets (name : String) : Expr → Prop
  | assign target _ _ | step target _ => target = name
  | call function args =>
    (∃ b ∈ Builtin.find? function, b.setsFlag = true) ∧ literalLabel? args = some name
  | literal _ _ | flag _ | group _ | binary _ _ _ | unary _ _ => False

/-- An expression does not set the flag of this name, whatever the run: it assigns to another one,
or calls a function that does not set flags, or one that sets the flag of a label, which is a
literal and names another one. -/
def LeavesAlone (name : String) : Expr → Prop
  | assign target _ _ | step target _ => target ≠ name
  | call function args =>
    (∃ b ∈ Builtin.find? function, b.setsFlag = true) → ∃ label ∈ literalLabel? args, label ≠ name
  | literal _ _ | flag _ | group _ | binary _ _ _ | unary _ _ => True

instance (name : String) : DecidablePred (Sets name)
  | assign target _ _ | step target _ => inferInstanceAs (Decidable (target = name))
  | call function args => inferInstanceAs (Decidable
      ((∃ b ∈ Builtin.find? function, b.setsFlag = true) ∧ literalLabel? args = some name))
  | literal _ _ | flag _ | group _ | binary _ _ _ | unary _ _ => isFalse id

instance (name : String) : DecidablePred (LeavesAlone name)
  | assign target _ _ | step target _ => inferInstanceAs (Decidable (target ≠ name))
  | call function args => inferInstanceAs (Decidable
      ((∃ b ∈ Builtin.find? function, b.setsFlag = true) →
        ∃ label ∈ literalLabel? args, label ≠ name))
  | literal _ _ | flag _ | group _ | binary _ _ _ | unary _ _ => isTrue trivial

end Expr

namespace Interpreter

omit [World W] in
theorem callLabels_eq (function : String) (args : List Value) :
    callLabels function args =
      if ∃ b ∈ Builtin.find? function, b.setsFlag = true then [args.getD 0 .zero] else [] := by
  rw [callLabels]
  cases Builtin.find? function with
  | none => simp
  | some b => simp [builtinLabels]

/-- A label that is a literal is the same from every state. -/
theorem labelOf_of_literalLabel? (s : Interpreter W) {args : List Expr} {label : String}
    (h : label ∈ Expr.literalLabel? args) :
    labelOf ((s.evalArgs args).1.getD 0 .zero) = label := by
  obtain - | ⟨e, es⟩ := args
  · cases h
  · cases e
    case literal v quoted =>
      rw [evalArgs, evalExpr]
      exact Option.some.inj h
    all_goals cases h

end Interpreter

namespace Visit

variable {v : Visit W}

theorem mem_sets (h : v.expr.Sets name) : name ∈ v.sets := by
  obtain ⟨s, e⟩ := v
  cases e
  case assign | step => exact List.mem_singleton.2 (Eq.symm h)
  case call function args =>
    rw [sets_call, Interpreter.callLabels_eq, if_pos h.1, List.map_singleton,
      s.labelOf_of_literalLabel? h.2]
    exact List.mem_singleton_self name
  all_goals exact h.elim

theorem not_mem_sets (h : v.expr.LeavesAlone name) : name ∉ v.sets := by
  obtain ⟨s, e⟩ := v
  cases e
  case assign | step => exact fun hmem => h (List.mem_singleton.1 hmem).symm
  case call function args =>
    rw [sets_call, Interpreter.callLabels_eq]
    split
    next hsets =>
      -- what the literal is in the tree is the label that the call has in this state
      obtain ⟨label, hlabel, hne⟩ := h hsets
      rw [List.map_singleton, s.labelOf_of_literalLabel? hlabel, List.mem_singleton]
      exact hne.symm
    next => exact List.not_mem_nil
  all_goals exact List.not_mem_nil

end Visit

namespace Interpreter

/-- Running a script drops no flag. A flag has behind the run the value that it had in front of it,
or is still not set, if everything in the script leaves it alone: no assignment is to its name, and
every call of a function that sets flags has a literal for its first argument whose text in upper
case is another name. A flag that something in the script sets by its name or by such a literal is
set behind the run. -/
theorem exec_leavesAlone (s : Interpreter W) (script : Script) (name : String) :
    (name ∈ s.flags → name ∈ (s.exec script).2.flags) ∧
      ((∀ x ∈ script.nodes, x.LeavesAlone name) →
        (s.exec script).2.flags[name]? = s.flags[name]?) ∧
      ((∃ x ∈ script.nodes, x.Sets name) → name ∈ (s.exec script).2.flags) := by
  refine ⟨fun h => (mem_exec s script).2 (.inl h), fun h => ?_, fun h => ?_⟩
  -- what a run visits are the expressions of the script
  · refine s.getElem?_execFrom .zero fun v hv => Visit.not_mem_sets (h v.expr ?_)
    rw [← exprs_execVisits s]
    exact List.mem_map_of_mem hv
  · obtain ⟨x, hx, hsets⟩ := h
    rw [← exprs_execVisits s] at hx
    obtain ⟨v, hv, rfl⟩ := List.mem_map.1 hx
    rw [mem_exec]
    exact .inr ((exists_sets_execVisits_iff s script).1 ⟨v, hv, Visit.mem_sets hsets⟩)

/-- Flags are set within arguments, an assigned value and an operand of `&&`, under labels that are
two words, a number and a truth value; but not the flag that they are computed from. -/
theorem exec_leavesAlone_of_labels :
    ∃ script,
      Script.parse "$b = $INC(@a b@, $SET(7, $a)) $MOVE($c++, $a) && !$enable(off)" = .ok script ∧
      let s := withFlags (.withInventory ["key"] : MemoryWorld) [("a", .int 3), ("a b", .int 4)]
      (∀ x ∈ script.nodes, x.LeavesAlone "A") ∧ (∃ x ∈ script.nodes, x.Sets "OFF") ∧
      "A" ∈ s.flags ∧ "A" ∈ (s.exec script).2.flags ∧
      (s.exec script).2.flags["A"]? = s.flags["A"]? ∧ "OFF" ∈ (s.exec script).2.flags := by
  let e : Expr := .assign "B" .set
    (.call "INC" [.literal (.text "a b") true, .call "SET" [.literal (.int 7) false, .flag "A"]])
  let e' : Expr := .binary .and (.call "MOVE" [.step "C" .increment, .flag "A"])
    (.unary .not (.call "ENABLE" [.literal (.bool false) false]))
  have hparse : Script.parse "$b = $INC(@a b@, $SET(7, $a)) $MOVE($c++, $a) && !$enable(off)" =
      .ok [e, e'] := by decide +kernel
  refine ⟨_, hparse, ?_⟩
  intro s
  have halone : ∀ x ∈ Script.nodes [e, e'], x.LeavesAlone "A" := by decide +kernel
  have hsets : ∃ x ∈ Script.nodes [e, e'], x.Sets "OFF" := by decide +kernel
  have hset : "A" ∈ s.flags := by decide +kernel
  exact ⟨halone, hsets, hset, (exec_leavesAlone s [e, e'] "A").1 hset,
    (exec_leavesAlone s [e, e'] "A").2.1 halone, (exec_leavesAlone s [e, e'] "OFF").2.2 hsets⟩

end Interpreter

end FlagScript
