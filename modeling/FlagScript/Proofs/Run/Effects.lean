import FlagScript.Proofs.Run.Asking

/-!
# The search for effects

An expression is searched for effects depth first from left to right. What is found is the first
expression on this way that changes something itself: an assignment, or a call of a function that
can change flags or the world (`firstEffectOf_eq_find?`). So running a script in which nothing is
found changes nothing, also if it was built by hand, with calls that fit no function
(`exec_of_firstEffectOf`).
-/

namespace FlagScript

/-! ## Expressions within expressions -/

namespace Expr

mutual

/-- An expression and all those within it, depth first from left to right. -/
def nodes : Expr → List Expr
  | literal v quoted => [literal v quoted]
  | flag name => [flag name]
  | step name op => [step name op]
  | assign name op value => assign name op value :: nodes value
  | call name args => call name args :: nodesOf args
  | group inner => group inner :: nodes inner
  | binary op left right => binary op left right :: (nodes left ++ nodes right)
  | unary op operand => unary op operand :: nodes operand

def nodesOf : List Expr → List Expr
  | [] => []
  | e :: es => nodes e ++ nodesOf es

end

end Expr

/-- All expressions of a script. -/
def Script.nodes (script : Script) : List Expr := Expr.nodesOf script

/-! ## Functions that change something -/

namespace Builtin

/-- In some world and some state, a call changes the interpreter. -/
def CanChange (b : Builtin) : Prop :=
  ∃ (W : Type) (_ : World W) (s : Interpreter W) (args : List Value), (s.runBuiltin b args).2 ≠ s

/-- The functions that the table marks are those that can change something. -/
theorem canChange_iff {b : Builtin} : b.CanChange ↔ b.hasEffect = true := by
  constructor
  · rintro ⟨W, _, s, args, hne⟩
    cases heffect : b.hasEffect with
    | true => rfl
    | false => exact absurd (s.runBuiltin_of_not_hasEffect heffect args) hne
  · intro heffect
    -- a world that remembers whether the number of calls was odd
    let world : World Bool :=
      ⟨fun _ _ => true, fun w _ _ => (true, !w), fun w _ => (true, !w)⟩
    let s : Interpreter Bool := { world := false }
    have hstore : ∀ name v, (s.store name v).2 ≠ s := by
      intro name v heq
      have hflag := congrArg (fun s => s.flags[Interpreter.labelOf name]?) heq
      simp [s, Interpreter.store, Interpreter.put] at hflag
    refine ⟨Bool, world, s, [], ?_⟩
    cases b
    case enable | disable | toggle | inc | dec | set => exact hstore _ _
    case move | output =>
      intro heq
      cases congrArg Interpreter.world heq
    all_goals cases heffect

end Builtin

namespace Expr

/-- An expression that changes something itself, whatever the expressions within it do. -/
def Changes : Expr → Prop
  | assign _ _ _ | step _ _ => True
  | call name _ => ∃ b, Builtin.find? name = some b ∧ b.CanChange
  | _ => False

theorem changes_call_iff {name : String} {args : List Expr} :
    (call name args).Changes ↔ (Builtin.find? name).any Builtin.hasEffect = true := by
  rw [Changes]
  simp [Builtin.canChange_iff, Option.any_eq_true]

instance : DecidablePred Changes
  | assign _ _ _ | step _ _ => isTrue trivial
  | call _ _ => decidable_of_iff _ changes_call_iff.symm
  | literal _ _ | flag _ | group _ | binary _ _ _ | unary _ _ => isFalse id

/-! ## What is found -/

mutual

theorem firstEffect_eq_find? : ∀ e : Expr, e.firstEffect = e.nodes.find? (·.Changes)
  | literal _ _ => rfl
  | flag _ => rfl
  | step _ _ => rfl
  | assign _ _ _ => rfl
  | call name args => by
    rw [firstEffect, nodes, firstEffectOf_eq_find? args]
    -- the call itself comes before its arguments
    cases hb : Builtin.find? name with
    | none => rw [List.find?_cons_of_neg (by simp [changes_call_iff, hb])]
    | some b =>
      cases heffect : b.hasEffect with
      | true =>
        rw [List.find?_cons_of_pos (by simp [changes_call_iff, hb, heffect])]
        exact if_pos heffect
      | false =>
        rw [List.find?_cons_of_neg (by simp [changes_call_iff, hb, heffect])]
        exact if_neg (by simp [heffect])
  | group inner => firstEffect_eq_find? inner
  | binary op left right => by
    have hself : decide (binary op left right).Changes = false := rfl
    rw [firstEffect, nodes, List.find?_cons_of_neg (by simp [hself]), List.find?_append,
      firstEffect_eq_find? left, firstEffect_eq_find? right]
  | unary op operand => firstEffect_eq_find? operand

theorem firstEffectOf_eq_find? : ∀ es : List Expr,
    firstEffectOf es = (nodesOf es).find? (·.Changes)
  | [] => rfl
  | e :: es => by
    rw [firstEffectOf, nodesOf, List.find?_append, firstEffect_eq_find? e,
      firstEffectOf_eq_find? es]

end

end Expr

/-- What is found is the first expression of a script, depth first, that changes something itself.
If nothing is found, running the script leaves the flags, those of a reset, the world and the name
of the file as they are. This is about every script, hand-built ones with calls that fit no function
included. -/
theorem Interpreter.exec_of_firstEffectOf (script : Script) :
    Expr.firstEffectOf script = script.nodes.find? (·.Changes) ∧
    (Expr.firstEffectOf script = none → ∀ (W : Type) [World W] (s : Interpreter W),
      (s.exec script).2.flags = s.flags ∧ (s.exec script).2.initial = s.initial ∧
        (s.exec script).2.world = s.world ∧ (s.exec script).2.file = s.file) := by
  refine ⟨Expr.firstEffectOf_eq_find? script, fun hnone W _ s => ?_⟩
  rw [exec_of_no_effect s hnone]
  exact ⟨rfl, rfl, rfl, rfl⟩

/-- Functions that do not exist or take another number of arguments, with a `$` in front or in lower
case. -/
theorem Interpreter.exec_of_firstEffectOf_handmade :
    let script : Script := [.call "NOPE" [.call "$in_inven" []],
      .binary .or (.call "add" [.flag "a"]) (.unary .not (.call "NOT" [.flag "DOOR", .flag "a"]))]
    let s : Interpreter MemoryWorld :=
      { withFlags (.withInventory ["key"]) [("door", .int 2)] with file := some "hall" }
    Expr.firstEffectOf script = none ∧
      (s.exec script).2.flags = s.flags ∧ (s.exec script).2.initial = s.initial ∧
        (s.exec script).2.world = s.world ∧ (s.exec script).2.file = s.file := by
  intro script s
  have hnone : Expr.firstEffectOf script = none := by decide +kernel
  exact ⟨hnone, (exec_of_firstEffectOf script).2 hnone MemoryWorld s⟩

end FlagScript
