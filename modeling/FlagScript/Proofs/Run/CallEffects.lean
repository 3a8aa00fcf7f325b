import FlagScript.Proofs.Run.Effects
import FlagScript.Proofs.Source.Translation
import FlagScript.Template.Check

/-!
# Effects among the calls that stand for operators

Operators and assignments can be written as calls, and the search for effects comes to the calls in
the order in which it came to what they stand for. So it finds the call that stands for what it
found before (`firstEffect_toCalls`), and a condition is refused exactly if it is refused when it is
written with calls (`Expr.verdict_toCalls`).
-/

namespace FlagScript

/-! ## Functions behind operators -/

/-- Signs and negations only ask. -/
theorem UnaryOp.hasEffect_call (op : UnaryOp) : op.call.hasEffect = false := by cases op <;> rfl

/-- Operators between operands only ask. -/
theorem BinaryOp.hasEffect_call (op : BinaryOp) : op.call.1.hasEffect = false := by
  cases op <;> rfl

/-- All assignments set a flag. -/
theorem AssignOp.hasEffect_call (op : AssignOp) : op.call.hasEffect = true := by cases op <;> rfl

namespace Expr

/-! ## What is found among calls -/

theorem firstEffect_call (name : String) (args : List Expr) :
    (call name args).firstEffect =
      if (Builtin.find? name).any Builtin.hasEffect then some (call name args)
      else firstEffectOf args := by
  rw [firstEffect]
  cases Builtin.find? name <;> rfl

theorem firstEffect_callOf (b : Builtin) (args : List Expr) :
    (callOf b args).firstEffect =
      if b.hasEffect then some (callOf b args) else firstEffectOf args := by
  rw [callOf, firstEffect_call, Interpreter.find?_name, Option.any_some]

theorem firstEffectOf_singleton (e : Expr) : firstEffectOf [e] = e.firstEffect := by
  rw [firstEffectOf, firstEffectOf, Option.or_none]

theorem firstEffectOf_pair (e e' : Expr) :
    firstEffectOf [e, e'] = e.firstEffect.or e'.firstEffect := by
  rw [firstEffectOf, firstEffectOf_singleton]

mutual

/-- The search finds the call that stands for what it finds in the expression itself. -/
theorem firstEffect_toCalls : ∀ e : Expr, e.toCalls.firstEffect = e.firstEffect.map toCalls
  | literal _ _ => rfl
  | flag _ => rfl
  | group inner => by rw [toCalls, firstEffect, firstEffect, firstEffect_toCalls inner]
  | call name args => by
    rw [toCalls, firstEffect_call, firstEffect_call, firstEffectOf_allToCalls args]
    split
    · rw [Option.map_some, toCalls]
    · rfl
  | unary op operand => by
    rw [toCalls, firstEffect_callOf, op.hasEffect_call, if_neg Bool.false_ne_true,
      firstEffectOf_singleton, firstEffect_toCalls operand, firstEffect]
  | binary op left right => by
    have hinner : (callOf op.call.1 [left.toCalls, right.toCalls]).firstEffect =
        (binary op left right).firstEffect.map toCalls := by
      rw [firstEffect_callOf, op.hasEffect_call, if_neg Bool.false_ne_true, firstEffectOf_pair,
        firstEffect_toCalls left, firstEffect_toCalls right, firstEffect, Option.map_or]
    rw [toCalls]
    -- negating the answer has no effect of its own
    split
    · rw [firstEffect_callOf, if_neg (by decide), firstEffectOf_singleton, hinner]
    · exact hinner
  | step name op => by
    rw [toCalls, firstEffect_callOf, if_pos op.hasEffect_call, firstEffect, Option.map_some,
      toCalls]
  | assign name op value => by
    rw [toCalls, firstEffect_callOf, if_pos op.hasEffect_call, firstEffect, Option.map_some,
      toCalls]

theorem firstEffectOf_allToCalls : ∀ es : List Expr,
    firstEffectOf (allToCalls es) = (firstEffectOf es).map toCalls
  | [] => rfl
  | e :: es => by
    rw [allToCalls, firstEffectOf, firstEffectOf, firstEffect_toCalls e,
      firstEffectOf_allToCalls es, Option.map_or]

end

end Expr

/-! ## Conditions -/

namespace Clause

variable {p : Position} {source : String} {script : Script}

/-- A condition that can be read is accepted exactly if no effect is found in it. -/
theorem readCondition_eq_ok_iff_of_parse (h : Script.parseCondition source = .ok script) :
    readCondition p source = .ok script ↔ Expr.firstEffectOf script = none := by
  rw [readCondition, h]
  dsimp only
  cases Expr.firstEffectOf script <;> simp

end Clause

/-- What is found in an expression with calls in place of its operators is what is found in the
expression, with calls in place of operators; and so it is for the statements of a condition. So a
condition is accepted exactly if one is that reads as the calls which stand for it. -/
theorem Expr.verdict_toCalls :
    (∀ e : Expr, e.toCalls.firstEffect = e.firstEffect.map toCalls) ∧
    (∀ script : Script,
      firstEffectOf (script.map toCalls) = (firstEffectOf script).map toCalls ∧
        (firstEffectOf (script.map toCalls) = none ↔ firstEffectOf script = none)) ∧
    ∀ (p : Position) (source source' : String) (script : Script),
      Script.parseCondition source = .ok script →
      Script.parseCondition source' = .ok (script.map toCalls) →
        (Clause.readCondition p source = .ok script ↔
          Clause.readCondition p source' = .ok (script.map toCalls)) := by
  have hscript : ∀ script : Script,
      firstEffectOf (script.map toCalls) = (firstEffectOf script).map toCalls := by
    intro script
    rw [← allToCalls_eq_map, firstEffectOf_allToCalls]
  have hnone : ∀ script : Script,
      firstEffectOf (script.map toCalls) = none ↔ firstEffectOf script = none := by
    intro script
    rw [hscript, Option.map_eq_none_iff]
  refine ⟨firstEffect_toCalls, fun script => ⟨hscript script, hnone script⟩, ?_⟩
  intro p source source' script h h'
  rw [Clause.readCondition_eq_ok_iff_of_parse h, Clause.readCondition_eq_ok_iff_of_parse h',
    hnone script]

/-- A step in an argument on the right of a negated comparison, and the comparison without it. -/
theorem Expr.verdict_toCalls_of_comparison :
    let e : Expr := .binary .lessOrEqual (.call "IN_INVEN" [.literal (.text "key") false])
      (.unary .neg (.call "ADD" [.step "M" .increment, .flag "N"]))
    e.firstEffect = some (.step "M" .increment) ∧
      e.toCalls.firstEffect = some (.call "INC" [.literal (.text "M") false]) ∧
    ∃ script,
      Script.parseCondition "$in_inven(key) <= -$n" = .ok script ∧
      Script.parseCondition "$NOT($FLAG_GREATER_THAN($IN_INVEN(key), $NEG($N)))" =
        .ok (script.map toCalls) ∧
      Clause.readCondition .start "$in_inven(key) <= -$n" = .ok script ∧
      Clause.readCondition .start "$NOT($FLAG_GREATER_THAN($IN_INVEN(key), $NEG($N)))" =
        .ok (script.map toCalls) := by
  intro e
  have hfound : e.firstEffect = some (.step "M" .increment) := by decide +kernel
  have hread : Script.parseCondition "$in_inven(key) <= -$n" = .ok
      [.binary .lessOrEqual (.call "IN_INVEN" [.literal (.text "key") false])
        (.unary .neg (.flag "N"))] := by decide +kernel
  have hcalls : Script.parseCondition "$NOT($FLAG_GREATER_THAN($IN_INVEN(key), $NEG($N)))" = .ok
      (List.map toCalls [.binary .lessOrEqual (.call "IN_INVEN" [.literal (.text "key") false])
        (.unary .neg (.flag "N"))]) := by decide +kernel
  have haccepted : Clause.readCondition .start "$in_inven(key) <= -$n" = .ok _ :=
    (Clause.readCondition_eq_ok_iff_of_parse hread).2 (by decide +kernel)
  refine ⟨hfound, ?_, _, hread, hcalls, haccepted,
    (verdict_toCalls.2.2 .start _ _ _ hread hcalls).1 haccepted⟩
  rw [verdict_toCalls.1 e, hfound]
  rfl

end FlagScript
