import FlagScript.Interpreter

/-!
# Expressions that only ask

An expression in which no effect is found changes nothing: not the flags, not the world, and nothing
else of the interpreter. This is what the table of functions is for, so it rests on
`runBuiltin_of_not_hasEffect`, which holds the table against what each function does.
-/

namespace FlagScript

namespace Interpreter

variable {W : Type} [World W]

/-- A call runs its function in the state behind its arguments. -/
theorem evalExpr_call (s : Interpreter W) (name : String) (args : List Expr) :
    s.evalExpr (.call name args) = (s.evalArgs args).2.runCall name (s.evalArgs args).1 := by
  rw [evalExpr]

/-- A function without an effect leaves the interpreter as it is. -/
theorem runBuiltin_of_not_hasEffect (s : Interpreter W) {b : Builtin} (h : b.hasEffect = false)
    (args : List Value) : (s.runBuiltin b args).2 = s := by
  cases b
  -- these have an effect by the table
  case enable | disable | toggle | inc | dec | set | move | output => cases h
  all_goals rfl

mutual

/-- Evaluation changes nothing if no effect is found in the expression. -/
theorem evalExpr_of_no_effect : ∀ (s : Interpreter W) (e : Expr), e.firstEffect = none →
    (s.evalExpr e).2 = s
  | _, .literal _ _, _ => rfl
  | _, .flag _, _ => rfl
  | s, .group inner, h => by
    rw [Expr.firstEffect] at h
    rw [evalExpr, evalExpr_of_no_effect s inner h]
  | s, .binary _ left right, h => by
    rw [Expr.firstEffect, Option.or_eq_none_iff] at h
    rw [evalExpr]
    simp only
    rw [evalExpr_of_no_effect s left h.1, evalExpr_of_no_effect s right h.2]
  | s, .unary _ operand, h => by
    rw [Expr.firstEffect] at h
    rw [evalExpr]
    exact evalExpr_of_no_effect s operand h
  | _, .step _ _, h => by rw [Expr.firstEffect] at h; cases h
  | _, .assign _ _ _, h => by rw [Expr.firstEffect] at h; cases h
  | s, .call name args, h => by
    rw [Expr.firstEffect] at h
    rw [evalExpr]
    simp only
    -- a call has no effect if the function has none, or if there is no such function
    unfold runCall
    cases hb : Builtin.find? name with
    | none =>
      rw [hb] at h
      exact evalArgs_of_no_effect s args h
    | some b =>
      rw [hb] at h
      simp only at h
      split at h
      next => cases h
      next heffect =>
        simp only
        rw [runBuiltin_of_not_hasEffect _ (by simpa using heffect),
          evalArgs_of_no_effect s args h]

theorem evalArgs_of_no_effect : ∀ (s : Interpreter W) (es : List Expr),
    Expr.firstEffectOf es = none → (s.evalArgs es).2 = s
  | _, [], _ => rfl
  | s, e :: es, h => by
    rw [Expr.firstEffectOf, Option.or_eq_none_iff] at h
    rw [evalArgs]
    simp only
    rw [evalExpr_of_no_effect s e h.1, evalArgs_of_no_effect s es h.2]

end

/-- Running a script without effects changes the last value and nothing else. -/
theorem exec_of_no_effect (s : Interpreter W) {script : Script}
    (h : Expr.firstEffectOf script = none) :
    (s.exec script).2 = { s with last := (s.exec script).2.last } := by
  -- every statement leaves behind a last value, with which the next one begins
  have hfrom : ∀ (v : Value) (s : Interpreter W),
      (s.execFrom v script).2 = { s with last := (s.execFrom v script).2.last } := by
    induction script with
    | nil => intro v s; rfl
    | cons e es ih =>
      intro v s
      rw [Expr.firstEffectOf, Option.or_eq_none_iff] at h
      rw [execFrom]
      simp only
      rw [evalExpr_of_no_effect s e h.1]
      exact ih h.2 _ _
  exact hfrom .zero s

end Interpreter

end FlagScript
