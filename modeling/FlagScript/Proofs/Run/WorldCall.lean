import FlagScript.Interpreter

/-!
# Calls of the world

`worldCalls` lists the calls that evaluation makes of the world, with their arguments and in their
order; it follows `evalExpr`. Two facts tie the list to the evaluator: the world after evaluation is
the one that the calls lead to (`world_evalExpr`), and another world that answers the listed calls
alike makes no difference (`evalExpr_of_answers`), so no call is missing.
-/

namespace FlagScript

variable {W : Type} [Game W]

/-- One call of the world. -/
inductive WorldCall where
  | inInventory (label : String)
  | move (label place : String)
  | output (text : String)
  deriving DecidableEq

namespace WorldCall

/-- The answer of a world to a call, and the world behind it. -/
def run (w : W) : WorldCall → Bool × W
  | inInventory label => Game.inInventory w label
  | move label place => Game.move w label place
  | output text => Game.output w text

/-- The world behind calls. -/
def after (w : W) (calls : List WorldCall) : W := calls.foldl (fun w c => (c.run w).2) w

/-- The answers to calls, first to last. -/
def answers (w : W) : List WorldCall → List Bool
  | [] => []
  | c :: cs => (c.run w).1 :: answers (c.run w).2 cs

theorem after_append (w : W) (cs ds : List WorldCall) :
    after w (cs ++ ds) = after (after w cs) ds := by
  rw [after, List.foldl_append]
  rfl

theorem answers_append (w : W) (cs ds : List WorldCall) :
    answers w (cs ++ ds) = answers w cs ++ answers (after w cs) ds := by
  induction cs generalizing w with
  | nil => rfl
  | cons c cs ih =>
    rw [List.cons_append, answers, answers, ih]
    rfl

theorem length_answers (w : W) (cs : List WorldCall) : (answers w cs).length = cs.length := by
  induction cs generalizing w with
  | nil => rfl
  | cons c cs ih => rw [answers, List.length_cons, List.length_cons, ih]

/-- Worlds that answer calls alike answer those in front alike, and then the others. -/
theorem answers_append_inj {W' : Type} [Game W'] {w : W} {w' : W'} {cs ds : List WorldCall}
    (h : answers w (cs ++ ds) = answers w' (cs ++ ds)) :
    answers w cs = answers w' cs ∧ answers (after w cs) ds = answers (after w' cs) ds := by
  rw [answers_append, answers_append] at h
  exact List.append_inj h (by rw [length_answers, length_answers])

end WorldCall

namespace Interpreter

open WorldCall (after answers)

/-! ## The calls of an evaluation -/

/-- The calls that a function makes. -/
def builtinCalls (b : Builtin) (args : List Value) : List WorldCall :=
  let first := args.getD 0 .zero
  let second := args.getD 1 .zero
  match b with
  | .inInven => [.inInventory (labelOf first)]
  | .move => [.move (labelOf first) (labelOf second)]
  | .output => [.output first.toText]
  | _ => []

/-- The calls that the function of this name makes. -/
def callCalls (name : String) (args : List Value) : List WorldCall :=
  match Builtin.find? name with
  | some b => builtinCalls b args
  | none => []

mutual

def worldCalls (s : Interpreter W) : Expr → List WorldCall
  | .literal _ _ => []
  | .flag _ => []
  | .group inner => worldCalls s inner
  | .binary _ left right => worldCalls s left ++ worldCalls (s.evalExpr left).2 right
  | .unary _ operand => worldCalls s operand
  | .step _ _ => []
  | .assign _ _ value => worldCalls s value
  | .call name args => argumentCalls s args ++ callCalls name (s.evalArgs args).1

/-- The calls of arguments, first to last. -/
def argumentCalls (s : Interpreter W) : List Expr → List WorldCall
  | [] => []
  | e :: es => worldCalls s e ++ argumentCalls (s.evalExpr e).2 es

end

/-- The calls of statements, first to last. -/
def execCalls (s : Interpreter W) : Script → List WorldCall
  | [] => []
  | e :: es =>
    s.worldCalls e ++ execCalls { (s.evalExpr e).2 with last := (s.evalExpr e).1 } es

/-! ## The world behind an evaluation -/

theorem world_runBuiltin (s : Interpreter W) (b : Builtin) (args : List Value) :
    (s.runBuiltin b args).2.world = after s.world (builtinCalls b args) := by
  cases b <;> rfl

theorem world_runCall (s : Interpreter W) (name : String) (args : List Value) :
    (s.runCall name args).2.world = after s.world (callCalls name args) := by
  unfold runCall callCalls
  cases Builtin.find? name with
  | some b => exact world_runBuiltin s b args
  | none => rfl

mutual

theorem world_evalExpr : ∀ (s : Interpreter W) (e : Expr),
    (s.evalExpr e).2.world = after s.world (s.worldCalls e)
  | _, .literal _ _ => rfl
  | _, .flag _ => rfl
  | s, .group inner => by
    rw [evalExpr, worldCalls, world_evalExpr s inner]
  | s, .binary _ left right => by
    rw [evalExpr, worldCalls, WorldCall.after_append, ← world_evalExpr s left]
    exact world_evalExpr _ right
  | s, .unary _ operand => by
    rw [evalExpr, worldCalls]
    exact world_evalExpr s operand
  | _, .step _ _ => rfl
  | s, .assign _ _ value => by
    rw [evalExpr, worldCalls]
    exact world_evalExpr s value
  | s, .call name args => by
    rw [evalExpr, worldCalls, WorldCall.after_append, ← world_evalArgs s args]
    exact world_runCall _ name _

theorem world_evalArgs : ∀ (s : Interpreter W) (es : List Expr),
    (s.evalArgs es).2.world = after s.world (s.argumentCalls es)
  | _, [] => rfl
  | s, e :: es => by
    rw [evalArgs, argumentCalls, WorldCall.after_append, ← world_evalExpr s e]
    exact world_evalArgs _ es

end

theorem world_execFrom (v : Value) (s : Interpreter W) (script : Script) :
    (s.execFrom v script).2.world = after s.world (s.execCalls script) := by
  induction script generalizing v s with
  | nil => rfl
  | cons e es ih =>
    rw [execFrom, execCalls, WorldCall.after_append, ← world_evalExpr s e]
    exact ih _ _

/-- The world behind a script is the one that its calls lead to. -/
theorem world_exec (s : Interpreter W) (script : Script) :
    (s.exec script).2.world = after s.world (s.execCalls script) := world_execFrom _ s script

/-! ## Worlds that answer alike -/

variable {W' : Type} [Game W']

/-- An evaluation and one in another world have the same answer, flags and calls. -/
structure SameRun {α : Type} (x : α × Interpreter W) (x' : α × Interpreter W')
    (calls calls' : List WorldCall) : Prop where
  value : x.1 = x'.1
  flags : x.2.flags = x'.2.flags
  calls : calls = calls'

theorem runBuiltin_of_answers {s : Interpreter W} {s' : Interpreter W'}
    (hflags : s.flags = s'.flags) (b : Builtin) (args : List Value)
    (h : answers s.world (builtinCalls b args) = answers s'.world (builtinCalls b args)) :
    (s.runBuiltin b args).1 = (s'.runBuiltin b args).1 ∧
      (s.runBuiltin b args).2.flags = (s'.runBuiltin b args).2.flags := by
  cases b
  -- only these three ask the world
  case inInven | move | output =>
    have hanswer := List.head_eq_of_cons_eq h
    simp only [WorldCall.run] at hanswer
    exact ⟨by simp only [runBuiltin, hanswer], hflags⟩
  all_goals
    simp only [runBuiltin, store, put, hflags, and_self]

theorem runCall_of_answers {s : Interpreter W} {s' : Interpreter W'}
    (hflags : s.flags = s'.flags) (name : String) (args : List Value)
    (h : answers s.world (callCalls name args) = answers s'.world (callCalls name args)) :
    (s.runCall name args).1 = (s'.runCall name args).1 ∧
      (s.runCall name args).2.flags = (s'.runCall name args).2.flags := by
  unfold runCall
  unfold callCalls at h
  cases hb : Builtin.find? name with
  | some b => rw [hb] at h; exact runBuiltin_of_answers hflags b args h
  | none => exact ⟨rfl, hflags⟩

mutual

theorem evalExpr_of_answers : ∀ {s : Interpreter W} {s' : Interpreter W'} (e : Expr),
    s.flags = s'.flags →
    answers s.world (s.worldCalls e) = answers s'.world (s.worldCalls e) →
      SameRun (s.evalExpr e) (s'.evalExpr e) (s.worldCalls e) (s'.worldCalls e)
  | s, s', .literal v _, hflags, _ => ⟨rfl, hflags, rfl⟩
  | s, s', .flag name, hflags, _ => ⟨by rw [evalExpr, evalExpr, hflags], hflags, rfl⟩
  | s, s', .group inner, hflags, h => by
    rw [worldCalls] at h
    rw [evalExpr, evalExpr, worldCalls, worldCalls]
    exact evalExpr_of_answers inner hflags h
  | s, s', .binary op left right, hflags, h => by
    rw [worldCalls] at h
    obtain ⟨hl, hr⟩ := WorldCall.answers_append_inj h
    have hleft := evalExpr_of_answers left hflags hl
    -- the right operand asks the worlds that the left one led to
    rw [← world_evalExpr, hleft.calls, ← world_evalExpr] at hr
    have hright := evalExpr_of_answers right hleft.flags hr
    rw [evalExpr, evalExpr, worldCalls, worldCalls]
    exact ⟨by simp only [hleft.value, hright.value], hright.flags, by
      rw [hleft.calls, hright.calls]⟩
  | s, s', .unary op operand, hflags, h => by
    rw [worldCalls] at h
    have hoperand := evalExpr_of_answers operand hflags h
    rw [evalExpr, evalExpr, worldCalls, worldCalls]
    exact ⟨by simp only [hoperand.value], hoperand.flags, hoperand.calls⟩
  | s, s', .step name op, hflags, _ => by
    rw [evalExpr, evalExpr, worldCalls, worldCalls, assign, assign, hflags]
    exact ⟨rfl, by rw [put, put, hflags], rfl⟩
  | s, s', .assign name op value, hflags, h => by
    rw [worldCalls] at h
    have hvalue := evalExpr_of_answers value hflags h
    rw [evalExpr, evalExpr, worldCalls, worldCalls]
    simp only [assign, put, hvalue.value, hvalue.flags]
    exact ⟨rfl, rfl, hvalue.calls⟩
  | s, s', .call name args, hflags, h => by
    rw [worldCalls] at h
    obtain ⟨ha, hc⟩ := WorldCall.answers_append_inj h
    have hargs := evalArgs_of_answers args hflags ha
    -- and the function those that its arguments led to
    rw [← world_evalArgs, hargs.calls, ← world_evalArgs] at hc
    have hcall := runCall_of_answers hargs.flags name _ hc
    rw [evalExpr, evalExpr, worldCalls, worldCalls]
    rw [hargs.value] at hcall
    exact ⟨by simp only [hargs.value, hcall.1], by simp only [hargs.value, hcall.2], by
      rw [hargs.calls, hargs.value]⟩

theorem evalArgs_of_answers : ∀ {s : Interpreter W} {s' : Interpreter W'} (es : List Expr),
    s.flags = s'.flags →
    answers s.world (s.argumentCalls es) = answers s'.world (s.argumentCalls es) →
      SameRun (s.evalArgs es) (s'.evalArgs es) (s.argumentCalls es) (s'.argumentCalls es)
  | s, s', [], hflags, _ => ⟨rfl, hflags, rfl⟩
  | s, s', e :: es, hflags, h => by
    rw [argumentCalls] at h
    obtain ⟨hfirst, hmore⟩ := WorldCall.answers_append_inj h
    have he := evalExpr_of_answers e hflags hfirst
    rw [← world_evalExpr, he.calls, ← world_evalExpr] at hmore
    have hes := evalArgs_of_answers es he.flags hmore
    rw [evalArgs, evalArgs, argumentCalls, argumentCalls]
    exact ⟨by simp only [he.value, hes.value], hes.flags, by rw [he.calls, hes.calls]⟩

end

theorem execFrom_of_answers (v : Value) {s : Interpreter W} {s' : Interpreter W'}
    (script : Script) (hflags : s.flags = s'.flags)
    (h : answers s.world (s.execCalls script) = answers s'.world (s.execCalls script)) :
    SameRun (s.execFrom v script) (s'.execFrom v script) (s.execCalls script)
      (s'.execCalls script) := by
  induction script generalizing v s s' with
  | nil => exact ⟨rfl, hflags, rfl⟩
  | cons e es ih =>
    rw [execCalls] at h
    obtain ⟨hfirst, hmore⟩ := WorldCall.answers_append_inj h
    have he := evalExpr_of_answers e hflags hfirst
    rw [← world_evalExpr, he.calls, ← world_evalExpr] at hmore
    -- both runs go on with the last value that they agree on
    let s₁ : Interpreter W := { (s.evalExpr e).2 with last := (s.evalExpr e).1 }
    let s₁' : Interpreter W' := { (s'.evalExpr e).2 with last := (s'.evalExpr e).1 }
    have hes : SameRun (s₁.execFrom (s.evalExpr e).1 es) (s₁'.execFrom (s.evalExpr e).1 es)
        (s₁.execCalls es) (s₁'.execCalls es) := ih _ he.flags hmore
    rw [execFrom, execFrom, execCalls, execCalls]
    refine ⟨?_, ?_, by rw [he.calls, hes.calls]⟩
    · rw [hes.value, he.value]
    · rw [hes.flags, he.value]

/-- Whatever a script learns about the world it learns from the answers to its calls. -/
theorem exec_of_answers {s : Interpreter W} {s' : Interpreter W'} (script : Script)
    (hflags : s.flags = s'.flags)
    (h : answers s.world (s.execCalls script) = answers s'.world (s.execCalls script)) :
    SameRun (s.exec script) (s'.exec script) (s.execCalls script) (s'.execCalls script) :=
  execFrom_of_answers .zero script hflags h

end Interpreter

end FlagScript
