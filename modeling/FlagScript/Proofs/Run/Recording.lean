import FlagScript.Proofs.Run.WorldCall

/-!
# Recorded runs

`Recorded W` is a game that does what a game of `W` does and writes down every call that is made of
it, also those that only ask. A script runs in it as it does without the recording, and what is
written down in the end are the listed calls (`exec_recording`). So the lists say what the evaluator
does, call by call, and none of the calls can be left out, moved or made twice.
-/

namespace FlagScript

variable {W : Type} [Game W]

/-- A game and the calls that were made of it, first to last. -/
structure Recorded (W : Type) where
  game : W
  calls : List WorldCall

/-- Makes a call of the game, and writes it down. -/
def Recorded.make (r : Recorded W) (c : WorldCall) : Bool × Recorded W :=
  ((c.run r.game).1, { game := (c.run r.game).2, calls := r.calls ++ [c] })

instance : Game (Recorded W) where
  inInventory r label := r.make (.inInventory label)
  move r label place := r.make (.move label place)
  output r text := r.make (.output text)

namespace Interpreter

omit [Game W] in
/-- The same interpreter in a game that records, behind calls that were recorded before. -/
def recording (s : Interpreter W) (calls : List WorldCall) : Interpreter (Recorded W) where
  world := { game := s.world, calls }
  flags := s.flags
  initial := s.initial
  last := s.last
  file := s.file

/-- What an evaluation comes to with the recording: its answer is the same, and its calls are
written down behind those before. -/
def recorded {α : Type} (x : α × Interpreter W) (calls : List WorldCall) :
    α × Interpreter (Recorded W) :=
  (x.1, x.2.recording calls)

theorem runBuiltin_recording (s : Interpreter W) (b : Builtin) (args : List Value)
    (calls : List WorldCall) :
    (s.recording calls).runBuiltin b args =
      recorded (s.runBuiltin b args) (calls ++ builtinCalls b args) := by
  cases b
  -- only these three make a call
  case inInven | move | output => rfl
  all_goals
    show _ = recorded _ (calls ++ [])
    rw [List.append_nil]
    rfl

theorem runCall_recording (s : Interpreter W) (name : String) (args : List Value)
    (calls : List WorldCall) :
    (s.recording calls).runCall name args =
      recorded (s.runCall name args) (calls ++ callCalls name args) := by
  unfold runCall callCalls
  cases Builtin.find? name with
  | some b => exact s.runBuiltin_recording b args calls
  | none =>
    show _ = recorded _ (calls ++ [])
    rw [List.append_nil]
    rfl

mutual

theorem evalExpr_recording : ∀ (s : Interpreter W) (e : Expr) (calls : List WorldCall),
    (s.recording calls).evalExpr e = recorded (s.evalExpr e) (calls ++ s.worldCalls e)
  | s, .literal v quoted, calls => by
    rw [worldCalls, List.append_nil]
    rfl
  | s, .flag name, calls => by
    rw [worldCalls, List.append_nil]
    rfl
  | s, .group inner, calls => by
    rw [evalExpr, evalExpr, worldCalls]
    exact evalExpr_recording s inner calls
  | s, .binary op left right, calls => by
    have hleft := evalExpr_recording s left calls
    -- the right operand is evaluated behind the calls of the left one
    have hright := evalExpr_recording (s.evalExpr left).2 right (calls ++ s.worldCalls left)
    rw [evalExpr, evalExpr, worldCalls, ← List.append_assoc]
    simp only [hleft, recorded, hright]
  | s, .unary op operand, calls => by
    have hoperand := evalExpr_recording s operand calls
    rw [evalExpr, evalExpr, worldCalls]
    simp only [hoperand, recorded]
  | s, .step name op, calls => by
    rw [worldCalls, List.append_nil]
    rfl
  | s, .assign name op value, calls => by
    have hvalue := evalExpr_recording s value calls
    rw [evalExpr, evalExpr, worldCalls]
    simp only [hvalue, recorded]
    rfl
  | s, .call name args, calls => by
    have hargs := evalArgs_recording s args calls
    -- the call itself comes last
    have hcall := runCall_recording (s.evalArgs args).2 name (s.evalArgs args).1
      (calls ++ s.argumentCalls args)
    rw [evalExpr, evalExpr, worldCalls, ← List.append_assoc]
    simp only [hargs, recorded, hcall]

theorem evalArgs_recording : ∀ (s : Interpreter W) (es : List Expr) (calls : List WorldCall),
    (s.recording calls).evalArgs es = recorded (s.evalArgs es) (calls ++ s.argumentCalls es)
  | s, [], calls => by
    rw [argumentCalls, List.append_nil]
    rfl
  | s, e :: es, calls => by
    have he := evalExpr_recording s e calls
    have hes := evalArgs_recording (s.evalExpr e).2 es (calls ++ s.worldCalls e)
    rw [evalArgs, evalArgs, argumentCalls, ← List.append_assoc]
    simp only [he, recorded, hes]

end

theorem execFrom_recording (v : Value) (s : Interpreter W) (script : Script)
    (calls : List WorldCall) :
    (s.recording calls).execFrom v script =
      recorded (s.execFrom v script) (calls ++ s.execCalls script) := by
  induction script generalizing v s calls with
  | nil =>
    rw [execCalls, List.append_nil]
    rfl
  | cons e es ih =>
    have he := evalExpr_recording s e calls
    rw [execFrom, execFrom, execCalls, ← List.append_assoc]
    simp only [he, recorded]
    -- both go on with the last value that the statement had
    exact ih _ { (s.evalExpr e).2 with last := (s.evalExpr e).1 } _

/-- A script runs in a recording as it does without one, and its calls are what is recorded. -/
theorem exec_recording (s : Interpreter W) (script : Script) (calls : List WorldCall) :
    (s.recording calls).exec script =
      recorded (s.exec script) (calls ++ s.execCalls script) :=
  execFrom_recording .zero s script calls

end Interpreter

end FlagScript
