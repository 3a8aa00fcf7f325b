import FlagScript.Expr.Calls
import FlagScript.Proofs.Run.WorldCall
import FlagScript.Proofs.Source.Printable

/-!
# Operators and the functions that they call

Written with calls in place of its operators and assignments a script runs as before: it answers the
same, leaves the same state and makes the same calls of the world. A call names its flag in any
letter case, and steps have no amount, so this is about expressions whose flags are named in upper
case and whose assignments have a value where they take one (`Expr.Regular`); every expression that
is read is one.
-/

namespace FlagScript

/-! ## Regular expressions -/

namespace Expr

mutual

/-- Flags are named in upper case, and exactly the assignments that take a value have one. -/
def Regular : Expr → Prop
  | literal _ _ => True
  | flag name => Text.upper name = name
  | assign name op value => Text.upper name = name ∧ op.takesValue = true ∧ Regular value
  | step name op => Text.upper name = name ∧ op.takesValue = false
  | call _ args => AllRegular args
  | group inner => Regular inner
  | binary _ left right => Regular left ∧ Regular right
  | unary _ operand => Regular operand

def AllRegular : List Expr → Prop
  | [] => True
  | e :: es => Regular e ∧ AllRegular es

end

mutual

theorem regular_of_fits : ∀ (e : Expr), e.Fits →
    (∀ name, .name name ∈ e.words → Text.upper name = name) → e.Regular
  | .literal _ _, _, _ => trivial
  | .flag name, _, h => h name (by simp [words])
  | .assign name op value, hf, h =>
    ⟨h name (by simp [words]), hf.1,
      regular_of_fits value hf.2 fun n hn => h n (by simp [words, hn])⟩
  | .step name op, hf, h => ⟨h name (by simp [words]), hf⟩
  | .call name args, hf, h =>
    allRegular_of_fit args hf fun n hn => h n (by simp [words, hn])
  | .group inner, hf, h => regular_of_fits inner hf fun n hn => h n (by simp [words, hn])
  | .binary op left right, hf, h =>
    ⟨regular_of_fits left hf.2.2.1 fun n hn => h n (by simp [words, hn]),
      regular_of_fits right hf.2.2.2 fun n hn => h n (by simp [words, hn])⟩
  | .unary op operand, hf, h => regular_of_fits operand hf.2 fun n hn => h n (by simp [words, hn])

theorem allRegular_of_fit : ∀ (es : List Expr), AllFit es →
    (∀ name, .name name ∈ argumentWords es → Text.upper name = name) → AllRegular es
  | [], _, _ => trivial
  | [e], hf, h => ⟨regular_of_fits e hf.1 h, trivial⟩
  | e :: e' :: es, hf, h =>
    ⟨regular_of_fits e hf.1 fun n hn => h n (by simp [argumentWords, hn]),
      allRegular_of_fit (e' :: es) hf.2 fun n hn => h n (by simp [argumentWords, hn])⟩

end

end Expr

/-- What is read is regular. -/
theorem Script.regular_of_parse {source : String} {script : Script}
    (h : parse source = .ok script) : ∀ e ∈ script, e.Regular := by
  obtain ⟨ts, ps, _, _, hps, hes⟩ := parse_eq_ok_iff.1 h
  have hfits := Expr.allFit_iff.1 (Phrase.statements_spells hps hes).2
  intro e he
  refine e.regular_of_fits (hfits e he) fun name hname => ?_
  have hword : .name name ∈ script.words := List.mem_flatMap.2 ⟨e, he, hname⟩
  cases printable_of_parse h hword trivial with
  | name hn => exact hn.upper

/-! ## Operators as functions -/

namespace Interpreter

variable {W : Type} [World W]

/-- Every function is found by its name. -/
theorem find?_name (b : Builtin) : Builtin.find? b.name = some b := by
  cases b <;> decide +kernel

theorem evalArgs_cons (s : Interpreter W) (e : Expr) (es : List Expr) :
    s.evalArgs (e :: es) =
      ((s.evalExpr e).1 :: ((s.evalExpr e).2.evalArgs es).1, ((s.evalExpr e).2.evalArgs es).2) := by
  rw [evalArgs]

theorem evalArgs_nil (s : Interpreter W) : s.evalArgs [] = ([], s) := by rw [evalArgs]

theorem evalExpr_callOf (s : Interpreter W) (b : Builtin) (args : List Expr) :
    s.evalExpr (.callOf b args) = (s.evalArgs args).2.runBuiltin b (s.evalArgs args).1 := by
  rw [Expr.callOf, evalExpr]
  simp only [runCall, find?_name]

theorem worldCalls_callOf (s : Interpreter W) (b : Builtin) (args : List Expr) :
    s.worldCalls (.callOf b args) =
      s.argumentCalls args ++ builtinCalls b (s.evalArgs args).1 := by
  rw [Expr.callOf, worldCalls]
  simp only [callCalls, find?_name]

/-- Operators are the functions that they call, and none of those reaches the world. -/
theorem builtinCalls_unary (op : UnaryOp) (args : List Value) :
    builtinCalls op.call args = [] := by cases op <;> rfl

theorem builtinCalls_binary (op : BinaryOp) (args : List Value) :
    builtinCalls op.call.1 args = [] := by cases op <;> rfl

theorem builtinCalls_assign (op : AssignOp) (args : List Value) :
    builtinCalls op.call args = [] := by cases op <;> rfl

theorem runBuiltin_unary (s : Interpreter W) (op : UnaryOp) (a : Value) :
    s.runBuiltin op.call [a] = (op.apply a, s) := by cases op <;> rfl

/-- Comparisons that have no function of their own negate the answer of the opposite one. -/
theorem runBuiltin_binary (s : Interpreter W) (op : BinaryOp) (a b : Value) :
    s.runBuiltin op.call.1 [a, b] = ((s.runBuiltin op.call.1 [a, b]).1, s) ∧
      (if op.call.2 then (s.runBuiltin op.call.1 [a, b]).1.not
       else (s.runBuiltin op.call.1 [a, b]).1) = op.apply a b := by
  cases op <;>
    simp [BinaryOp.call, runBuiltin, BinaryOp.apply, Value.not, Value.truth, Value.greater,
      Value.greaterOrEquals]

/-- A function that assigns reads the flag behind its arguments, as an assignment does. -/
theorem runBuiltin_assign (s : Interpreter W) {op : AssignOp} (hop : op.takesValue = true)
    {name : String} (hname : Text.upper name = name) (v : Value) :
    s.runBuiltin op.call [.text name, v] = s.assign name op (some v) := by
  have hlabel : labelOf (.text name) = name := hname
  cases op
  -- steps are written without a value
  case increment | decrement => cases hop
  all_goals simp [AssignOp.call, runBuiltin, store, hlabel, assign, assigned]

theorem runBuiltin_step (s : Interpreter W) {op : AssignOp} (hop : op.takesValue = false)
    {name : String} (hname : Text.upper name = name) :
    s.runBuiltin op.call [.text name] = s.assign name op none := by
  have hlabel : labelOf (.text name) = name := hname
  cases op
  case set | incrementBy | decrementBy => cases hop
  all_goals simp [AssignOp.call, runBuiltin, store, hlabel, assign, assigned]

/-! ## Running with calls for operators -/

mutual

theorem evalExpr_toCalls : ∀ (s : Interpreter W) (e : Expr), e.Regular →
    s.evalExpr e.toCalls = s.evalExpr e
  | _, .literal _ _, _ => rfl
  | _, .flag _, _ => rfl
  | s, .group inner, h => by
    rw [Expr.toCalls, evalExpr, evalExpr, evalExpr_toCalls s inner h]
  | s, .call name args, h => by
    rw [Expr.toCalls, evalExpr, evalExpr, evalArgs_allToCalls s args h]
  | s, .unary op operand, h => by
    rw [Expr.toCalls, evalExpr_callOf, evalArgs_cons, evalArgs_nil, evalExpr_toCalls s operand h,
      runBuiltin_unary, evalExpr]
  | s, .binary op left right, h => by
    have hargs : s.evalArgs [left.toCalls, right.toCalls] =
        ([(s.evalExpr left).1, ((s.evalExpr left).2.evalExpr right).1],
          ((s.evalExpr left).2.evalExpr right).2) := by
      rw [evalArgs_cons, evalArgs_cons, evalArgs_nil, evalExpr_toCalls s left h.1,
        evalExpr_toCalls _ right h.2]
    obtain ⟨hstate, hvalue⟩ := runBuiltin_binary ((s.evalExpr left).2.evalExpr right).2 op
      (s.evalExpr left).1 ((s.evalExpr left).2.evalExpr right).1
    rw [Expr.toCalls, evalExpr]
    simp only
    -- the function answers, or `NOT` of the function
    split at hvalue
    next hneg =>
      rw [if_pos hneg, evalExpr_callOf, evalArgs_cons, evalArgs_nil, evalExpr_callOf, hargs,
        hstate, ← hvalue]
      rfl
    next hneg => rw [if_neg hneg, evalExpr_callOf, hargs, hstate, ← hvalue]
  | s, .step name op, h => by
    rw [Expr.toCalls, evalExpr_callOf, evalArgs_cons, evalArgs_nil, evalExpr, evalExpr]
    exact runBuiltin_step s h.2 h.1
  | s, .assign name op value, h => by
    rw [Expr.toCalls, evalExpr_callOf, evalArgs_cons, evalArgs_cons, evalArgs_nil, evalExpr,
      evalExpr_toCalls s value h.2.2, evalExpr]
    exact runBuiltin_assign _ h.2.1 h.1 _

theorem evalArgs_allToCalls : ∀ (s : Interpreter W) (es : List Expr), Expr.AllRegular es →
    s.evalArgs (Expr.allToCalls es) = s.evalArgs es
  | _, [], _ => rfl
  | s, e :: es, h => by
    rw [Expr.allToCalls, evalArgs_cons, evalArgs_cons, evalExpr_toCalls s e h.1,
      evalArgs_allToCalls _ es h.2]

end

/-! ## The calls of the world -/

mutual

theorem worldCalls_toCalls : ∀ (s : Interpreter W) (e : Expr), e.Regular →
    s.worldCalls e.toCalls = s.worldCalls e
  | _, .literal _ _, _ => rfl
  | _, .flag _, _ => rfl
  | s, .group inner, h => by
    rw [Expr.toCalls, worldCalls, worldCalls, worldCalls_toCalls s inner h]
  | s, .call name args, h => by
    rw [Expr.toCalls, worldCalls, worldCalls, argumentCalls_allToCalls s args h,
      evalArgs_allToCalls s args h]
  | s, .unary op operand, h => by
    rw [Expr.toCalls, worldCalls_callOf, builtinCalls_unary, argumentCalls, argumentCalls,
      worldCalls_toCalls s operand h, worldCalls]
    simp
  | s, .binary op left right, h => by
    have hinner : s.worldCalls (.callOf op.call.1 [left.toCalls, right.toCalls]) =
        s.worldCalls (.binary op left right) := by
      rw [worldCalls_callOf, builtinCalls_binary, argumentCalls, argumentCalls, argumentCalls,
        worldCalls_toCalls s left h.1, evalExpr_toCalls s left h.1,
        worldCalls_toCalls _ right h.2, worldCalls]
      simp
    rw [Expr.toCalls]
    -- a negated answer makes no call of its own
    split
    · rw [worldCalls_callOf, argumentCalls, argumentCalls, hinner]
      simp [builtinCalls]
    · exact hinner
  | s, .step name op, h => by
    rw [Expr.toCalls, worldCalls_callOf, builtinCalls_assign]
    rfl
  | s, .assign name op value, h => by
    rw [Expr.toCalls, worldCalls_callOf, builtinCalls_assign, argumentCalls, argumentCalls,
      argumentCalls, worldCalls, evalExpr, worldCalls_toCalls s value h.2.2, worldCalls]
    simp

theorem argumentCalls_allToCalls : ∀ (s : Interpreter W) (es : List Expr), Expr.AllRegular es →
    s.argumentCalls (Expr.allToCalls es) = s.argumentCalls es
  | _, [], _ => rfl
  | s, e :: es, h => by
    rw [Expr.allToCalls, argumentCalls, argumentCalls, worldCalls_toCalls s e h.1,
      evalExpr_toCalls s e h.1, argumentCalls_allToCalls _ es h.2]

end

/-! ## Scripts -/

theorem execFrom_toCalls (v : Value) (s : Interpreter W) {script : Script}
    (h : ∀ e ∈ script, e.Regular) :
    s.execFrom v (script.map Expr.toCalls) = s.execFrom v script := by
  induction script generalizing v s with
  | nil => rfl
  | cons e es ih =>
    rw [List.map_cons, execFrom, execFrom, evalExpr_toCalls s e (h e (by simp))]
    exact ih _ _ fun x hx => h x (by simp [hx])

theorem execCalls_toCalls (s : Interpreter W) {script : Script} (h : ∀ e ∈ script, e.Regular) :
    s.execCalls (script.map Expr.toCalls) = s.execCalls script := by
  induction script generalizing s with
  | nil => rfl
  | cons e es ih =>
    rw [List.map_cons, execCalls, execCalls, worldCalls_toCalls s e (h e (by simp)),
      evalExpr_toCalls s e (h e (by simp)), ih _ fun x hx => h x (by simp [hx])]

end Interpreter

/-- Every script that is read is regular, and a regular script runs with calls in place of its
operators as it runs itself: with the same value, in the same state behind it and with the same
calls of the world. -/
theorem Script.exec_toCalls :
    (∀ (source : String) (script : Script), parse source = .ok script →
      ∀ e ∈ script, e.Regular) ∧
    ∀ (W : Type) [World W] (s : Interpreter W) (script : Script), (∀ e ∈ script, e.Regular) →
      s.exec (script.map Expr.toCalls) = s.exec script ∧
        s.execCalls (script.map Expr.toCalls) = s.execCalls script :=
  ⟨fun _ _ h => regular_of_parse h, fun _ _ s _ h =>
    ⟨s.execFrom_toCalls .zero h, s.execCalls_toCalls h⟩⟩

/-- A sum of a step and a call on the right of a comparison, in a world that refuses. -/
theorem Script.exec_toCalls_of_refusal :
    ∃ script, parse "$n = 2 $n += 1 >= $n++ + $MOVE(key, hall)" = .ok script ∧
      let s : Interpreter ModeratedWorld := { world := { refuses := true } }
      s.exec (script.map Expr.toCalls) = s.exec script ∧
        s.execCalls (script.map Expr.toCalls) = s.execCalls script ∧
        s.execCalls script = [.move "KEY" "HALL"] := by
  have hparse : parse "$n = 2 $n += 1 >= $n++ + $MOVE(key, hall)" = .ok
      [.assign "N" .set (.literal (.int 2) false),
        .assign "N" .incrementBy (.binary .greaterOrEqual (.literal (.int 1) false)
          (.binary .add (.step "N" .increment) (.call "MOVE" [.literal (.text "key") false,
            .literal (.text "hall") false])))] := by decide +kernel
  refine ⟨_, hparse, ?_⟩
  obtain ⟨hexec, hcalls⟩ := exec_toCalls.2 ModeratedWorld { world := { refuses := true } } _
    (exec_toCalls.1 _ _ hparse)
  exact ⟨hexec, hcalls, by decide +kernel⟩

end FlagScript
