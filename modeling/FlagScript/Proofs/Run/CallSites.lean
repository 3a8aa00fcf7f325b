import FlagScript.Proofs.Run.Recording
import Mathlib.Data.List.Basic

/-!
# Where a script calls the world

Three functions reach the world. `Expr.worldSites` lists their calls in an expression by its tree
alone: left before right, and arguments before the call that takes them. Evaluation makes one call
of the world at each of these places, in this order, whatever the flags and the answers of the world
are (`sites_moments`): no operand is skipped, and none is evaluated twice. A `Moment` is a place
together with the state in which evaluation comes to it, so what the world is told are the values
that the arguments have there (`worldCalls_eq_map_call`), and what the call is worth there is the
answer of the world (`Moment.isAnswered`). That the calls are made, and no others, is what a game
sees that writes them down (`exec_recording`).
-/

namespace FlagScript

/-! ## Places -/

/-- A function that asks the world, or makes it do something. -/
inductive WorldFunction where
  | inInventory
  | move
  | output
  deriving DecidableEq

namespace WorldFunction

def ofBuiltin? : Builtin → Option WorldFunction
  | .inInven => some inInventory
  | .move => some move
  | .output => some output
  | _ => none

/-- The function that a call of this name resolves to, if it reaches the world. -/
def ofName? (name : String) : Option WorldFunction := (Builtin.find? name).bind ofBuiltin?

/-- What the function tells the world: labels are the texts of its arguments in upper case, and what
is shown is a text as it is. -/
def call (f : WorldFunction) (args : List Value) : WorldCall :=
  let first := args.getD 0 .zero
  let second := args.getD 1 .zero
  match f with
  | inInventory => .inInventory (Text.upper first.toText)
  | move => .move (Text.upper first.toText) (Text.upper second.toText)
  | output => .output first.toText

end WorldFunction

/-- The function that makes a call. -/
def WorldCall.function : WorldCall → WorldFunction
  | inInventory _ => .inInventory
  | move _ _ => .move
  | output _ => .output

theorem WorldFunction.function_call (f : WorldFunction) (args : List Value) :
    (f.call args).function = f := by
  cases f <;> rfl

/-- A call in a script of a function that reaches the world. -/
structure WorldSite where
  function : WorldFunction
  args : List Expr

namespace Expr

/-- The place of a call itself, without those in its arguments. -/
def callSite (name : String) (args : List Expr) : List WorldSite :=
  ((WorldFunction.ofName? name).map (⟨·, args⟩)).toList

mutual

/-- All such calls in an expression, in the order in which they are made. -/
def worldSites : Expr → List WorldSite
  | literal _ _ | flag _ | step _ _ => []
  | assign _ _ value => worldSites value
  | group inner => worldSites inner
  | binary _ left right => worldSites left ++ worldSites right
  | unary _ operand => worldSites operand
  | call name args => worldSitesOf args ++ callSite name args

/-- Those in a list of expressions, first to last. -/
def worldSitesOf : List Expr → List WorldSite
  | [] => []
  | e :: es => worldSites e ++ worldSitesOf es

end

end Expr

/-- The calls in statements, first to last. -/
def Script.worldSites (script : Script) : List WorldSite := script.flatMap Expr.worldSites

/-! ## Moments -/

/-- A place that evaluation comes to, and the state in which the arguments there are evaluated. -/
structure Moment (W : Type) where
  site : WorldSite
  state : Interpreter W

variable {W : Type} [Game W]

/-- What the world is told at a place: the function with the values of its arguments. -/
def Moment.call (m : Moment W) : WorldCall :=
  m.site.function.call (m.state.evalArgs m.site.args).1

/-- The world answers the call: whatever name the function is called by, the call is worth what the
world answers behind the arguments, and what it leaves behind is the world that the answer comes
with. -/
def Moment.IsAnswered (m : Moment W) : Prop :=
  ∀ name, WorldFunction.ofName? name = some m.site.function →
    let s := (m.state.evalArgs m.site.args).2
    m.state.evalExpr (.call name m.site.args) =
      (.bool (m.call.run s.world).1, { s with world := (m.call.run s.world).2 })

/-- A function that reaches the world answers what the world does. -/
theorem Interpreter.runBuiltin_of_ofBuiltin? {b : Builtin} {f : WorldFunction}
    (h : WorldFunction.ofBuiltin? b = some f) (s : Interpreter W) (args : List Value) :
    s.runBuiltin b args =
      (.bool ((f.call args).run s.world).1, { s with world := ((f.call args).run s.world).2 }) := by
  cases b <;> cases h <;> rfl

theorem Moment.isAnswered (m : Moment W) : m.IsAnswered := by
  intro name hname
  obtain ⟨b, hb, hf⟩ := Option.bind_eq_some_iff.1 hname
  show (m.state.evalArgs m.site.args).2.runCall name (m.state.evalArgs m.site.args).1 = _
  rw [Interpreter.runCall, hb]
  exact Interpreter.runBuiltin_of_ofBuiltin? hf _ _

namespace Interpreter

mutual

/-- The places that the evaluation of an expression comes to, first to last. -/
def moments (s : Interpreter W) : Expr → List (Moment W)
  | .literal _ _ | .flag _ | .step _ _ => []
  | .assign _ _ value => moments s value
  | .group inner => moments s inner
  | .binary _ left right => moments s left ++ moments (s.evalExpr left).2 right
  | .unary _ operand => moments s operand
  | .call name args => argumentMoments s args ++ (Expr.callSite name args).map (⟨·, s⟩)

def argumentMoments (s : Interpreter W) : List Expr → List (Moment W)
  | [] => []
  | e :: es => moments s e ++ argumentMoments (s.evalExpr e).2 es

end

/-- The places that statements come to, first to last. -/
def execMoments (s : Interpreter W) : Script → List (Moment W)
  | [] => []
  | e :: es =>
    s.moments e ++ execMoments { (s.evalExpr e).2 with last := (s.evalExpr e).1 } es

mutual

/-- Evaluation comes to every place once, in the order that the tree gives. -/
theorem sites_moments : ∀ (s : Interpreter W) (e : Expr),
    (s.moments e).map Moment.site = e.worldSites
  | _, .literal _ _ | _, .flag _ | _, .step _ _ => rfl
  | s, .assign _ _ value => sites_moments s value
  | s, .group inner => sites_moments s inner
  | s, .unary _ operand => sites_moments s operand
  | s, .binary _ left right => by
    rw [moments, List.map_append, sites_moments s left, sites_moments _ right, Expr.worldSites]
  | s, .call name args => by
    rw [moments, List.map_append, sites_argumentMoments s args, List.map_map, Expr.worldSites]
    exact congrArg (_ ++ ·) (List.map_id _)

theorem sites_argumentMoments : ∀ (s : Interpreter W) (es : List Expr),
    (s.argumentMoments es).map Moment.site = Expr.worldSitesOf es
  | _, [] => rfl
  | s, e :: es => by
    rw [argumentMoments, List.map_append, sites_moments s e, sites_argumentMoments _ es,
      Expr.worldSitesOf]

end

theorem sites_execMoments (s : Interpreter W) (script : Script) :
    (s.execMoments script).map Moment.site = script.worldSites := by
  induction script generalizing s with
  | nil => rfl
  | cons e es ih =>
    rw [execMoments, List.map_append, sites_moments, ih, Script.worldSites, Script.worldSites,
      List.flatMap_cons]

/-! ## Calls -/

/-- A function that does not reach the world makes no call, and the others make one. -/
theorem builtinCalls_eq (b : Builtin) (args : List Value) :
    builtinCalls b args = ((WorldFunction.ofBuiltin? b).map (·.call args)).toList := by
  cases b <;> rfl

theorem callCalls_eq (s : Interpreter W) (name : String) (args : List Expr) :
    callCalls name (s.evalArgs args).1 =
      ((Expr.callSite name args).map fun site => (⟨site, s⟩ : Moment W)).map Moment.call := by
  unfold callCalls Expr.callSite WorldFunction.ofName?
  cases Builtin.find? name with
  | none => rfl
  | some b =>
    simp only [builtinCalls_eq, Option.bind_some]
    cases WorldFunction.ofBuiltin? b <;> rfl

mutual

/-- At each place that it comes to, evaluation makes one call of the world. -/
theorem worldCalls_eq_map_call : ∀ (s : Interpreter W) (e : Expr),
    s.worldCalls e = (s.moments e).map Moment.call
  | _, .literal _ _ | _, .flag _ | _, .step _ _ => rfl
  | s, .assign _ _ value => worldCalls_eq_map_call s value
  | s, .group inner => worldCalls_eq_map_call s inner
  | s, .unary _ operand => worldCalls_eq_map_call s operand
  | s, .binary _ left right => by
    rw [worldCalls, moments, List.map_append, worldCalls_eq_map_call s left,
      worldCalls_eq_map_call _ right]
  | s, .call name args => by
    rw [worldCalls, moments, List.map_append, argumentCalls_eq_map_call s args, callCalls_eq]

theorem argumentCalls_eq_map_call : ∀ (s : Interpreter W) (es : List Expr),
    s.argumentCalls es = (s.argumentMoments es).map Moment.call
  | _, [] => rfl
  | s, e :: es => by
    rw [argumentCalls, argumentMoments, List.map_append, worldCalls_eq_map_call s e,
      argumentCalls_eq_map_call _ es]

end

theorem execCalls_eq_map_call (s : Interpreter W) (script : Script) :
    s.execCalls script = (s.execMoments script).map Moment.call := by
  induction script generalizing s with
  | nil => rfl
  | cons e es ih => rw [execCalls, execMoments, List.map_append, worldCalls_eq_map_call, ih]

/-- The functions that are called do not depend on what the interpreter holds. -/
theorem functions_execCalls (s : Interpreter W) (script : Script) :
    (s.execCalls script).map WorldCall.function = script.worldSites.map WorldSite.function := by
  rw [execCalls_eq_map_call, ← sites_execMoments s, List.map_map, List.map_map]
  exact List.map_congr_left fun m _ => m.site.function.function_call _

/-- A script comes to each of its calls of the world once, in the order of its tree, and makes one
call there, with the values that the arguments have there, and its value is the answer. A game that
writes down what is asked of it has these calls in the end, and no others. Nothing but these calls
reaches the world, and nothing but the answers to them comes back from it. So which functions are
called, and in which order, is the same from every state in every world. -/
theorem execCalls_sites (s : Interpreter W) (script : Script) :
    (∀ before, (s.recording before).exec script =
        recorded (s.exec script) (before ++ s.execCalls script)) ∧
      (s.execMoments script).map Moment.site = script.worldSites ∧
      s.execCalls script = (s.execMoments script).map Moment.call ∧
      (∀ m ∈ s.execMoments script, m.IsAnswered) ∧
      (s.exec script).2.world = WorldCall.after s.world (s.execCalls script) ∧
      ∀ (W' : Type) [Game W'] (s' : Interpreter W'),
        (s.execCalls script).map WorldCall.function =
            (s'.execCalls script).map WorldCall.function ∧
          (s.flags = s'.flags →
            WorldCall.answers s.world (s.execCalls script) =
              WorldCall.answers s'.world (s.execCalls script) →
            SameRun (s.exec script) (s'.exec script) (s.execCalls script)
              (s'.execCalls script)) := by
  refine ⟨s.exec_recording script, sites_execMoments s script, execCalls_eq_map_call s script,
    fun m _ => m.isAnswered, world_exec s script, ?_⟩
  intro W' _ s'
  refine ⟨?_, exec_of_answers script⟩
  rw [functions_execCalls, functions_execCalls]

/-- Both sides of an operator call a world that refuses, the right one with what the left one left
behind. What another player carries does not matter as long as the key is among it. -/
theorem execCalls_sites_refusing :
    ∃ script, Script.parse
        "$n = 2 || $IN_INVEN(key) && $MOVE($n++ + 1, $OUTPUT(hall))" = .ok script ∧
      let s : Interpreter ModeratedWorld :=
        { world := { refuses := true, memory := .withInventory ["key"] } }
      let s' : Interpreter ModeratedWorld :=
        { world := { refuses := true, memory := .withInventory ["key", "lamp"] } }
      ((s.recording []).exec script).2.world.calls =
          [.inInventory "KEY", .output "hall", .move "2" "OFF"] ∧
        (s.execMoments script).map Moment.site = script.worldSites ∧
        (∀ m ∈ s.execMoments script, m.IsAnswered) ∧
        (s.exec script).2.world = WorldCall.after s.world (s.execCalls script) ∧
        SameRun (s.exec script) (s'.exec script) (s.execCalls script) (s'.execCalls script) := by
  let e : Expr := .assign "N" .set (.binary .and
    (.binary .or (.literal (.int 2) false) (.call "IN_INVEN" [.literal (.text "key") false]))
    (.call "MOVE" [.binary .add (.step "N" .increment) (.literal (.int 1) false),
      .call "OUTPUT" [.literal (.text "hall") false]]))
  have hparse : Script.parse
      "$n = 2 || $IN_INVEN(key) && $MOVE($n++ + 1, $OUTPUT(hall))" = .ok [e] := by
    decide +kernel
  refine ⟨_, hparse, ?_⟩
  have h := execCalls_sites (W := ModeratedWorld)
    { world := { refuses := true, memory := .withInventory ["key"] } } [e]
  obtain ⟨hrecorded, hsites, -, hanswered, hworld, hsame⟩ := h
  refine ⟨?_, hsites, hanswered, hworld, ?_⟩
  · rw [hrecorded]
    decide +kernel
  · have hother := hsame ModeratedWorld
      { world := { refuses := true, memory := .withInventory ["key", "lamp"] } }
    exact hother.2 rfl (by decide +kernel)

end Interpreter

end FlagScript
