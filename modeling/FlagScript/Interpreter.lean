import FlagScript.Expr
import FlagScript.Script
import FlagScript.World

/-!
# Running scripts

An interpreter holds the flags and a world. A script is walked strictly from left to right, and
every operand is evaluated, those of `&&` and `||` included, before any are combined. Running never
fails.
-/

namespace FlagScript

/-- Flags by name. -/
abbrev Flags := Std.ExtTreeMap String Value

namespace Flags

/-- The value of a flag; one that is not set reads as zero. -/
def read (flags : Flags) (name : String) : Value := flags[name]?.getD .zero

/-- Flags with their names in upper case; of two with one name the later counts. -/
def ofEntries (entries : List (String × Value)) : Flags :=
  entries.foldl (fun flags (name, v) => flags.insert (Text.upper name) v) ∅

/-- A name in upper case, if it is made of letters and digits of ASCII and underscores. -/
def checkName (name : String) : Except Error String :=
  let upper := Text.upper name
  let isAllowed (c : Char) : Bool := c.isUpper || c.isDigit || c == '_'
  if !upper.isEmpty && upper.toList.all isAllowed then .ok upper else .error (.flagName upper)

end Flags

structure Interpreter (W : Type) where
  world : W
  flags : Flags := ∅
  /-- The flags that a reset restores. -/
  initial : Flags := ∅
  /-- The value of the last statement run. -/
  last : Value := .zero
  /-- The name of the source being worked on. -/
  file : Option String := none

namespace Interpreter

variable {W : Type}

/-- Sets the flags that a reset restores; the flags stay as they are. -/
def setInitial (s : Interpreter W) (entries : List (String × Value)) : Interpreter W :=
  { s with initial := .ofEntries entries }

/-- Restores the initial flags and forgets the last value. -/
def reset (s : Interpreter W) : Interpreter W := { s with flags := s.initial, last := .zero }

/-- An interpreter that starts with the given flags and resets to them. -/
def withFlags (world : W) (entries : List (String × Value)) : Interpreter W :=
  (setInitial { world } entries).reset

/-- Names the source being worked on, or none. -/
def setFile (s : Interpreter W) (file : Option String) : Interpreter W := { s with file }

/-- Sets the flag of exactly this name. -/
def put (s : Interpreter W) (name : String) (v : Value) : Interpreter W :=
  { s with flags := s.flags.insert name v }

/-- Sets the flag whose name this is in some letter case. -/
def setFlag (s : Interpreter W) (name : String) (v : Value) : Interpreter W :=
  s.put (Text.upper name) v

/-! ### Built-in functions -/

/-- Names of flags, items and places are the texts of values, in upper case. -/
def labelOf (v : Value) : String := Text.upper v.toText

/-- Sets the flag that a value names, and answers its new value. -/
def store (s : Interpreter W) (name : Value) (v : Value) : Value × Interpreter W :=
  (v, s.put (labelOf name) v)

variable [Game W]

/-- Runs a function. Missing arguments are zero, and further ones are ignored. -/
def runBuiltin (s : Interpreter W) (b : Builtin) (args : List Value) : Value × Interpreter W :=
  let first := args.getD 0 .zero
  let second := args.getD 1 .zero
  let current := s.flags.read (labelOf first)
  match b with
  | .add => (first.add second, s)
  | .sub => (first.sub second, s)
  | .mult => (first.mul second, s)
  | .div => (first.div second, s)
  | .neg => (first.neg, s)
  | .or => (first.or second, s)
  | .and => (first.and second, s)
  | .not | .flagDisabled => (first.not, s)
  | .flagEnabled => (.bool first.truth, s)
  | .flagIs => (.bool (first.equals second), s)
  | .flagLessThan => (.bool (first.less second), s)
  | .flagGreaterThan => (.bool (first.greater second), s)
  | .enable => s.store first (.bool true)
  | .disable => s.store first (.bool false)
  | .toggle => s.store first current.not
  | .inc => s.store first (current.add (args.getD 1 (.int 1)))
  | .dec => s.store first (current.sub (args.getD 1 (.int 1)))
  | .set => s.store first second
  | .inInven =>
    let (carried, world) := Game.inInventory s.world (labelOf first)
    (.bool carried, { s with world })
  | .move =>
    let (done, world) := Game.move s.world (labelOf first) (labelOf second)
    (.bool done, { s with world })
  | .output =>
    let (done, world) := Game.output s.world first.toText
    (.bool done, { s with world })

/-- Runs the function of this name; one that does not exist answers zero. -/
def runCall (s : Interpreter W) (name : String) (args : List Value) : Value × Interpreter W :=
  match Builtin.find? name with
  | some b => s.runBuiltin b args
  | none => (.zero, s)

/-! ### Expressions -/

/-- The new value of a flag, from its current value and the assigned one, if there is one. -/
def assigned (op : AssignOp) (current : Value) (amount : Option Value) : Value :=
  match op with
  | .set => amount.getD .zero
  | .increment => current.add (.int 1)
  | .decrement => current.sub (.int 1)
  | .incrementBy => current.add (amount.getD .zero)
  | .decrementBy => current.sub (amount.getD .zero)

/-- Assigns to a flag, and answers its new value. -/
def assign (s : Interpreter W) (name : String) (op : AssignOp) (amount : Option Value) :
    Value × Interpreter W :=
  let v := assigned op (s.flags.read name) amount
  (v, s.put name v)

mutual

def evalExpr (s : Interpreter W) : Expr → Value × Interpreter W
  | .literal v _ => (v, s)
  | .flag name => (s.flags.read name, s)
  | .group inner => evalExpr s inner
  | .binary op left right =>
    let (a, s) := evalExpr s left
    let (b, s) := evalExpr s right
    (op.apply a b, s)
  | .unary op operand =>
    let (a, s) := evalExpr s operand
    (op.apply a, s)
  | .step name op => s.assign name op none
  | .assign name op value =>
    let (v, s) := evalExpr s value
    s.assign name op (some v)
  | .call name args =>
    let (vs, s) := evalArgs s args
    s.runCall name vs

/-- The values of arguments, first to last. -/
def evalArgs (s : Interpreter W) : List Expr → List Value × Interpreter W
  | [] => ([], s)
  | e :: es =>
    let (v, s) := evalExpr s e
    let (vs, s) := evalArgs s es
    (v :: vs, s)

end

/-- Runs statements first to last, where `result` is the value of the one before. -/
def execFrom (result : Value) (s : Interpreter W) : Script → Value × Interpreter W
  | [] => (result, s)
  | e :: es =>
    let (v, s) := evalExpr s e
    execFrom v { s with last := v } es

/-- Runs a script and answers the value of its last statement, zero if there is none. -/
def exec (s : Interpreter W) (script : Script) : Value × Interpreter W := execFrom .zero s script

/-! ### Sources -/

omit [Game W] in
/-- Reads a script; an error names the file. -/
def parse (s : Interpreter W) (source : String) : Except Error Script :=
  (Script.parse source).mapError (·.within s.file)

/-- Reads and runs a script. Nothing runs if it cannot be read. -/
def eval (s : Interpreter W) (source : String) : Except Error (Value × Interpreter W) :=
  (s.parse source).map s.exec

/-- Reads and runs a script given by its bytes. -/
def evalBytes (s : Interpreter W) (bytes : ByteArray) : Except Error (Value × Interpreter W) :=
  ((Script.parseBytes bytes).mapError (·.within s.file)).map s.exec

/-! ### Flags -/

omit [Game W]

/-- Sets a flag to the value that a free text stands for. -/
def addFlag (s : Interpreter W) (name text : String) : Except Error (Interpreter W) :=
  (Flags.checkName name).map fun name => s.put name (.ofLooseText text)

/-- The value of a flag whose name may be in any letter case. -/
def flag? (s : Interpreter W) (name : String) : Option Value := s.flags[Text.upper name]?

/-- The text of a flag, empty if it is not set. -/
def flagText (s : Interpreter W) (name : String) : String :=
  ((s.flag? name).map Value.toText).getD ""

end Interpreter

end FlagScript
