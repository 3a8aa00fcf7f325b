import FlagScript.Command
import FlagScript.Command.Failure
import FlagScript.Expr.Outline
import FlagScript.Script.Translate
import FlagScript.Template.Expand
import FlagScript.Template.Outline

/-!
# Carrying out commands

A command reads its source first, then the flags. It shows nothing unless it succeeds.
-/

namespace FlagScript

namespace Command

/-- What a command can read. -/
structure Surroundings where
  /-- Standard input, which the source `-` stands for. -/
  input : ByteArray
  /-- The file at a path. -/
  file : String → Except ReadFailure ByteArray
  /-- The file with the flags to start from, unless the command names one. -/
  flagFile : Option String := none

/-- What a command leaves: its output, its complaints, and whether it succeeded. -/
structure Answer where
  output : String := ""
  complaint : String := ""
  code : UInt32 := 0
  deriving DecidableEq

/-- The source name that stands for standard input. -/
def inputName : String := "-"

/-- The text that bytes encode. -/
def decode (bytes : ByteArray) : Except ReadFailure String :=
  match String.fromUTF8? bytes with
  | some text => .ok text
  | none => .error .notText

/-- A source's name for messages, and its text. -/
def readSource (w : Surroundings) (source : String) : Except Failure (String × String) :=
  if source = inputName then
    ((decode w.input).map ("<stdin>", ·)).mapError .input
  else (((w.file source).bind decode).map (source, ·)).mapError (.source source)

/-- The flags of a file. -/
def readFlags (w : Surroundings) (path : String) : Except Failure Flags := do
  let text ← ((w.file path).bind decode).mapError (.flagFile path)
  (FlagFile.parse text).mapError (.flags path)

/-- The flags to start from: of the file that the command names, or of the one that the surroundings
name, if that is not empty. -/
def startFlags (w : Surroundings) (options : RunOptions) : Except Failure Flags :=
  match options.flagFile.or (w.flagFile.filter (!·.isEmpty)) with
  | some path => readFlags w path
  | none => .ok ∅

/-- Sets a flag as a setting `NAME=VALUE` says. -/
def applySetting (s : Interpreter MemoryWorld) (setting : String) :
    Except Failure (Interpreter MemoryWorld) :=
  let cs := setting.toList
  let name := cs.takeWhile (· != '=')
  match cs.dropWhile (· != '=') with
  | [] => .error (.setting setting)
  | _ :: value =>
    (s.addFlag (String.ofList (Text.trim name)) (String.ofList (Text.trim value))).mapError .script

/-- An interpreter with the flags that the options ask for, for a source of the given name. -/
def interpreter (w : Surroundings) (options : RunOptions) (name : String) :
    Except Failure (Interpreter MemoryWorld) := do
  let flags ← startFlags w options
  let s ← options.settings.foldlM applySetting (.withFlags {} flags.toList)
  return { s with file := some name }

/-- A value and its kind. -/
def describe (v : Value) : String :=
  match v with
  | .int _ => v.toText ++ " (int)"
  | .float _ => v.toText ++ " (float)"
  | .text _ => v.quoted ++ " (text)"
  | .bool _ => v.toText ++ " (bool)"

def line (text : String) : String := text ++ "\n"

/-- The flags, if the options ask for them. -/
def dump (options : RunOptions) (s : Interpreter MemoryWorld) : String :=
  if options.dumpFlags then FlagFile.render s.flags else ""

/-- The tree of a script or a template. -/
def outline (isTemplate : Bool) (source : String) : Except Error Outline :=
  if isTemplate then (Template.parse source).map Template.outline
  else (Script.parse source).map Script.outline

/-- What a command shows. -/
def output (w : Surroundings) : Command → Except Failure String
  | eval source options => do
    let (name, text) ← readSource w source
    let s ← interpreter w options name
    let (v, s) ← (s.eval text).mapError .script
    return String.join (s.world.shown.toList.map line) ++ line ("=> " ++ describe v) ++
      dump options s
  | expand source options => do
    let (name, text) ← readSource w source
    let s ← interpreter w options name
    let (result, s) := s.expand text
    return line (← result.mapError .script) ++ dump options s
  | check source isTemplate showsTree => do
    let (name, text) ← readSource w source
    let tree ← (outline isTemplate text).mapError (.checking isTemplate name)
    return (if showsTree then line tree.toText else "") ++ line ("ok " ++ name)
  | translate source => do
    let (_, text) ← readSource w source
    return line (← (Script.translate text).mapError .script)

/-- Carries out a command. -/
def run (w : Surroundings) (c : Command) : Answer :=
  match output w c with
  | .ok output => { output }
  | .error f => { complaint := line ("error: " ++ f.message), code := 1 }

/-- The source that a command is for. -/
def source : Command → String
  | eval source _ => source
  | expand source _ => source
  | check source _ _ => source
  | translate source => source

/-- The files that a command may read, where `flagFile` is the one that the surroundings name. -/
def files (flagFile : Option String) (c : Command) : List String :=
  c.source ::
    match c with
    | eval _ options => (options.flagFile.or flagFile).toList
    | expand _ options => (options.flagFile.or flagFile).toList
    | _ => []

end Command

end FlagScript
