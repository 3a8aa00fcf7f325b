/-!
# Command lines

What a command line asks for. Options may stand on both sides of the source, a value follows its
option or an equals sign, and behind `--` nothing is an option.
-/

namespace FlagScript

/-- How scripts and templates are run. -/
structure RunOptions where
  /-- The file with the flags to start from. -/
  flagFile : Option String := none
  /-- Flags to set before running, as `NAME=VALUE`. -/
  settings : List String := []
  /-- Whether the flags are shown after running. -/
  dumpFlags : Bool := false
  deriving DecidableEq

/-- A command and the source that it is for. -/
inductive Command where
  /-- Run a script and show its value. -/
  | eval (source : String) (options : RunOptions)
  /-- Expand a template and show the text. -/
  | expand (source : String) (options : RunOptions)
  /-- Read a script or a template, and perhaps show its tree. -/
  | check (source : String) (isTemplate showsTree : Bool)
  /-- Show a script with calls in place of operators. -/
  | translate (source : String)
  deriving DecidableEq

namespace Command

/-- How often an option may be given, and whether it has a value. -/
inductive OptionKind where
  /-- Once, without a value. -/
  | switch
  /-- Once, with a value that is not empty. -/
  | single
  /-- Any number of times, with a value. -/
  | repeated
  deriving DecidableEq

/-- What was read of a command line. -/
structure Given where
  source : Option String := none
  switches : List String := []
  values : List (String × String) := []

namespace Given

/-- The source is named once, and not by an empty text. -/
def addSource? (g : Given) (source : String) : Option Given :=
  if source.isEmpty || g.source.isSome then none else some { g with source := some source }

def addSwitch? (g : Given) (name : String) : Option Given :=
  if g.switches.contains name then none else some { g with switches := name :: g.switches }

def addValue? (g : Given) (kind : OptionKind) (name value : String) : Option Given :=
  let added : Given := { g with values := g.values ++ [(name, value)] }
  match kind with
  | .switch => none
  | .single => if value.isEmpty || (g.values.lookup name).isSome then none else some added
  | .repeated => some added

/-- Whether an argument is an option; a lone hyphen is none. -/
def isOption (arg : String) : Bool :=
  match arg.toList with
  | '-' :: _ :: _ => true
  | _ => false

/-- The name of an option, and the value behind an equals sign if there is one. -/
def option? (arg : String) : Option (String × Option String) :=
  match arg.toList with
  | '-' :: '-' :: cs =>
    let name := String.ofList (cs.takeWhile (· != '='))
    match cs.dropWhile (· != '=') with
    | _ :: value => some (name, some (String.ofList value))
    | [] => some (name, none)
  | _ => none

/-- Reads arguments, where `onlySources` says that there are no more options among them. -/
def read? (kinds : List (String × OptionKind)) (g : Given) (onlySources : Bool) :
    List String → Option Given
  | [] => some g
  | arg :: args =>
    if onlySources || !isOption arg then
      (g.addSource? arg).bind fun g => read? kinds g onlySources args
    else if arg = "--" then read? kinds g true args
    else
      match option? arg with
      | none => none
      | some (name, value) =>
        match kinds.lookup name, value with
        | none, _ => none
        | some .switch, none => (g.addSwitch? name).bind fun g => read? kinds g false args
        | some kind, some v => (g.addValue? kind name v).bind fun g => read? kinds g false args
        | some kind, none =>
          match args with
          | [] => none
          | v :: args =>
            if isOption v then none
            else (g.addValue? kind name v).bind fun g => read? kinds g false args

def runOptions (g : Given) : RunOptions where
  flagFile := g.values.lookup "flags"
  settings := (g.values.filter (·.1 == "set")).map (·.2)
  dumpFlags := g.switches.contains "dump-flags"

end Given

/-- The options of the commands that run something. -/
def runKinds : List (String × OptionKind) :=
  [("flags", .single), ("set", .repeated), ("dump-flags", .switch)]

def checkKinds : List (String × OptionKind) := [("template", .switch), ("tree", .switch)]

/-- Reads the arguments of a command whose source is required. -/
def withSource? (kinds : List (String × OptionKind)) (args : List String)
    (make : String → Given → Command) : Option Command :=
  (Given.read? kinds {} false args).bind fun g => g.source.map (make · g)

/-- The command that a command line asks for, if it asks for one. -/
def ofArgs? : List String → Option Command
  | "eval" :: args => withSource? runKinds args fun source g => .eval source g.runOptions
  | "expand" :: args => withSource? runKinds args fun source g => .expand source g.runOptions
  | "check" :: args => withSource? checkKinds args fun source g =>
      .check source (g.switches.contains "template") (g.switches.contains "tree")
  | "translate" :: args => withSource? [] args fun source _ => .translate source
  | _ => none

end Command

end FlagScript
