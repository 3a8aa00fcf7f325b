import FlagScript.Interpreter
import FlagScript.Toml.Document

/-!
# Flag files

A flag file is a TOML document whose table `flags` gives flags their values. Reading takes names in
any letter case; writing sorts the flags by name.
-/

namespace FlagScript.FlagFile

/-- Flags under their names as a file has them, sorted by name. -/
abbrev Table := Std.ExtTreeMap String Value

/-- The name of the table that holds the flags. -/
def tableName : String := "flags"

/-- Why a text is no flag file. -/
inductive Failure where
  /-- The text is no document, or its flags are no table of plain values. -/
  | malformed
  | flagName (cause : Error)
  deriving DecidableEq

def Failure.message : Failure → String
  | malformed => "not a valid flag file"
  | flagName cause => cause.message

/-! ### Reading -/

/-- Adds flags one by one under their names in upper case, where a later one replaces an earlier
one; fails at the first name that is not allowed. -/
def addAll (flags : Flags) : List (String × Value) → Except Error Flags
  | [] => .ok flags
  | (name, v) :: entries =>
    match Flags.checkName name with
    | .ok name => addAll (flags.insert name v) entries
    | .error e => .error e

/-- The flags of a table, whose names are taken in order. -/
def ofTable (table : Table) : Except Error Flags := addAll ∅ table.toList

/-- A table of plain values. -/
def plainTable? (entries : Toml.Entries) : Option Table :=
  entries.foldlM (fun table (name, node) =>
    match node with
    | .value v => some (table.insert name v)
    | _ => none) ∅

/-- The flags table of a document, empty if there is none. -/
def table? (document : Toml.Entries) : Option Table :=
  match document.get? tableName with
  | none => some ∅
  | some (.table _ es) => plainTable? es
  | some (.inline es) => plainTable? es
  | some _ => none

/-- The table that a text holds. -/
def readTable? (s : String) : Option Table := (Toml.read? s).bind table?

def parse (s : String) : Except Failure Flags :=
  match readTable? s with
  | none => .error .malformed
  | some table => (ofTable table).mapError .flagName

/-! ### Writing -/

/-- A name as a key, quoted if it has characters that ask for it. -/
def writeKey (name : String) : List Char :=
  let cs := name.toList
  if !cs.isEmpty && cs.all Toml.isBareKeyChar then cs
  else (Toml.QuoteStyle.forKey cs).write cs

def writeValue : Value → List Char
  | .int i => Decimal.ofInt i.toInt
  | .float x => Toml.writeFloat x
  | .text s => (Toml.QuoteStyle.forText s.toList).write s.toList
  | .bool true => ['t', 'r', 'u', 'e']
  | .bool false => ['f', 'a', 'l', 's', 'e']

/-- A flag on a line of its own. -/
def writeLine (name : String) (v : Value) : List Char :=
  writeKey name ++ [' ', '=', ' '] ++ writeValue v ++ ['\n']

/-- The flags as a document, sorted by name. -/
def render (flags : Flags) : String :=
  String.ofList (['['] ++ tableName.toList ++ [']', '\n'] ++
    flags.toList.flatMap fun (name, v) => writeLine name v)

end FlagScript.FlagFile
