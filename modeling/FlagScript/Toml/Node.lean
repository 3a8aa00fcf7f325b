import FlagScript.Value

/-!
# Contents of a TOML document

A table has its entries in the order in which they first appear. How a table came to be decides who
may add to it later: each table is opened by one header at most, and a dotted key adds only to
tables that no header has opened.
-/

namespace FlagScript.Toml

/-- How a table came to be. -/
inductive Origin where
  /-- A header of its own opened it. -/
  | header
  /-- The header of a table inside it mentioned it. -/
  | implied
  /-- A dotted key mentioned it. -/
  | dotted
  deriving DecidableEq

inductive Node where
  | value (v : Value)
  /-- A date or a time. -/
  | moment
  | array (nodes : List Node)
  /-- A table written as a value. -/
  | inline (entries : List (String × Node))
  | table (origin : Origin) (entries : List (String × Node))
  /-- Tables of one name: the last of them, after those before it, latest first. -/
  | tables (earlier : List (List (String × Node))) (entries : List (String × Node))

abbrev Entries := List (String × Node)

/-- Keys that lead from a table to an entry. -/
structure Path where
  parents : List String
  key : String

namespace Entries

/-- What stands under a key. -/
def get? (key : String) (es : Entries) : Option Node := es.lookup key

/-- Changes what stands under a key, or adds it at the end; none if `change` refuses. -/
def alter? (key : String) (change : Option Node → Option Node) : Entries → Option Entries
  | [] => (change none).map fun n => [(key, n)]
  | (k, n) :: es =>
    if k = key then (change (some n)).map fun n => (k, n) :: es
    else (alter? key change es).map ((k, n) :: ·)

/-- Adds an entry under a key that is free. -/
def add? (key : String) (node : Node) : Entries → Option Entries :=
  alter? key fun
    | none => some node
    | some _ => none

/-- Adds an entry under a dotted key. The tables on the way are new or not opened by a header, and
the last of them is one that dotted keys have made. -/
def addDotted? (node : Node) (key : String) : List String → Entries → Option Entries
  | [] => add? key node
  | parent :: parents => alter? parent fun
    | none => (addDotted? node key parents []).map (.table .dotted)
    | some (.table origin es) =>
      if origin = .header || parents.isEmpty && origin = .implied then none
      else (addDotted? node key parents es).map (.table origin)
    | some (.tables earlier es) =>
      if parents.isEmpty then none else (addDotted? node key parents es).map (.tables earlier)
    | some _ => none

/-- Changes the table that a header's keys lead to: of several tables of one name the last. -/
def within? (change : Entries → Option Entries) : List String → Entries → Option Entries
  | [] => change
  | parent :: parents => alter? parent fun
    | none => (within? change parents []).map (.table .implied)
    | some (.table origin es) => (within? change parents es).map (.table origin)
    | some (.tables earlier es) => (within? change parents es).map (.tables earlier)
    | some _ => none

/-- Opens the table of a header, new or so far only implied. -/
def openTable? (path : Path) : Entries → Option Entries :=
  within? (alter? path.key fun
    | none => some (.table .header [])
    | some (.table .implied es) => some (.table .header es)
    | some _ => none) path.parents

/-- Opens one more table of a name that other tables may have but nothing else. -/
def openNext? (path : Path) : Entries → Option Entries :=
  within? (alter? path.key fun
    | none => some (.tables [] [])
    | some (.tables earlier es) => some (.tables (es :: earlier) [])
    | some _ => none) path.parents

end Entries

end FlagScript.Toml
