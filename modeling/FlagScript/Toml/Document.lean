import FlagScript.Toml.Moment
import FlagScript.Toml.Node
import FlagScript.Toml.Number

/-!
# Documents of TOML

A document is a list of lines: headers that open tables, and entries for the table opened last.
Values nest in arrays and in tables within a line. Reading answers the entries of the whole
document, and refuses whatever breaks the format or says a thing twice.
-/

namespace FlagScript.Toml

/-- Arrays and tables within a line nest less deep than this, and a dotted key has fewer parts. -/
def maxNesting : Nat := 80

/-- A way to read something off the start of a text. -/
abbrev Reader (α : Type) := List Char → Option (α × List Char)

/-! ### Blanks and keys -/

def skipBlanks (cs : List Char) : List Char := cs.dropWhile Text.isInlineBlank

/-- Skips blanks, line ends and comments, up to something else. Within a comment that is what no
document may hold. -/
def skipLayout (inComment : Bool) : List Char → List Char
  | [] => []
  | '\n' :: cs => skipLayout false cs
  | '\r' :: '\n' :: cs => skipLayout false cs
  | c :: cs =>
    if inComment && isPrintable c then skipLayout true cs
    else if inComment then c :: cs
    else if c = '#' then skipLayout true cs
    else if Text.isInlineBlank c then skipLayout false cs
    else c :: cs

/-- Whether a line has nothing more but blanks and a comment. -/
def atLineEnd (cs : List Char) : Bool :=
  match skipBlanks cs with
  | [] => true
  | '#' :: _ => true
  | '\n' :: _ => true
  | '\r' :: '\n' :: _ => true
  | _ => false

/-- Characters of a key without quotes. -/
def isBareKeyChar (c : Char) : Bool := c.isAlphanum || c == '_' || c == '-'

/-- A key, quoted or not, and the blanks around it. -/
def key? : Reader String := fun cs =>
  let cs := skipBlanks cs
  let bare := cs.takeWhile isBareKeyChar
  if bare.isEmpty then (readLine? cs).map fun (key, rest) => (String.ofList key, skipBlanks rest)
  else some (String.ofList bare, skipBlanks (cs.dropWhile isBareKeyChar))

/-- At most `count` keys with points between them. -/
def keys? : (count : Nat) → Reader Path
  | 0, _ => none
  | count + 1, cs =>
    match key? cs with
    | none => none
    | some (key, '.' :: cs) =>
      (keys? count cs).map fun (path, rest) => ({ path with parents := key :: path.parents }, rest)
    | some (key, cs) => some (⟨[], key⟩, cs)

/-- A key with points between its parts. -/
def path? : Reader Path := keys? (maxNesting - 1)

/-! ### Values -/

/-- Characters of values that are one word. -/
def isWordChar (c : Char) : Bool := isBareKeyChar c || c == '+' || c == '.' || c == ':'

/-- A word, and what follows it. A date goes on past a space if a digit follows. -/
def word (cs : List Char) : List Char × List Char :=
  let w := cs.takeWhile isWordChar
  match cs.dropWhile isWordChar with
  | ' ' :: c :: rest =>
    if isDate w && c.isDigit then
      (w ++ ' ' :: (c :: rest).takeWhile isWordChar, (c :: rest).dropWhile isWordChar)
    else (w, ' ' :: c :: rest)
  | rest => (w, rest)

/-- What a word stands for. -/
def wordValue? (w : List Char) : Option Node :=
  if w = ['t', 'r', 'u', 'e'] then some (.value (.bool true))
  else if w = ['f', 'a', 'l', 's', 'e'] then some (.value (.bool false))
  else if isMoment w then some .moment
  else
    match int? w with
    | some i => some (.value (.int i))
    | none => (float? w).map fun x => .value (.float x)

/-- Up to `count` values with commas between them, up to the closing bracket. A comma may also
follow the last one. -/
def arrayItems? (item? : Reader Node) : (count : Nat) → Reader (List Node)
  | 0, _ => none
  | count + 1, cs =>
    match skipLayout false cs with
    | ']' :: cs => some ([], cs)
    | cs =>
      match item? cs with
      | none => none
      | some (node, cs) =>
        match skipLayout false cs with
        | ',' :: cs => (arrayItems? item? count cs).map fun (nodes, rest) => (node :: nodes, rest)
        | ']' :: cs => some ([node], cs)
        | _ => none

/-- A dotted key, an equals sign and a value. -/
def pair? (item? : Reader Node) : Reader (Path × Node) := fun cs =>
  match path? cs with
  | some (path, '=' :: cs) => (item? (skipBlanks cs)).map fun (node, rest) => ((path, node), rest)
  | _ => none

/-- Up to `count` entries with commas between them, up to the closing brace, which no comma
precedes. They join the entries `es`. -/
def inlineEntries? (item? : Reader Node) (es : Entries) : (count : Nat) → Reader Entries
  | 0, _ => none
  | count + 1, cs =>
    match pair? item? cs with
    | none => none
    | some ((path, node), cs) =>
      match es.addDotted? node path.key path.parents, skipBlanks cs with
      | some es, ',' :: cs => inlineEntries? item? es count cs
      | some es, '\x7d' :: cs => some (es, cs)
      | _, _ => none

/-- A value whose arrays and tables nest at most `depth` deep. -/
def node? : (depth : Nat) → Reader Node
  | _, '"' :: cs => (readText? ('"' :: cs)).map fun (s, rest) =>
      (.value (.text (String.ofList s)), rest)
  | _, '\x27' :: cs => (readText? ('\x27' :: cs)).map fun (s, rest) =>
      (.value (.text (String.ofList s)), rest)
  | depth + 1, '[' :: cs => (arrayItems? (node? depth) (cs.length + 1) cs).map fun (nodes, rest) =>
      (.array nodes, rest)
  | depth + 1, '\x7b' :: cs =>
    match skipBlanks cs with
    | '\x7d' :: rest => some (.inline [], rest)
    | _ => (inlineEntries? (node? depth) [] (cs.length + 1) cs).map fun (es, rest) =>
        (.inline es, rest)
  | _, cs => (wordValue? (word cs).1).map fun node => (node, (word cs).2)

/-! ### Lines -/

inductive Line where
  /-- Opens a table. -/
  | header (path : Path)
  /-- Opens one more table of a name. -/
  | nextHeader (path : Path)
  | entry (path : Path) (node : Node)

/-- One line, without the comment and the line end after it. -/
def line? : Reader Line
  | '[' :: '[' :: cs =>
    match path? cs with
    | some (path, ']' :: ']' :: rest) => some (.nextHeader path, rest)
    | _ => none
  | '[' :: cs =>
    match path? cs with
    | some (path, ']' :: rest) => some (.header path, rest)
    | _ => none
  | cs => (pair? (node? (maxNesting - 1)) cs).map fun ((path, node), rest) =>
      (.entry path node, rest)

/-- The entries read so far, and the keys that lead to the table opened last. -/
structure Document where
  entries : Entries := []
  current : List String := []

namespace Document

def add? (d : Document) : Line → Option Document
  | .header path => (d.entries.openTable? path).map fun es => ⟨es, path.parents ++ [path.key]⟩
  | .nextHeader path => (d.entries.openNext? path).map fun es => ⟨es, path.parents ++ [path.key]⟩
  | .entry path node =>
    (d.entries.within? (·.addDotted? node path.key path.parents) d.current).map fun es =>
      { d with entries := es }

/-- Reads up to `count` lines into a document. -/
def readFrom? (d : Document) : (count : Nat) → List Char → Option Document
  | 0, _ => none
  | count + 1, cs =>
    match skipLayout false cs with
    | [] => some d
    | cs =>
      match line? cs with
      | none => none
      | some (line, rest) =>
        match d.add? line with
        | some d => if atLineEnd rest then readFrom? d count rest else none
        | none => none

end Document

/-- The entries of a document. A byte order mark at its start is not part of it. -/
def read? (s : String) : Option Entries :=
  let cs := match s.toList with
    | '\ufeff' :: cs => cs
    | cs => cs
  (Document.readFrom? {} (cs.length + 1) cs).map (·.entries)

end FlagScript.Toml
