import FlagScript.Interpreter
import FlagScript.Template.Check

/-!
# Expanding templates

A condition that was not read yet is read when it is reached, which can fail. The interpreter is
answered even then, for conditions in front of it may have run.
-/

namespace FlagScript

namespace Template

/-- Whether a block is text that ends with a space. -/
def endsWithSpace : Option Block → Bool
  | some (.text t) => t.rightSpace
  | _ => false

/-- Whether a block is text that starts with a space. -/
def startsWithSpace : Option Block → Bool
  | some (.text t) => t.leftSpace
  | _ => false

/-- Takes one space off the end of a text, which stands last character first. -/
def dropSpace : List Char → List Char
  | ' ' :: cs => cs
  | cs => cs

/-- Closes the gap that an empty branch leaves between two blocks: the text so far, last character
first, loses the space at its end if the blocks on both sides have one there. -/
def closeGap (previous next : Option Block) (out : List Char) : List Char :=
  if endsWithSpace previous && startsWithSpace next then dropSpace out else out

variable {W : Type} [Game W]

/-- Whether a condition holds. -/
def holds (s : Interpreter W) (p : Position) :
    Condition → Except Error Bool × Interpreter W
  | .parsed script =>
    let (v, s) := s.exec script
    (.ok v.truth, s)
  | .raw source =>
    match Clause.readCondition p source with
    | .error e => (.error e, s)
    | .ok script =>
      let (v, s) := s.exec script
      (.ok v.truth, s)

mutual

/-- The text of a block, last character first. -/
def expandBlock (s : Interpreter W) : Block → Except Error (List Char) × Interpreter W
  | .text t => (.ok t.text.toList.reverse, s)
  | .flag name => (.ok (s.flagText name).toList.reverse, s)
  | .branch first more otherwise =>
    match expandClause s first with
    | (.ok none, s) =>
      match expandClauses s more with
      | (.ok none, s) =>
        match otherwise with
        | none => (.ok [], s)
        | some blocks => expandFrom s none [] blocks
      | (.ok (some out), s) => (.ok out, s)
      | (.error e, s) => (.error e, s)
    | (.ok (some out), s) => (.ok out, s)
    | (.error e, s) => (.error e, s)

/-- The text of a clause, none if its condition does not hold. -/
def expandClause (s : Interpreter W) :
    Clause → Except Error (Option (List Char)) × Interpreter W
  | .mk p condition content =>
    match holds s p condition with
    | (.error e, s) => (.error e, s)
    | (.ok false, s) => (.ok none, s)
    | (.ok true, s) =>
      match expandFrom s none [] content with
      | (.error e, s) => (.error e, s)
      | (.ok out, s) => (.ok (some out), s)

/-- The text of the first clause whose condition holds. -/
def expandClauses (s : Interpreter W) :
    List Clause → Except Error (Option (List Char)) × Interpreter W
  | [] => (.ok none, s)
  | c :: cs =>
    match expandClause s c with
    | (.ok none, s) => expandClauses s cs
    | answer => answer

/-- The text of blocks behind the text `out`, both last character first, where `previous` is the
block in front. -/
def expandFrom (s : Interpreter W) (previous : Option Block) (out : List Char) :
    List Block → Except Error (List Char) × Interpreter W
  | [] => (.ok out, s)
  | b :: bs =>
    match expandBlock s b with
    | (.error e, s) => (.error e, s)
    | (.ok shown, s) =>
      let isGap := match b with
        | .branch _ _ _ => shown.isEmpty
        | _ => false
      let out := if isGap then closeGap previous bs.head? out else out
      expandFrom s (some b) (shown ++ out) bs

end

end Template

namespace Interpreter

variable {W : Type}

/-- Reads a template and all of its conditions; an error names the file. -/
def parseTemplate (s : Interpreter W) (source : String) : Except Error Template :=
  (Template.parse source).mapError (·.within s.file)

/-- Reads a template given by its bytes. -/
def parseTemplateBytes (s : Interpreter W) (bytes : ByteArray) : Except Error Template :=
  (Template.parseBytes bytes).mapError (·.within s.file)

variable [Game W]

/-- Expands a template. Only conditions that were not read yet can fail. -/
def expandTemplate (s : Interpreter W) (t : Template) : Except Error String × Interpreter W :=
  match Template.expandFrom s none [] t with
  | (.ok out, s) => (.ok (String.ofList out.reverse), s)
  | (.error e, s) => (.error (e.within s.file), s)

/-- Expands a template unless reading it failed. -/
def expandParsed (s : Interpreter W) :
    Except Error Template → Except Error String × Interpreter W
  | .error e => (.error e, s)
  | .ok t => s.expandTemplate t

/-- Reads and expands a template. -/
def expand (s : Interpreter W) (source : String) : Except Error String × Interpreter W :=
  s.expandParsed (s.parseTemplate source)

/-- Reads and expands a template given by its bytes. -/
def expandBytes (s : Interpreter W) (bytes : ByteArray) : Except Error String × Interpreter W :=
  s.expandParsed (s.parseTemplateBytes bytes)

end Interpreter

end FlagScript
