import FlagScript.Text.Blank
import FlagScript.Template
import FlagScript.Token.Lexer

/-!
# Pieces of templates

A template is first cut into text, flags and directives, from left to right. In text a backslash
makes the next character stand for itself, and a `$` that begins neither a flag nor a directive is
text.
-/

namespace FlagScript

namespace Template

/-- What stands between `$[[` and `]]`. -/
inductive Directive where
  | openIf (condition : String)
  | elseIf (condition : String)
  | otherwise
  | endIf
  deriving DecidableEq

inductive Piece where
  | text (cs : List Char)
  | flag (name : String)
  | directive (position : Position) (d : Directive)
  /-- Begins like a directive but is none. -/
  | malformed (position : Position)
  deriving DecidableEq

/-! ### Directives

The functions answer how many characters a form takes, and none if it does not stand here. -/

/-- A word in any letter case. -/
def wordLength? (word cs : List Char) : Option Nat :=
  if (cs.take word.length).map Char.toUpper = word then some word.length else none

/-- Length of the layout in front. -/
def layoutLength (cs : List Char) : Nat := (cs.takeWhile Text.isLayout).length

/-- Whether the brackets that end a directive stand here. -/
def closes : List Char → Bool
  | ']' :: ']' :: _ => true
  | _ => false

/-- How many characters stand in front of the brackets that end a directive. -/
def closeDistance? : List Char → Option Nat
  | [] => none
  | c :: cs => if closes (c :: cs) then some 0 else (closeDistance? cs).map (· + 1)

/-- A word with its end behind it: layout or the brackets. -/
def keywordLength? (word cs : List Char) : Option Nat :=
  match wordLength? word cs with
  | none => none
  | some n =>
    match cs.drop n with
    | c :: rest => if Text.isLayout c || closes (c :: rest) then some n else none
    | [] => none

/-- `ELSE` and `IF` with layout between them. -/
def elseIfLength? (cs : List Char) : Option Nat :=
  match wordLength? ['E', 'L', 'S', 'E'] cs with
  | none => none
  | some n =>
    let gap := layoutLength (cs.drop n)
    if gap = 0 then none else (keywordLength? ['I', 'F'] (cs.drop (n + gap))).map (n + gap + ·)

/-- A condition up to the brackets, without the blanks around it, and the length of all that. -/
def conditionTo? (cs : List Char) : Option (String × Nat) :=
  (closeDistance? cs).map fun n => (String.ofList (Text.trim (cs.take n)), n + 2)

/-- A word, layout and the brackets. -/
def bareLength? (word cs : List Char) : Option Nat :=
  match wordLength? word cs with
  | none => none
  | some n =>
    let gap := layoutLength (cs.drop n)
    if closes (cs.drop (n + gap)) then some (n + gap + 2) else none

/-- The directive whose keyword comes first here, if all of it does. -/
def directiveHere? (cs : List Char) : Option (Directive × Nat) :=
  match keywordLength? ['I', 'F'] cs with
  | some n => (conditionTo? (cs.drop n)).map fun (cond, k) => (.openIf cond, n + k)
  | none =>
    match (keywordLength? ['E', 'L', 'S', 'E', 'I', 'F'] cs).or
        ((keywordLength? ['E', 'L', 'I', 'F'] cs).or (elseIfLength? cs)) with
    | some n => (conditionTo? (cs.drop n)).map fun (cond, k) => (.elseIf cond, n + k)
    | none =>
      match bareLength? ['E', 'L', 'S', 'E'] cs with
      | some n => some (.otherwise, n)
      | none => (bareLength? ['E', 'N', 'D', 'I', 'F'] cs).map (.endIf, ·)

/-- The directive that goes on here behind its opening brackets, and its length. -/
def directive? (cs : List Char) : Option (Directive × Nat) :=
  let gap := layoutLength cs
  (directiveHere? (cs.drop gap)).map fun (d, n) => (d, gap + n)

/-! ### Pieces -/

/-- Adds the text read so far, last character first, to the pieces, last piece first. -/
def addText (text : List Char) (done : List Piece) : List Piece :=
  if text.isEmpty then done else .text text.reverse :: done

/-- Cuts a source that goes on at `p`. Nothing behind a malformed directive is looked at. -/
def cutFrom (done : List Piece) (text : List Char) (p : Position) : List Char → List Piece
  | [] => (addText text done).reverse
  | ['\\'] => (addText ('\\' :: text) done).reverse
  | '\\' :: c :: cs => cutFrom done (c :: text) ((p.after '\\').after c) cs
  | '$' :: '[' :: '[' :: cs =>
    match directive? cs with
    | none => (.malformed p :: addText text done).reverse
    | some (d, n) =>
      cutFrom (.directive p d :: addText text done) []
        (p.advance ('$' :: '[' :: '[' :: cs.take n)) (cs.drop n)
  | '$' :: cs =>
    let name := cs.takeWhile Token.isNameChar
    if name.isEmpty then cutFrom done ('$' :: text) (p.after '$') cs
    else
      cutFrom (.flag (Text.upper (String.ofList name)) :: addText text done) []
        (p.advance ('$' :: name)) (cs.drop name.length)
  | c :: cs => cutFrom done (c :: text) (p.after c) cs
  termination_by cs => cs.length

/-- The pieces of a source. -/
def cut (source : List Char) : List Piece := cutFrom [] [] .start source

end Template

end FlagScript
