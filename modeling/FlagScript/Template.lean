import FlagScript.Expr
import FlagScript.Position

/-!
# Templates

A template is prose with flags, which are replaced by their texts, and branches, whose content shows
if a condition holds.
-/

namespace FlagScript

/-- Literal text of a template. -/
structure TextBlock where
  text : String
  /-- Whether the text starts with a space. -/
  leftSpace : Bool
  /-- Whether the text ends with a space. -/
  rightSpace : Bool
  deriving DecidableEq

/-- Text with its marks. -/
def TextBlock.ofText (cs : List Char) : TextBlock :=
  ⟨String.ofList cs, cs.head? == some ' ', cs.getLast? == some ' '⟩

/-- A condition: its source, to be read when it is first needed, or what was read. -/
inductive Condition where
  | raw (source : String)
  | parsed (script : Script)

mutual

/-- A part of a template. A branch shows the content of the first of its clauses whose condition
holds, and otherwise what stands behind its ELSE, if there is one. -/
inductive Block where
  | text (t : TextBlock)
  | flag (name : String)
  | branch (first : Clause) (more : List Clause) (otherwise : Option (List Block))

/-- A condition, the place of its directive, and what it guards. -/
inductive Clause where
  | mk (position : Position) (condition : Condition) (content : List Block)

end

/-- The parts of a template, in order. -/
abbrev Template := List Block

end FlagScript
