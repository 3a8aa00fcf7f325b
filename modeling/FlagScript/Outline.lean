/-!
# Outlines

An outline shows a tree as lines: each part of a node begins on a line of its own behind a label,
and its further lines are indented.
-/

namespace FlagScript

/-- Lines of an outline. -/
abbrev Outline := List String

namespace Outline

/-- The lines of a text. -/
def ofText (s : String) : Outline := (s.toList.splitOn '\n').map String.ofList

/-- Puts text in front of the first line. -/
def prepend (label : String) : Outline → Outline
  | [] => [label]
  | l :: ls => (label ++ l) :: ls

/-- Puts text behind the last line. -/
def endWith (tail : String) (o : Outline) : Outline :=
  match o.reverse with
  | [] => [tail]
  | l :: ls => ((l ++ tail) :: ls).reverse

/-- Indents all lines but the first by four columns. -/
def hang : Outline → Outline
  | [] => []
  | l :: ls => l :: ls.map ("    " ++ ·)

/-- A part of a node, behind its label. -/
def part (label : String) (o : Outline) : Outline := o.hang.prepend label

def toText : Outline → String
  | [] => ""
  | [l] => l
  | l :: ls => l ++ "\n" ++ toText ls

end Outline

end FlagScript
