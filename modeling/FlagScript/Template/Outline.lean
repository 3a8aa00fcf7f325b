import FlagScript.Expr.Outline
import FlagScript.Template
import FlagScript.Text.Fill

/-!
# Outlines of templates
-/

namespace FlagScript

namespace Template

/-- Columns of text in an outline. -/
def textColumns : Nat := 60

def markText (b : Bool) : String := if b then "true" else "false"

def textOutline (t : TextBlock) : Outline :=
  let filled := Outline.ofText (Text.fill textColumns t.text)
  ("[TEXT ltrim=" ++ markText t.leftSpace ++ " rtrim=" ++ markText t.rightSpace) ::
    filled.map ("    " ++ ·) ++ ["]"]

def conditionOutline : Condition → Outline
  | .raw source => .ofText ("(raw) " ++ source)
  | .parsed script => script.outline

mutual

def blockOutline : Block → Outline
  | .text t => textOutline t
  | .flag name => .ofText ("[FLAG $" ++ name ++ "]")
  | .branch first more otherwise =>
    "[BRANCH" :: (clauseOutline first).part " I: " ++ clausesOutline more ++
      (match otherwise with
        | none => []
        | some blocks => blocksOutline " E: " blocks) ++
      ["]"]

/-- A clause; its bracket closes on the last line of its content. -/
def clauseOutline : Clause → Outline
  | .mk _ condition content =>
    Outline.endWith "]"
      ("[COND" :: (conditionOutline condition).part " IF:" ++ blocksOutline " C: " content)

/-- The clauses behind the first one. -/
def clausesOutline : List Clause → Outline
  | [] => []
  | c :: cs => (clauseOutline c).part " EI:" ++ clausesOutline cs

/-- Blocks, each behind the same label. -/
def blocksOutline (label : String) : List Block → Outline
  | [] => []
  | b :: bs => (blockOutline b).part label ++ blocksOutline label bs

end

def outline (t : Template) : Outline :=
  if t.isEmpty then ["Template(empty)"] else "Template" :: blocksOutline " B: " t

end Template

end FlagScript
