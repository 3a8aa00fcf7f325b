import FlagScript.Expr.Source
import FlagScript.Template

/-!
# Templates as source
-/

namespace FlagScript

namespace Template

/-- A character of text as it stands in a template. -/
def escapeChar (c : Char) : List Char := if c == '\\' || c == '$' then ['\\', c] else [c]

def textSource (s : String) : String := String.ofList (s.toList.flatMap escapeChar)

def conditionSource : Condition → String
  | .raw source => source
  | .parsed script => script.source

/-- A directive with a condition, which may be empty. -/
def directiveSource (keyword : String) (condition : Condition) : String :=
  let source := conditionSource condition
  "$[[" ++ keyword ++ (if source.isEmpty then "" else " " ++ source) ++ "]]"

mutual

def blockSource : Block → String
  | .text t => textSource t.text
  | .flag name => "$" ++ name
  | .branch first more otherwise =>
    clauseSource "IF" first ++ clausesSource more ++
      (match otherwise with
        | none => ""
        | some blocks => "$[[ELSE]]" ++ source blocks) ++
      "$[[ENDIF]]"

/-- A clause whose directive has the given keyword. -/
def clauseSource (keyword : String) : Clause → String
  | .mk _ condition content => directiveSource keyword condition ++ source content

/-- The clauses behind the first one. -/
def clausesSource : List Clause → String
  | [] => ""
  | c :: cs => clauseSource "ELSE IF" c ++ clausesSource cs

def source : List Block → String
  | [] => ""
  | b :: bs => blockSource b ++ source bs

end

end Template

end FlagScript
