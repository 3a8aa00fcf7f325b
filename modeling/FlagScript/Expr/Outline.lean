import FlagScript.Expr
import FlagScript.Outline

/-!
# Outlines of expressions
-/

namespace FlagScript

/-- The kind of a literal, as outlines show it. -/
def Value.literalKind (v : Value) (quoted : Bool) : String :=
  match v with
  | .int _ => "NUMBER/INT"
  | .float _ => "NUMBER/FLOAT"
  | .bool _ => "BINARY/BOOL"
  | .text _ => if quoted then "TEXT/@STRING" else "TEXT/STRING"

/-- A literal on one line, unless its text has several. -/
def Value.literalOutline (v : Value) (quoted : Bool) : String :=
  let shown := if v.isText then "\"" ++ v.toText ++ "\"" else v.toText
  "[LITERAL " ++ v.literalKind quoted ++ " " ++ shown ++ "]"

namespace Expr

mutual

def outline : Expr → Outline
  | literal v quoted => .ofText (v.literalOutline quoted)
  | flag name => .ofText ("[FLAG $" ++ name ++ "]")
  | assign name op value =>
    .ofText ("[ASSIGNMENT " ++ op.name ++ " $" ++ name) ++ (outline value).part " V: " ++ ["]"]
  | step name op => .ofText ("[ASSIGNMENT " ++ op.name ++ " $" ++ name ++ "]")
  | call name [] => .ofText ("[FUNC $" ++ name ++ "]")
  | call name (arg :: args) =>
    .ofText ("[FUNC $" ++ name) ++ outlines (arg :: args) ++ ["]"]
  | group inner => ["[GROUP"] ++ (outline inner).part " E: " ++ ["]"]
  | binary op left right =>
    ["[BINARY_OP " ++ op.name] ++ (outline left).part " L: " ++ (outline right).part " R: " ++ ["]"]
  | unary op operand => ["[UNARY_OP " ++ op.name] ++ (outline operand).part " O: " ++ ["]"]

/-- The arguments of a call. -/
def outlines : List Expr → Outline
  | [] => []
  | e :: es => (outline e).part " A: " ++ outlines es

end

end Expr

namespace Script

def outline (script : Script) : Outline :=
  "AST" :: script.flatMap fun e => e.outline.part " S: "

end Script

end FlagScript
