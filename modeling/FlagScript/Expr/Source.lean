import FlagScript.Expr
import FlagScript.Token.Lexer

/-!
# Expressions as source

An expression is written so that it reads back as it is, as far as it came from a source: groups are
part of it, so no parentheses are added.
-/

namespace FlagScript

/-- Whether a text, as it stands in a source, reads as a number or a truth value. -/
def readsAsOtherLiteral (cs : List Char) : Bool :=
  match Token.lex cs with
  | .ok [t] => t.kind = .number || t.kind = .boolean
  | _ => false

/-- Unquoted text that would read as another literal gets a backslash in front. -/
def Value.unquotedSource (v : Value) : String :=
  let cs := v.escaped.toList
  String.ofList (if readsAsOtherLiteral cs then '\\' :: cs else cs)

/-- Empty text is always quoted, for unquoted text is never empty. -/
def Value.literalSource (v : Value) (quoted : Bool) : String :=
  match v with
  | .text s => if quoted || s.isEmpty then v.quoted else v.unquotedSource
  | _ => v.toText

namespace Expr

/-- Joins texts with one between each two of them. -/
def joinWith (between : String) : List String → String
  | [] => ""
  | [s] => s
  | s :: ss => s ++ between ++ joinWith between ss

mutual

def source : Expr → String
  | literal v quoted => v.literalSource quoted
  | flag name => "$" ++ name
  | assign name op value => "$" ++ name ++ " " ++ op.symbol ++ " " ++ source value
  | step name op => "$" ++ name ++ op.symbol
  | call name args => "$" ++ name ++ "(" ++ joinWith ", " (sources args) ++ ")"
  | group inner => "(" ++ source inner ++ ")"
  | binary op left right => source left ++ " " ++ op.symbol ++ " " ++ source right
  | unary op operand =>
    let s := source operand
    -- a space keeps two signs from reading as a decrement
    if op = .neg && s.toList.head? = some '-' then op.symbol ++ " " ++ s else op.symbol ++ s

def sources : List Expr → List String
  | [] => []
  | e :: es => source e :: sources es

end

end Expr

namespace Script

/-- One statement a line. -/
def source (script : Script) : String := Expr.joinWith "\n" (script.map Expr.source)

end Script

end FlagScript
