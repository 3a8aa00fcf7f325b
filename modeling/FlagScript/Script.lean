import FlagScript.Nesting
import FlagScript.Phrase.Meaning
import FlagScript.Phrase.Parser

/-!
# Reading scripts
-/

namespace FlagScript

namespace Error

/-- Nothing that a source could hold begins at this place. -/
def noToken (source : List Char) (p : Position) : Error :=
  .unexpected p
    (if p = .start then [.anyToken] else .endOfInput :: TokenClass.all.map .token)
    (sourceLine source p)

/-- The parser is stuck in a source. -/
def stuck (source : List Char) (s : Phrase.Stuck) : Error :=
  let p := match s.rest with
    | t :: _ => t.position
    | [] => Position.start.advance source
  .unexpected p s.expected (sourceLine source p)

end Error

namespace Script

/-- The expressions that phrases stand for, first to last. -/
def ofPhrases (ps : List Phrase) : Except Error Script := ps.mapM (Phrase.meaning 1)

/-- Reads a script from the tokens of a source. -/
def ofTokens (source : List Char) (ts : List Token) : Except Error Script :=
  match Nesting.tooDeep? ts with
  | some t => .error (.tooDeep t.position maxNesting)
  | none =>
    match Phrase.statements ts with
    | .error s => .error (.stuck source s)
    | .ok ps => ofPhrases ps

/-- Reads a script, which has at least one statement. -/
def parse (source : String) : Except Error Script :=
  let cs := source.toList
  match Token.lex cs with
  | .error p => .error (.noToken cs p)
  | .ok ts => ofTokens cs ts

/-- Reads the condition of a directive, which may be blank. -/
def parseCondition (source : String) : Except Error Script :=
  if (Text.trim source.toList).isEmpty then .ok [] else parse source

/-- Reads a script from the bytes of a source. -/
def parseBytes (bytes : ByteArray) : Except Error Script :=
  match String.fromUTF8? bytes with
  | some source => parse source
  | none => .error .unreadable

end Script

end FlagScript
