import FlagScript.Builtin
import FlagScript.Position
import FlagScript.Text.Quoted
import FlagScript.Token

/-!
# Errors

Whatever can go wrong with a source, by cause. Running a script never fails, so all errors arise
before it starts. The wording of every message is here.
-/

namespace FlagScript

namespace TokenClass

/-- All classes, in the order in which messages list them. -/
def all : List TokenClass := [
  identifier, incrementBy, decrementBy, increment, decrement, lessOrEqual, greaterOrEqual, notEqual,
  equal, and, or, less, greater, set, plus, minus, star, slash, not, comma, leftParen, rightParen,
  quotedText, number, boolean, text]

/-- A class as a message that misses such a token names it. -/
def expectedName : TokenClass → String
  | set => "`=`"
  | equal => "`==`"
  | notEqual => "`!=`"
  | less => "`<`"
  | lessOrEqual => "`<=`"
  | greater => "`>`"
  | greaterOrEqual => "`>=`"
  | plus => "`+`"
  | minus => "`-`"
  | star => "`*`"
  | slash => "`/`"
  | incrementBy => "`+=`"
  | decrementBy => "`-=`"
  | increment => "`++`"
  | decrement => "`--`"
  | not => "`!`"
  | and => "`&&`"
  | or => "`||`"
  | comma => "`,`"
  | leftParen => "`(`"
  | rightParen => "`)`"
  | identifier => "flag or function name"
  | boolean => "boolean"
  | number => "number"
  | quotedText => "@-quoted text"
  | text => "text"

end TokenClass

/-- What a source could go on with where it does not. -/
inductive Expectation where
  | endOfInput
  | expression
  | token (kind : TokenClass)
  | anyToken
  | template
  | ifDirective | elseIfDirective | elseDirective | endIfDirective
  | flag
  | templateText
  deriving DecidableEq, Inhabited

namespace Expectation

/-- All of them, in the order in which messages list them. -/
def all : List Expectation :=
  [endOfInput, template, expression, ifDirective, elseIfDirective, elseDirective, endIfDirective,
    flag, templateText] ++ TokenClass.all.map token ++ [anyToken]

def name : Expectation → String
  | endOfInput => "end of input"
  | expression => "expression"
  | token kind => kind.expectedName
  | anyToken => "token"
  | template => "template"
  | ifDirective => "`$[[IF ...]]`"
  | elseIfDirective => "`$[[ELSE IF ...]]`"
  | elseDirective => "`$[[ELSE]]`"
  | endIfDirective => "`$[[ENDIF]]`"
  | flag => "flag"
  | templateText => "text"

/-- "a", "a or b", "a, b, or c" -/
def listing : List String → String
  | [] => ""
  | [a] => a
  | [a, b] => a ++ " or " ++ b
  | a :: b :: c :: rest =>
    let rec go : String → List String → String
      | last, [] => "or " ++ last
      | next, d :: ds => next ++ ", " ++ go d ds
    a ++ ", " ++ b ++ ", " ++ go c rest

/-- Names the expectations in the order of `all`. -/
def describe (expected : List Expectation) : String :=
  listing ((all.filter expected.contains).map name)

end Expectation

/-- Why an expression that follows the grammar has no meaning. -/
inductive Fault where
  | unknownFunction (name : String)
  | argumentCount (function : Builtin) (count : Nat)
  | numberOutOfRange (lexeme : String)
  | notANumber (lexeme : String)
  | notATruthWord (lexeme : String)
  deriving DecidableEq

namespace Fault

def message : Fault → String
  | unknownFunction name => "$" ++ name ++ "() is not a defined function"
  | argumentCount function count => function.countMessage count
  | numberOutOfRange lexeme => "number " ++ Text.quoteText lexeme ++ " is out of range"
  | notANumber lexeme => "invalid number " ++ Text.quoteText lexeme
  | notATruthWord lexeme =>
    Text.quoteText lexeme ++ " is not a boolean; use true/false, on/off or yes/no"

end Fault

/-- Everything that can be wrong with a source. -/
inductive Error where
  /-- The source breaks the grammar at a place; `line` is the line of the source there. -/
  | unexpected (position : Position) (expected : List Expectation) (line : List Char)
  | fault (position : Position) (cause : Fault)
  | tooDeep (position : Position) (limit : Nat)
  /-- An error in the condition of a directive at a place of a template. -/
  | condition (position : Position) (cause : Error)
  /-- A condition of a template that would change something. -/
  | changes (position : Position) (what : String)
  | flagName (name : String)
  | inFile (file : String) (cause : Error)
  /-- The bytes of the source are no text. -/
  | unreadable
  deriving DecidableEq

namespace Error

/-- A line with a caret under a column. -/
def caretLines (line : List Char) (col : Nat) : String :=
  let pad := (line.take (col - 1)).map fun c => if c == '\t' then '\t' else ' '
  String.ofList (line ++ '\n' :: pad ++ ['^'])

/-- The character at a column, as messages name it. -/
def foundText (line : List Char) (col : Nat) : String :=
  match (line.drop (col - 1)).head? with
  | some c => Text.quoteChar c
  | none => "end of input"

/-- "line 1, char 2" -/
def placeText (p : Position) : String :=
  "line " ++ toString p.line ++ ", char " ++ toString p.col

def message : Error → String
  | unexpected p expected line =>
    "syntax error around " ++ placeText p ++ ": unexpected " ++ foundText line p.col ++
      "; expected " ++ Expectation.describe expected ++ "\n" ++ caretLines line p.col
  | fault p cause => "around " ++ placeText p ++ ": " ++ cause.message
  | tooDeep p limit =>
    "around " ++ placeText p ++ ": expression nests deeper than " ++ toString limit ++ " levels"
  | condition p cause =>
    "in template directive around " ++ placeText p ++ ":\n" ++ cause.message
  | changes p what =>
    "around " ++ placeText p ++ ": " ++ what ++
      " changes things, so it can't be used in templates"
  | flagName name =>
    "flag label " ++ Text.quoteText name ++ " does not match pattern /[A-Z0-9_]+/"
  | inFile file cause => file ++ ": " ++ cause.message
  | unreadable => "could not read source: stream did not contain valid UTF-8"

/-- Names the file of the source, unless a file is named already or there is none. -/
def within (e : Error) : Option String → Error
  | none => e
  | some file =>
    match e with
    | inFile _ _ => e
    | _ => inFile file e

end Error

/-- Whether there is a result at all, and one with a property, can be seen by computing it. -/
instance decidableExistsOk {ε α : Type} {P : α → Prop} [DecidablePred P] (x : Except ε α) :
    Decidable (∃ a, x = .ok a ∧ P a) :=
  match x with
  | .ok a => decidable_of_iff (P a) (by simp)
  | .error _ => isFalse (by simp)

end FlagScript
