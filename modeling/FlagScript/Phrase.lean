import FlagScript.Error
import FlagScript.Expr

/-!
# Phrases

A phrase is an expression as it stands in a source: its literals and names are still tokens, and
every operator and opening parenthesis keeps its place.
-/

namespace FlagScript

inductive Phrase where
  | literal (word : Token)
  | flag (id : Token)
  | assign (id : Token) (op : AssignOp) (opAt : Position) (value : Phrase)
  | step (id : Token) (op : AssignOp)
  | call (id : Token) (parenAt : Position) (args : List Phrase)
  | group (parenAt : Position) (inner : Phrase)
  | binary (op : BinaryOp) (opAt : Position) (left right : Phrase)
  | unary (op : UnaryOp) (opAt : Position) (operand : Phrase)
  deriving Inhabited

namespace TokenClass

/-- The operator that a token of this class is between two operands. -/
def binaryOp? : TokenClass → Option BinaryOp
  | equal => some .equal
  | notEqual => some .notEqual
  | less => some .less
  | lessOrEqual => some .lessOrEqual
  | greater => some .greater
  | greaterOrEqual => some .greaterOrEqual
  | plus => some .add
  | minus => some .sub
  | star => some .mul
  | slash => some .div
  | and => some .and
  | or => some .or
  | _ => none

/-- The operator that a token of this class is in front of an operand. -/
def unaryOp? : TokenClass → Option UnaryOp
  | minus => some .neg
  | not => some .not
  | _ => none

/-- The assignment that a token of this class is between a flag and a value. -/
def assignOp? : TokenClass → Option AssignOp
  | set => some .set
  | incrementBy => some .incrementBy
  | decrementBy => some .decrementBy
  | _ => none

/-- The assignment that a token of this class is behind a flag. -/
def stepOp? : TokenClass → Option AssignOp
  | increment => some .increment
  | decrement => some .decrement
  | _ => none

/-- Whether a token of this class is a literal. -/
def isLiteral : TokenClass → Bool
  | boolean | number | quotedText | text => true
  | _ => false

end TokenClass

/-! ### What can follow -/

namespace Phrase

/-- Operators between operands. -/
def operators : List Expectation :=
  (TokenClass.all.filter (·.binaryOp?.isSome)).map .token

/-- What makes a flag name at the end of a phrase into something else. -/
def nameTails : List Expectation := [.token .increment, .token .decrement, .token .leftParen]

/-- What can follow the name, if the phrase ends with the bare name of a flag. -/
def endTails : Phrase → List Expectation
  | flag _ => nameTails
  | assign _ _ _ value => endTails value
  | binary _ _ _ right => endTails right
  | unary _ _ operand => endTails operand
  | _ => []

/-- What can follow a bare name that is a whole expression, or all of the assigned value. -/
def assignTails : Phrase → List Expectation
  | flag _ => [.token .set, .token .incrementBy, .token .decrementBy]
  | assign _ _ _ value => assignTails value
  | _ => []

/-- Tokens that continue an expression which is complete as it is. -/
def tails (p : Phrase) : List Expectation := operators ++ p.endTails ++ p.assignTails

end Phrase

end FlagScript
