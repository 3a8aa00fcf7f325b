import FlagScript.Position

/-!
# Tokens
-/

namespace FlagScript

/-- The classes of tokens. -/
inductive TokenClass where
  | set | equal | notEqual | less | lessOrEqual | greater | greaterOrEqual
  | plus | minus | star | slash
  | incrementBy | decrementBy | increment | decrement
  | not | and | or
  | comma | leftParen | rightParen
  | identifier | boolean | number | quotedText | text
  deriving DecidableEq, Inhabited

namespace TokenClass

/-- The short name of a class; all operators share one. -/
def shortName : TokenClass → String
  | identifier => "identifier"
  | boolean => "bool"
  | number => "num"
  | quotedText => "@str"
  | text => "str"
  | comma => "comma"
  | leftParen => "lparen"
  | rightParen => "rparen"
  | _ => "op"

/-- Whether a `-` or `!` behind such a token stands in front of an operand. -/
def expectsOperand : TokenClass → Bool
  | rightParen | identifier | boolean | number | quotedText | text | increment | decrement => false
  | _ => true

/-- Whether the token assigns the value of what follows it. -/
def assigns : TokenClass → Bool
  | set | incrementBy | decrementBy => true
  | _ => false

/-- Whether an expression can begin with such a token. -/
def startsExpression : TokenClass → Bool
  | not | minus | leftParen | identifier | boolean | number | quotedText | text => true
  | _ => false

end TokenClass

/-- A piece of a source with its class and the place where it begins. -/
structure Token where
  kind : TokenClass
  lexeme : List Char
  position : Position
  deriving DecidableEq, Inhabited

end FlagScript
