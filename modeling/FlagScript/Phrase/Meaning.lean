import FlagScript.Phrase
import FlagScript.Token.Lexer

/-!
# From phrases to expressions

Literals are read, names are put in upper case, and calls are checked against the functions that
there are. An expression may not nest deeper than `maxDepth`, where every operator counts: the
leftmost operand of a chain of operators lies below all of them.
-/

namespace FlagScript

/-- Depth that the nodes of an expression may have, the root at depth 1. -/
def maxDepth : Nat := 256

namespace Token

/-- Takes the backslashes out of a text: each stands in front of a character that stands for
itself. A backslash at the end stands for itself. -/
def unescape : List Char → List Char
  | [] => []
  | ['\\'] => ['\\']
  | '\\' :: c :: cs => c :: unescape cs
  | c :: cs => c :: unescape cs

/-- The text between the two `@` of quoted text. -/
def unquote (lexeme : List Char) : List Char := unescape (lexeme.drop 1).dropLast

/-- One past the greatest integer. -/
def integerEnd : Nat := Nat.pow 2 63

/-- A whole number times a power of ten, or what is left when the power divides it. A power of more
than 64 bits leaves nothing of a number it divides, and is out of range otherwise. -/
def scaleInteger? (base : Nat) (negative : Bool) (exponent : Nat) : Option Nat :=
  if exponent < 19 then
    some (if negative then base / Nat.pow 10 exponent else base * Nat.pow 10 exponent)
  else if negative then some 0
  else none

def isExponentMark (c : Char) : Bool := c == 'e' || c == 'E'

/-- The value of a number without a point, which has to fit into 64 bits with and without the power
of ten behind an `e`. -/
def integer? (lexeme : List Char) : Option Int64 := do
  let base ← (Decimal.nat? (lexeme.takeWhile (!isExponentMark ·))).filter (· < integerEnd)
  let scaled ← match lexeme.dropWhile (!isExponentMark ·) with
    | [] => some base
    | _ :: '-' :: ds => scaleInteger? base true (Decimal.ofDigits ds)
    | _ :: ds => scaleInteger? base false (Decimal.ofDigits ds)
  if scaled < integerEnd then some (Int64.ofNat scaled) else none

/-- The value of a number: a float if it has a point in front of its exponent, and an integer
otherwise. -/
def number (lexeme : List Char) : Except Fault Value :=
  if (lexeme.takeWhile (!isExponentMark ·)).contains '.' then
    match Decimal.binary64? lexeme with
    | some x => .ok (.float x)
    | none => .error (.notANumber (String.ofList lexeme))
  else
    match integer? lexeme with
    | some i => .ok (.int i)
    | none => .error (.numberOutOfRange (String.ofList lexeme))

/-- The literal that a token stands for. -/
def literal (t : Token) : Except Fault Expr :=
  match t.kind with
  | .number => (number t.lexeme).map (.literal · false)
  | .boolean =>
    match Value.truthWord? (String.ofList t.lexeme) with
    | some b => .ok (.literal (.bool b) false)
    | none => .error (.notATruthWord (String.ofList t.lexeme))
  | .quotedText => .ok (.literal (.text (String.ofList (unquote t.lexeme))) true)
  | _ => .ok (.literal (.text (String.ofList (unescape t.lexeme))) false)

/-- The name of a flag or function, in upper case and without its `$`. -/
def name (t : Token) : String := Text.upper (String.ofList (t.lexeme.drop 1))

end Token

namespace Phrase

/-- The operators of one level down the left operands of a phrase, first operator first, in front of
those in `places`. -/
def chainPlaces (level : Nat) (places : List Position) : Phrase → List Position
  | binary op opAt left _ =>
    if op.level = level then chainPlaces level (opAt :: places) left else places
  | _ => places

/-- The operator whose operands would lie too deep, if a chain of operators has its root at a
depth. -/
def chainOverflow? (depth level : Nat) (p : Phrase) : Option Position :=
  (p.chainPlaces level [])[maxDepth - depth]?

/-- Refuses a node that has operands if it stands as deep as a node may. -/
def checkDepth (depth : Nat) (p : Position) : Except Error Unit :=
  if maxDepth ≤ depth then .error (.tooDeep p maxDepth) else .ok ()

/-- Answers an error at a place if a fault was found. -/
def faultAt {α : Type} (p : Position) : Except Fault α → Except Error α
  | .ok a => .ok a
  | .error cause => .error (.fault p cause)

/-- Checks a call against the function of this name. -/
def checkCall (id : Token) (count : Nat) : Except Fault Unit :=
  match Builtin.find? id.name with
  | none => .error (.unknownFunction id.name)
  | some b => if b.accepts count then .ok () else .error (.argumentCount b count)

mutual

/-- The expression that a phrase stands for, if its root stands at the given depth. -/
def meaning (depth : Nat) : Phrase → Except Error Expr
  | literal t => faultAt t.position t.literal
  | flag id => .ok (.flag id.name)
  | step id op => .ok (.step id.name op)
  | assign id op opAt value => do
    checkDepth depth opAt
    return .assign id.name op (← meaning (depth + 1) value)
  | group parenAt inner => do
    checkDepth depth parenAt
    return .group (← meaning (depth + 1) inner)
  | unary op opAt operand => do
    checkDepth depth opAt
    return .unary op (← meaning (depth + 1) operand)
  | call id parenAt args => do
    checkDepth depth parenAt
    let args ← meanings (depth + 1) args
    faultAt id.position (checkCall id args.length)
    return .call id.name args
  | binary op opAt left right => do
    match chainOverflow? depth op.level (binary op opAt left right) with
    | some place => .error (.tooDeep place maxDepth)
    | none =>
      let left ← meaning (depth + 1) left
      return .binary op left (← meaning (depth + 1) right)

/-- The expressions that the arguments of a call stand for. -/
def meanings (depth : Nat) : List Phrase → Except Error (List Expr)
  | [] => .ok []
  | p :: ps => do
    let e ← meaning depth p
    return e :: (← meanings depth ps)

end

end Phrase

end FlagScript
