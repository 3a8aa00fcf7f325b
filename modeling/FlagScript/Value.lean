import FlagScript.Decimal
import FlagScript.Text.Blank
import FlagScript.Text.Upper

/-!
# Values

A value is an integer of 64 bits, a binary64 number, a text or a truth value. No operation on values
fails: an operand of another kind is converted, mostly to the kind of the left operand, and what
cannot be converted counts as zero.
-/

namespace FlagScript

inductive Value where
  | int (i : Int64)
  | float (x : Binary64)
  | text (s : String)
  | bool (b : Bool)
  deriving DecidableEq

namespace Value

/-- The value of a flag that is not set. -/
def zero : Value := .int 0

instance : Inhabited Value := ⟨zero⟩

/-! ### Text of a value -/

/-- A number with up to nine places after the point, at least one. -/
def floatText : Binary64 → String
  | .nan => "NaN"
  | .signed negative m =>
    String.ofList <|
      (if negative then ['-'] else []) ++
        if m = .infinity then ['i', 'n', 'f'] else Decimal.places 9 m

def toText : Value → String
  | int i => String.ofList (Decimal.ofInt i.toInt)
  | float x => floatText x
  | text s => s
  | bool true => "ON"
  | bool false => "OFF"

instance : ToString Value := ⟨toText⟩

/-- Characters that stand behind a backslash in unquoted text. -/
def isSensitive (c : Char) : Bool :=
  ['\\', '@', ',', '+', '-', '<', '>', '!', '=', '*', '/', '&', '|', '(', ')', '$'].contains c

/-- Escapes a text from its character number `i` on, where the last character has number `last`:
sensitive characters, line ends, and blanks at the ends of the text. -/
def escapeFrom (last i : Nat) : List Char → List Char
  | [] => []
  | c :: cs =>
    let edgeBlank := Text.isBlank c && (i == 0 || i == last)
    let rest := c :: escapeFrom last (i + 1) cs
    if isSensitive c || edgeBlank || c == '\n' || c == '\r' then '\\' :: rest else rest

/-- The value as unquoted text of a script. -/
def escaped (v : Value) : String :=
  let cs := v.toText.toList
  String.ofList (escapeFrom (cs.length - 1) 0 cs)

/-- A character as it stands in quoted text. -/
def quoteEscape (c : Char) : List Char := if c == '@' || c == '\\' then ['\\', c] else [c]

/-- The value as quoted text of a script. -/
def quoted (v : Value) : String :=
  String.ofList ('@' :: v.toText.toList.flatMap quoteEscape ++ ['@'])

/-! ### Conversions -/

def isInt : Value → Bool
  | int _ => true
  | _ => false

def isFloat : Value → Bool
  | float _ => true
  | _ => false

def isText : Value → Bool
  | text _ => true
  | _ => false

def isBool : Value → Bool
  | bool _ => true
  | _ => false

/-- Floats are rounded, halves away from zero; text that is no integer is 0. -/
def asInt : Value → Int64
  | int i => i
  | float x => x.toInt64
  | text s => (Decimal.int64? s.toList).getD 0
  | bool b => if b then 1 else 0

/-- Text that is no number is 0. -/
def asFloat : Value → Binary64
  | int i => .ofInt i.toInt
  | float x => x
  | text s => (Decimal.binary64? s.toList).getD .zero
  | bool b => if b then .ofInt 1 else .zero

/-- Numbers other than zero and texts other than the empty one are true. -/
def truth : Value → Bool
  | int i => i != 0
  | float x => !x.equal .zero
  | text s => !s.isEmpty
  | bool b => b

/-- The value itself if it is a number, and the integer it stands for otherwise. -/
def asNumber : Value → Value
  | int i => int i
  | float x => float x
  | v => int v.asInt

/-- Words that stand for true and false, in upper case. -/
def trueWords : List String := ["TRUE", "ON", "YES"]

def falseWords : List String := ["FALSE", "OFF", "NO"]

/-- The truth value that a word stands for, in any letter case. -/
def truthWord? (word : String) : Option Bool :=
  let w := Text.upper word
  if trueWords.contains w then some true
  else if falseWords.contains w then some false
  else none

/-- The value that a text given outside of scripts stands for: a truth word, a number with a point,
an integer, or else the text. -/
def ofLooseText (s : String) : Value :=
  let cs := s.toList
  match truthWord? s with
  | some b => bool b
  | none =>
    match if cs.contains '.' then Decimal.binary64? cs else none with
    | some x => float x
    | none =>
      match Decimal.int64? cs with
      | some i => int i
      | none => text s

/-! ### Arithmetic -/

/-- Longest text, in bytes, that repetition builds. -/
def maxRepeatBytes : Nat := 0x100000

/-- Text repeated as often as asked and as fits into `maxRepeatBytes`. -/
def repeatText (s : String) (times : Int) : String :=
  let count := min times.toNat (maxRepeatBytes / max s.utf8ByteSize 1)
  (List.replicate count s).foldl (· ++ ·) ""

/-- Joins text to a text; adds numbers, in floating point if either is a float. -/
def add (a b : Value) : Value :=
  match a with
  | text s => text (s ++ b.toText)
  | _ =>
    if a.isFloat || b.isFloat then float (a.asFloat.add b.asFloat) else int (a.asInt + b.asInt)

def sub (a b : Value) : Value :=
  if a.isFloat || b.isFloat then float (a.asFloat.sub b.asFloat) else int (a.asInt - b.asInt)

/-- Repeats a text; multiplies numbers. -/
def mul (a b : Value) : Value :=
  match a with
  | text s => text (repeatText s b.asInt.toInt)
  | _ =>
    if a.isFloat || b.isFloat then float (a.asFloat.mul b.asFloat) else int (a.asInt * b.asInt)

/-- The exact quotient of two integers, if there is one and it needs no wrapping. -/
def exactQuotient? (n d : Int64) : Option Int64 :=
  if d = 0 || n = Int64.minValue && d = -1 || n % d != 0 then none else some (n / d)

/-- An integer only where integers divide exactly. -/
def div (a b : Value) : Value :=
  if a.isFloat || b.isFloat then float (a.asFloat.div b.asFloat)
  else
    match exactQuotient? a.asInt b.asInt with
    | some q => int q
    | none => float (Binary64.div (.ofInt a.asInt.toInt) (.ofInt b.asInt.toInt))

def neg : Value → Value
  | float x => float x.neg
  | v => int (-v.asInt)

/-! ### Logic and comparison -/

def not (a : Value) : Value := bool (!a.truth)

def and (a b : Value) : Value := bool (a.truth && b.truth)

def or (a b : Value) : Value := bool (a.truth || b.truth)

/-- Equality after `b` is converted to the kind of `a`. -/
def equals (a b : Value) : Bool :=
  match a with
  | text s => s == b.toText
  | bool t => t == b.truth
  | float x => x.equal b.asFloat
  | int i => i == b.asInt

/-- Order of numbers, exact between integers and in floating point otherwise. -/
def less (a b : Value) : Bool :=
  match a, b with
  | int i, int j => i < j
  | _, _ => a.asFloat.less b.asFloat

def lessOrEquals (a b : Value) : Bool := a.less b || a.equals b

def greater (a b : Value) : Bool := !a.lessOrEquals b

def greaterOrEquals (a b : Value) : Bool := !a.less b

end Value

end FlagScript
