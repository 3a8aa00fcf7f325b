import FlagScript.Decimal
import FlagScript.Toml.Quoted

/-!
# Numbers of TOML

Digits may be grouped by single underscores between them. A decimal number has no needless zero in
front. What has a point or an exponent is a floating-point number, and all else an integer.
-/

namespace FlagScript.Toml

/-- A nonempty run of digits without the underscores that group them. -/
def ungroup? (isDigit : Char → Bool) : List Char → Option (List Char)
  | [] => none
  | [c] => if isDigit c then some [c] else none
  | c :: '_' :: cs => if isDigit c then (ungroup? isDigit cs).map (c :: ·) else none
  | c :: cs => if isDigit c then (ungroup? isDigit cs).map (c :: ·) else none

/-- Decimal digits without a needless zero in front. -/
def wholeDigits? (cs : List Char) : Option (List Char) :=
  match ungroup? Char.isDigit cs with
  | some ('0' :: _ :: _) => none
  | ds => ds

/-- The bases other than ten, by the letter after the zero. -/
def baseOf? : Char → Option Nat
  | 'x' => some 16
  | 'o' => some 8
  | 'b' => some 2
  | _ => none

/-- Whether a character is a digit of a base up to sixteen. -/
def isDigitOf (base : Nat) (c : Char) : Bool := isHexDigit c && hexValue c < base

/-- An integer of any size: digits of another base without a sign, or decimal ones. -/
def anyInt? : List Char → Option Int
  | '0' :: letter :: ds =>
    match baseOf? letter with
    | some base =>
      (ungroup? (isDigitOf base) ds).map fun ds =>
        ds.foldl (fun n d => base * n + hexValue d) (0 : Nat)
    | none => none
  | cs =>
    let (negative, ds) := Decimal.sign cs
    (wholeDigits? ds).map fun ds =>
      if negative then -(Decimal.ofDigits ds : Int) else Decimal.ofDigits ds

/-- An integer of 64 bits. -/
def int? (cs : List Char) : Option Int64 :=
  match anyInt? cs with
  | none => none
  | some i =>
    if Int64.minValue.toInt ≤ i ∧ i ≤ Int64.maxValue.toInt then some (Int64.ofInt i) else none

/-- The power of ten of a number, with an optional sign. -/
def exponent? (cs : List Char) : Option Int :=
  let (negative, ds) := Decimal.sign cs
  (ungroup? Char.isDigit ds).map fun ds =>
    if negative then -(Decimal.ofDigits ds : Int) else Decimal.ofDigits ds

/-- A number with a point, an exponent or both. -/
def scaled? (cs : List Char) : Option Decimal.Scaled :=
  let isMark (c : Char) : Bool := c == 'e' || c == 'E'
  let mantissa := cs.takeWhile (!isMark ·)
  let whole := wholeDigits? (mantissa.takeWhile (· != '.'))
  let fraction := match mantissa.dropWhile (· != '.') with
    | [] => some []
    | _ :: ds => ungroup? Char.isDigit ds
  let exponent := match cs.dropWhile (!isMark ·) with
    | [] => if mantissa.contains '.' then some 0 else none
    | _ :: ds => exponent? ds
  match whole, fraction, exponent with
  | some whole, some fraction, some x =>
    some ⟨Decimal.ofDigits (whole ++ fraction), x - fraction.length⟩
  | _, _, _ => none

/-- A floating-point number. One too great to be finite is refused, but not one too small. -/
def float? (cs : List Char) : Option Binary64 :=
  let (negative, r) := Decimal.sign cs
  if r = ['n', 'a', 'n'] then some .nan
  else if r = ['i', 'n', 'f'] then some (.signed negative .infinity)
  else
    match scaled? r with
    | some d =>
      let x := Binary64.ofDecimal negative d.digits d.exponent
      if x = .infinity then none else some x
    | none => none

/-- A floating-point number in full, with a point. -/
def writeFloat : Binary64 → List Char
  | .nan => ['n', 'a', 'n']
  | .signed negative m =>
    (if negative then ['-'] else []) ++
      if m = .infinity then ['i', 'n', 'f']
      else if m.val = 0 then ['0', '.', '0']
      else
        let digits := (Decimal.shortest m).positional
        if digits.contains '.' then digits else digits ++ ['.', '0']

end FlagScript.Toml
