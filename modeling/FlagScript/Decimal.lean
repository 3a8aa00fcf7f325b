import FlagScript.Binary64

/-!
# Decimal text of numbers

Reading: optional sign, digits, fraction and exponent, rounded once to the nearest number.
Writing: a fixed count of places, or the fewest digits that read back as the same number.
-/

namespace FlagScript

namespace Decimal

/-- The number that a run of decimal digits stands for. -/
def ofDigits (cs : List Char) : Nat :=
  cs.foldl (fun n c => 10 * n + (c.toNat - '0'.toNat)) 0

/-- A nonempty run of digits and nothing else. -/
def nat? (cs : List Char) : Option Nat :=
  if cs.isEmpty || !cs.all Char.isDigit then none else some (ofDigits cs)

/-- A sign if there is one, true for minus, and what follows it. -/
def sign : List Char → Bool × List Char
  | '-' :: cs => (true, cs)
  | '+' :: cs => (false, cs)
  | cs => (false, cs)

/-- A run of digits with an optional sign. -/
def int? (cs : List Char) : Option Int :=
  let (negative, digits) := sign cs
  (nat? digits).map fun n => if negative then -(n : Int) else n

/-- An integer in the range of 64 bits. -/
def int64? (cs : List Char) : Option Int64 :=
  match int? cs with
  | none => none
  | some i =>
    if Int64.minValue.toInt ≤ i ∧ i ≤ Int64.maxValue.toInt then some (Int64.ofInt i) else none

/-- Digits and the power of ten they are multiplied with. -/
structure Scaled where
  digits : Nat
  exponent : Int

/-- Digits with an optional point among or beside them and an optional exponent. -/
def scaled? (cs : List Char) : Option Scaled :=
  let whole := cs.takeWhile Char.isDigit
  let afterWhole := cs.dropWhile Char.isDigit
  let tail := match afterWhole with
    | '.' :: r => r
    | _ => []
  let fraction := tail.takeWhile Char.isDigit
  let afterMantissa := match afterWhole with
    | '.' :: _ => tail.dropWhile Char.isDigit
    | r => r
  if whole.isEmpty && fraction.isEmpty then none
  else match afterMantissa with
    | [] => some ⟨ofDigits (whole ++ fraction), -fraction.length⟩
    | e :: r =>
      if e = 'e' || e = 'E' then
        (int? r).map fun x => ⟨ofDigits (whole ++ fraction), x - fraction.length⟩
      else none

/-- Names of the numbers without digits, in lower case. -/
def named? (negative : Bool) (cs : List Char) : Option Binary64 :=
  let word := String.ofList (cs.map Char.toLower)
  if word = "nan" then some .nan
  else if word = "inf" || word = "infinity" then some (.signed negative .infinity)
  else none

/-- A number with an optional sign. -/
def binary64? (cs : List Char) : Option Binary64 :=
  let (negative, r) := sign cs
  match scaled? r with
  | some d => some (.ofDecimal negative d.digits d.exponent)
  | none => named? negative r

/-! ### Writing -/

/-- The digits of a number, without needless zeros. -/
def digitsOf (n : Nat) : List Char := Nat.toDigits 10 n

def ofInt (i : Int) : List Char :=
  if i < 0 then '-' :: digitsOf i.natAbs else digitsOf i.natAbs

/-- The last `places` digits of `n`, with zeros in front where there are fewer. -/
def lowDigits (n places : Nat) : List Char :=
  let ds := digitsOf (n % Nat.pow 10 places)
  List.replicate (places - ds.length) '0' ++ ds

/-- `n / Nat.pow 10 places` with a point before the last `places` digits, at least one. -/
def pointed (n places : Nat) : List Char :=
  digitsOf (n / Nat.pow 10 places) ++ '.' :: lowDigits n places

/-- A text without the zeros that end it. -/
def dropTrailingZeros (cs : List Char) : List Char :=
  (cs.reverse.dropWhile (· == '0')).reverse

/-- A finite magnitude with `places` digits after the point, rounded half to even, less the zeros
at its end but for one right after the point. -/
def places (count : Nat) (m : Magnitude) : List Char :=
  let n := roundHalfEven (m.units * Nat.pow 10 count) Binary64.oneUnits
  let fraction := dropTrailingZeros (lowDigits n count)
  digitsOf (n / Nat.pow 10 count) ++ '.' :: if fraction.isEmpty then ['0'] else fraction

/-! ### Fewest digits -/

/-- Whether `n / d` units read back as `m`: they lie between the midpoints to the neighbouring
places, ends included when `m` is even. -/
def readsAs (m : Magnitude) (n d : Nat) : Bool :=
  let low := (Magnitude.unitsAt (m.val - 1) + m.units) * d
  let high := (m.units + Magnitude.unitsAt (m.val + 1)) * d
  if m.val % 2 = 0 then low ≤ 2 * n && 2 * n ≤ high else low < 2 * n && 2 * n < high

/-- Which of the multiples `c * step` and `(c + 1) * step` around `v` to take, given which of them
read back: the nearer one, and of two equally near ones the greater. -/
def pick? (v step c : Nat) (below above : Bool) : Option Nat :=
  match below, above with
  | false, false => none
  | true, false => some c
  | false, true => some (c + 1)
  | true, true => if v - c * step < (c + 1) * step - v then some c else some (c + 1)

/-- The positive multiple of `10 ^ e` that reads back as `m` and is nearest to it, if there is
one. -/
def gridPoint? (m : Magnitude) (e : Int) : Option Nat :=
  let up := Nat.pow 10 (-e).toNat
  let step := Binary64.oneUnits * Nat.pow 10 e.toNat
  let v := m.units * up
  let c := v / step
  pick? v step c (c != 0 && readsAs m (c * step) up) (readsAs m ((c + 1) * step) up)

/-- The power of ten at which the search for the fewest digits starts, above the leading digit. -/
def topExponent (m : Magnitude) : Int := ((m.units.log2 : Int) - 1074) * 3 / 10 + 2

/-- The fewest digits that read back as a positive finite magnitude: of the powers of ten from the
top down the first with a multiple that reads back. Seventeen digits always suffice. -/
def shortest (m : Magnitude) : Scaled :=
  let found (k : Nat) : Option Scaled :=
    (gridPoint? m (topExponent m - k)).map (⟨·, topExponent m - k⟩)
  ((List.range 40).findSome? found).getD ⟨0, 0⟩

/-- Without an exponent, and with a point only if there are digits after it. -/
def Scaled.positional (d : Scaled) : List Char :=
  if 0 ≤ d.exponent then digitsOf d.digits ++ List.replicate d.exponent.toNat '0'
  else pointed d.digits (-d.exponent).toNat

end Decimal

end FlagScript
