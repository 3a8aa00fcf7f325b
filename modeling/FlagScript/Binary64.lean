/-!
# Binary floating point of 64 bits

A number is `nan` or a sign with a *magnitude*: the place of the number in the increasing list of
the non-negative numbers of the format, so that 0 is zero, 1 is the smallest positive number and
`infinity` ends the list. Order is then order of places, and the place is also the bit pattern.

Every finite number is a whole multiple of the unit `2 ^ (-1074)`. Arithmetic is exact arithmetic
on such multiples, followed by one rounding to the nearest number, halves to the even place.
-/

namespace FlagScript

/-- How many places in a row are equally far apart: `2 ^ 52`. -/
abbrev placesPerScale : Nat := 0x10000000000000

/-- Place of a non-negative number in the increasing list of them; the last place is infinity. -/
abbrev Magnitude := Fin (2047 * placesPerScale + 1)

/-- A number of the 64-bit binary format. -/
inductive Binary64 where
  | nan
  | signed (negative : Bool) (magnitude : Magnitude)
  deriving DecidableEq, Inhabited

namespace Magnitude

/-- The place after every finite number. -/
def infinity : Magnitude := Fin.last _

/-- How many times the spacing at a place has doubled from the finest one. -/
def scaleAt (place : Nat) : Nat := place / placesPerScale - 1

/-- The number at a place, in units of `2 ^ (-1074)`: a significand below `2 ^ 53`, doubled as often
as the spacing. -/
def unitsAt (place : Nat) : Nat :=
  (place - scaleAt place * placesPerScale) * Nat.pow 2 (scaleAt place)

/-- The number at this place, in units of `2 ^ (-1074)`. -/
def units (m : Magnitude) : Nat := unitsAt m.val

end Magnitude

/-- The whole number nearest to `n / d`; of two nearest ones the even one. -/
def roundHalfEven (n d : Nat) : Nat :=
  let q := n / d
  let r := 2 * (n % d)
  if r < d then q else if d < r then q + 1 else q + q % 2

namespace Magnitude

/-- The place nearest to `n / d` units. Below the first doubling the places are the units
themselves; further up the quotient is rounded to 53 significant bits, and a carry out of them
leads to the right place by itself. -/
def nearest (n d : Nat) : Magnitude :=
  let s := (n / d).log2 - 52
  Fin.ofNat _ (min (s * placesPerScale + roundHalfEven n (d * Nat.pow 2 s)) (2047 * placesPerScale))

end Magnitude

namespace Binary64

/-- The number one, in units. -/
def oneUnits : Nat := Nat.pow 2 1074

/-- The positive or negative number whose absolute value is nearest to `n / d`. -/
def ofRatio (negative : Bool) (n d : Nat) : Binary64 :=
  .signed negative (.nearest (n * oneUnits) d)

def zero : Binary64 := .signed false 0

def infinity : Binary64 := .signed false .infinity

def ofInt (i : Int) : Binary64 := ofRatio (i < 0) i.natAbs 1

/-- The number nearest to `digits * 10 ^ exponent`. Exponents far out of the format's range are
answered without computing the power. -/
def ofDecimal (negative : Bool) (digits : Nat) (exponent : Int) : Binary64 :=
  if digits = 0 then .signed negative 0
  else if 400 < exponent then .signed negative .infinity
  else if exponent + digits.log2 + 1100 < 0 then .signed negative 0
  else ofRatio negative (digits * Nat.pow 10 exponent.toNat) (Nat.pow 10 (-exponent).toNat)

def isNaN : Binary64 → Bool
  | nan => true
  | signed _ _ => false

/-! ### The 64-bit pattern -/

/-- The bit that marks negative numbers, the highest of 64. -/
def signBit : Nat := 0x8000000000000000

/-- The bit pattern; every `nan` has the same one. -/
def toBits : Binary64 → Nat
  | nan => 0x7ff8000000000000
  | signed negative m => (if negative then signBit else 0) + m.val

def ofBits (bits : Nat) : Binary64 :=
  if h : bits % signBit < 2047 * placesPerScale + 1 then
    .signed (signBit ≤ bits) ⟨bits % signBit, h⟩
  else .nan

/-! ### Order -/

/-- Signed place: the numbers other than `nan` in increasing order, both zeros at 0. -/
def rank : Binary64 → Option Int
  | nan => none
  | signed negative m => some (if negative then -(m.val : Int) else m.val)

/-- Less than; false on `nan`. -/
def less (a b : Binary64) : Bool :=
  match a.rank, b.rank with
  | some x, some y => x < y
  | _, _ => false

/-- Numeric equality: the zeros are equal, and `nan` equals nothing. -/
def equal (a b : Binary64) : Bool :=
  match a.rank, b.rank with
  | some x, some y => x == y
  | _, _ => false

/-! ### Arithmetic -/

def neg : Binary64 → Binary64
  | nan => nan
  | signed negative m => signed (!negative) m

/-- The signed number of units at a finite place. -/
def signedUnits (negative : Bool) (m : Magnitude) : Int :=
  if negative then -(m.units : Int) else m.units

/-- A sum that cancels is positive zero, unless both terms are negative zeros. -/
def add : Binary64 → Binary64 → Binary64
  | nan, _ => nan
  | _, nan => nan
  | signed s a, signed t b =>
    if a = .infinity then if b = .infinity && s != t then nan else signed s .infinity
    else if b = .infinity then signed t .infinity
    else
      let sum := signedUnits s a + signedUnits t b
      if sum = 0 then signed (s && t) 0 else signed (sum < 0) (.nearest sum.natAbs 1)

def sub (a b : Binary64) : Binary64 := a.add b.neg

def mul : Binary64 → Binary64 → Binary64
  | nan, _ => nan
  | _, nan => nan
  | signed s a, signed t b =>
    if a = .infinity || b = .infinity then
      if a = 0 || b = 0 then nan else signed (s != t) .infinity
    else signed (s != t) (.nearest (a.units * b.units) oneUnits)

/-- Division by zero gives infinity, except of zero itself. -/
def div : Binary64 → Binary64 → Binary64
  | nan, _ => nan
  | _, nan => nan
  | signed s a, signed t b =>
    if a = .infinity then if b = .infinity then nan else signed (s != t) .infinity
    else if b = .infinity then signed (s != t) 0
    else if b = 0 then if a = 0 then nan else signed (s != t) .infinity
    else signed (s != t) (.nearest (a.units * oneUnits) b.units)

/-! ### Whole numbers -/

/-- The nearest whole number, halves away from zero; none for `nan` and the infinities. -/
def round? : Binary64 → Option Int
  | nan => none
  | signed negative m =>
    if m = .infinity then none
    else
      let n := (2 * m.units + oneUnits) / (2 * oneUnits)
      some (if negative then -(n : Int) else n)

/-- The nearest 64-bit integer, halves away from zero; numbers out of range give the nearer end of
the range, and `nan` gives 0. -/
def toInt64 : Binary64 → Int64
  | nan => 0
  | signed negative m =>
    match round? (signed negative m) with
    | none => if negative then Int64.minValue else Int64.maxValue
    | some i => Int64.ofInt (max Int64.minValue.toInt (min Int64.maxValue.toInt i))

end Binary64

end FlagScript
