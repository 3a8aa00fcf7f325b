/-!
# Dates and times of TOML

A date, a time, or both, then perhaps with the offset from universal time.
-/

namespace FlagScript.Toml

/-- A number of two digits in a range, and what follows it. -/
def twoDigits? (least most : Nat) : List Char → Option (Nat × List Char)
  | a :: b :: cs =>
    let n := 10 * (a.toNat - '0'.toNat) + (b.toNat - '0'.toNat)
    if a.isDigit && b.isDigit && least ≤ n && n ≤ most then some (n, cs) else none
  | _ => none

/-- What follows a character. -/
def after? (c : Char) : List Char → Option (List Char)
  | x :: cs => if x = c then some cs else none
  | [] => none

def isLeapYear (year : Nat) : Bool := year % 4 == 0 && (year % 100 != 0 || year % 400 == 0)

def daysInMonth (year month : Nat) : Nat :=
  if month = 2 then if isLeapYear year then 29 else 28
  else if [4, 6, 9, 11].contains month then 30
  else 31

/-- Skips a date such as `1979-05-27`. -/
def afterDate? (cs : List Char) : Option (List Char) := do
  let (century, cs) ← twoDigits? 0 99 cs
  let (year, cs) ← twoDigits? 0 99 cs
  let (month, cs) ← twoDigits? 1 12 (← after? '-' cs)
  let (_, cs) ← twoDigits? 1 (daysInMonth (100 * century + year) month) (← after? '-' cs)
  return cs

/-- Skips a time such as `07:32:00` or `07:32:00.25`. A minute may have a leap second. -/
def afterTime? (cs : List Char) : Option (List Char) := do
  let (_, cs) ← twoDigits? 0 23 cs
  let (_, cs) ← twoDigits? 0 59 (← after? ':' cs)
  let (_, cs) ← twoDigits? 0 60 (← after? ':' cs)
  match cs with
  | '.' :: d :: cs => if d.isDigit then some (cs.dropWhile Char.isDigit) else none
  | cs => some cs

/-- Whether a text is nothing, `Z`, or hours and minutes with a sign. -/
def isOffset : List Char → Bool
  | [] => true
  | ['Z'] => true
  | ['z'] => true
  | sign :: cs =>
    (sign == '+' || sign == '-') &&
      match twoDigits? 0 23 cs with
      | some (_, ':' :: cs) => (twoDigits? 0 59 cs).map (·.2) == some []
      | _ => false

/-- A date without a time. -/
def isDate (cs : List Char) : Bool := afterDate? cs == some []

/-- A date, a time, or a date and a time with or without an offset. -/
def isMoment (cs : List Char) : Bool :=
  match afterDate? cs with
  | some [] => true
  | some (separator :: cs) =>
    ['T', 't', ' '].contains separator && (afterTime? cs).any isOffset
  | none => afterTime? cs == some []

end FlagScript.Toml
