/-!
# Sets of characters
-/

namespace FlagScript.Text

/-- How many entries of an increasing array are at most `x`, between the bounds `lo` and `hi`. -/
def countUpToFrom (a : Array Nat) (x lo hi : Nat) : Nat :=
  if lo < hi then
    let mid := (lo + hi) / 2
    if a.getD mid 0 ≤ x then countUpToFrom a x (mid + 1) hi else countUpToFrom a x lo mid
  else lo
  termination_by hi - lo

/-- How many entries of an increasing array are at most `x`. -/
def countUpTo (a : Array Nat) (x : Nat) : Nat := countUpToFrom a x 0 a.size

/-- A set of characters, given by the places where membership changes: the first is the first
member, the second the first character after it that is none, and so on. -/
structure CharSet where
  changes : Array Nat

namespace CharSet

def contains (s : CharSet) (c : Char) : Bool := countUpTo s.changes c.toNat % 2 = 1

end CharSet

end FlagScript.Text
