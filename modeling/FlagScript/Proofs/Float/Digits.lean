import FlagScript.Decimal
import Mathlib.Algebra.Group.Nat.Defs
import Mathlib.Data.List.TakeWhile

/-!
# Digits of numbers

Digits are read as the number that they write, also if the last of them stand behind a point
(`Decimal.ofDigits_pointed`). A magnitude is printed with the digits of its nearest number of so
many places, less zeros at the end (`Decimal.places_eq`).
-/

namespace FlagScript

namespace Decimal

variable {n count : Nat} {cs : List Char}

/-! ## Whole numbers -/

theorem isDigit_of_mem_digitsOf : ∀ c ∈ digitsOf n, c.isDigit = true :=
  fun _ hc => Nat.isDigit_of_mem_toDigits (by decide) (by decide) hc

theorem digitsOf_ne_nil (n : Nat) : digitsOf n ≠ [] := Nat.toDigits_ne_nil

theorem ofDigits_eq (cs : List Char) : ofDigits cs = Nat.ofDigitChars 10 cs 0 :=
  Nat.ofDigitChars_eq_foldl.symm

/-- Digits are read as the number that they write. -/
theorem ofDigits_digitsOf (n : Nat) : ofDigits (digitsOf n) = n := by
  rw [ofDigits_eq]
  exact Nat.ofDigitChars_ten_toDigits

/-- Zeros behind digits multiply their number. -/
theorem ofDigits_append_zeros (cs : List Char) (zeros : Nat) :
    ofDigits (cs ++ List.replicate zeros '0') = ofDigits cs * 10 ^ zeros := by
  rw [ofDigits_eq, Nat.ofDigitChars_append, Nat.ofDigitChars_replicate_zero, ← ofDigits_eq,
    Nat.mul_comm]

/-! ## The last digits -/

theorem length_lowDigits (hcount : 0 < count) : (lowDigits n count).length = count := by
  have hlen : (digitsOf (n % 10 ^ count)).length ≤ count := by
    rw [digitsOf, Nat.length_toDigits_le_iff (by decide) hcount]
    exact Nat.mod_lt n (Nat.pow_pos (by decide))
  rw [lowDigits, List.length_append, List.length_replicate]
  exact Nat.sub_add_cancel hlen

theorem isDigit_of_mem_lowDigits : ∀ c ∈ lowDigits n count, c.isDigit = true := by
  intro c hc
  rw [lowDigits, List.mem_append] at hc
  rcases hc with hzero | hdigit
  · rw [(List.mem_replicate.1 hzero).2]
    decide
  · exact isDigit_of_mem_digitsOf c hdigit

/-- The digits on both sides of the point are those of the number. -/
theorem ofDigits_pointed (hcount : 0 < count) :
    ofDigits (digitsOf (n / 10 ^ count) ++ lowDigits n count) = n := by
  have hlen := length_lowDigits (n := n) hcount
  have hlow : Nat.ofDigitChars 10 (lowDigits n count) 0 = n % 10 ^ count := by
    rw [lowDigits, Nat.ofDigitChars_append, Nat.ofDigitChars_replicate_zero, Nat.mul_zero]
    exact Nat.ofDigitChars_ten_toDigits
  rw [ofDigits_eq, Nat.ofDigitChars_append, Nat.ofDigitChars_eq_ofDigitChars_zero, hlen, hlow,
    ← ofDigits_eq, ofDigits_digitsOf]
  exact Nat.div_add_mod n _

/-! ## A count of places -/

theorem dropTrailingZeros_append (cs : List Char) :
    ∃ zeros, cs = dropTrailingZeros cs ++ List.replicate zeros '0' := by
  have hzeros : cs.reverse.takeWhile (· == '0') =
      List.replicate (cs.reverse.takeWhile (· == '0')).length '0' := by
    refine List.eq_replicate_iff.2 ⟨rfl, fun c hc => ?_⟩
    have hc := List.mem_takeWhile_imp hc
    exact eq_of_beq hc
  refine ⟨(cs.reverse.takeWhile (· == '0')).length, ?_⟩
  calc cs = (cs.reverse.takeWhile (· == '0') ++ cs.reverse.dropWhile (· == '0')).reverse := by
        rw [List.takeWhile_append_dropWhile, List.reverse_reverse]
    _ = dropTrailingZeros cs ++ (cs.reverse.takeWhile (· == '0')).reverse := List.reverse_append
    _ = dropTrailingZeros cs ++ List.replicate (cs.reverse.takeWhile (· == '0')).length '0' := by
        rw [← List.reverse_replicate, ← hzeros]

/-- The number of units of the last of `count` places that is nearest to a magnitude. -/
def inPlaces (count : Nat) (m : Magnitude) : Nat :=
  roundHalfEven (m.units * 10 ^ count) Binary64.oneUnits

/-- A magnitude is printed with the digits of the nearest number of `count` places, less zeros at
the end. -/
theorem places_eq (m : Magnitude) (hcount : 0 < count) :
    ∃ fraction zeros, places count m =
        digitsOf (inPlaces count m / 10 ^ count) ++ '.' :: fraction ∧
      fraction ≠ [] ∧
        lowDigits (inPlaces count m) count = fraction ++ List.replicate zeros '0' := by
  obtain ⟨zeros, hzeros⟩ := dropTrailingZeros_append (lowDigits (inPlaces count m) count)
  have hplaces : places count m = digitsOf (inPlaces count m / 10 ^ count) ++ '.' ::
      if (dropTrailingZeros (lowDigits (inPlaces count m) count)).isEmpty then ['0']
      else dropTrailingZeros (lowDigits (inPlaces count m) count) := rfl
  rw [hplaces]
  by_cases hempty : (dropTrailingZeros (lowDigits (inPlaces count m) count)).isEmpty = true
  · -- all digits are zeros, and one of them stays
    have hlen := length_lowDigits (n := inPlaces count m) hcount
    rw [List.isEmpty_iff.1 hempty, List.nil_append] at hzeros
    rw [hzeros, List.length_replicate] at hlen
    refine ⟨['0'], zeros - 1, by rw [if_pos hempty], List.cons_ne_nil _ _, ?_⟩
    rw [hzeros, List.singleton_append, ← List.replicate_succ, Nat.sub_add_cancel (by omega)]
  · exact ⟨_, zeros, by rw [if_neg hempty], mt List.isEmpty_iff.2 hempty, hzeros⟩

theorem isDigit_of_places {fraction : List Char} {zeros : Nat}
    (h : lowDigits n count = fraction ++ List.replicate zeros '0') :
    ∀ c ∈ fraction, c.isDigit = true := by
  have hlow : ∀ c ∈ lowDigits n count, c.isDigit = true := isDigit_of_mem_lowDigits
  rw [h, List.forall_mem_append] at hlow
  exact hlow.1

end Decimal

end FlagScript
