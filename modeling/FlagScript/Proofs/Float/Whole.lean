import FlagScript.Proofs.Float.Order
import FlagScript.Proofs.Float.Shortest
import Mathlib.Algebra.Group.Int.Defs
import Mathlib.Order.Monotone.Basic

/-!
# Whole numbers in the format

Whole numbers up to `2 ^ 53` are numbers of the format (`Magnitude.units_nearest`). So a number of
the format is equal to such an integer exactly if it is whole and is rounded to it
(`Binary64.equal_ofInt_iff_toInt64`); a fraction may be rounded to it as well, but is not equal.
-/

namespace FlagScript

/-- The greatest whole number up to which the format has them all. -/
def wholeEnd : Nat := 2 * placesPerScale

namespace Magnitude

theorem unitsAt_strictMono : StrictMono unitsAt := strictMono_nat_of_lt_succ unitsAt_lt_succ

theorem units_inj {m m' : Magnitude} (h : m.units = m'.units) : m = m' :=
  Fin.ext (unitsAt_strictMono.injective h)

/-- A number of the format is rounded to itself. -/
theorem nearest_units (m : Magnitude) : nearest m.units 1 = m := by
  have hbelow : unitsAt (m.val - 1) ≤ m.units := unitsAt_strictMono.monotone (Nat.sub_le _ _)
  have habove : m.units < unitsAt (m.val + 1) := unitsAt_lt_succ m.val
  have hself : m.units = unitsAt m.val := rfl
  refine nearest_eq Nat.one_pos ⟨by omega, by omega, fun hodd => ?_⟩
  have hpred : unitsAt (m.val - 1) < unitsAt m.val := unitsAt_strictMono (by omega)
  omega

theorem two_pow_eq_oneUnits {k : Nat} (h : k = 1074) : 2 ^ k = Binary64.oneUnits := by
  subst h
  decide +kernel

/-- Whole numbers have their places as long as their bits fit into a significand. -/
theorem exists_units {n : Nat} (h : n ≤ wholeEnd) :
    ∃ m : Magnitude, m.units = n * Binary64.oneUnits := by
  by_cases hn : n = 0
  · exact ⟨0, by rw [hn, Nat.zero_mul]; rfl⟩
  · -- the bits of `n`, moved up to fill a significand
    have hplaces : placesPerScale = 2 ^ 52 := by decide
    have hlow := Nat.log2_self_le hn
    have hhigh : n < 2 ^ (n.log2 + 1) := Nat.lt_log2_self
    have hfull : placesPerScale ≤ n * 2 ^ (52 - n.log2) := by
      calc placesPerScale ≤ 2 ^ n.log2 * 2 ^ (52 - n.log2) := by
            rw [hplaces, ← Nat.pow_add]
            exact Nat.pow_le_pow_right (by decide) (by omega)
        _ ≤ n * 2 ^ (52 - n.log2) := Nat.mul_le_mul_right _ hlow
    have hfits : n * 2 ^ (52 - n.log2) ≤ 2 * placesPerScale := by
      by_cases hlog : n.log2 ≤ 52
      · calc n * 2 ^ (52 - n.log2) ≤ 2 ^ (n.log2 + 1) * 2 ^ (52 - n.log2) :=
              Nat.mul_le_mul_right _ hhigh.le
          _ = 2 * placesPerScale := by
              rw [hplaces, ← Nat.pow_add, ← Nat.pow_succ']
              congr 1
              omega
      · rw [show 52 - n.log2 = 0 by omega, Nat.pow_zero, Nat.mul_one]
        exact h
    have hunits := unitsAt_eq (t := 1074 - (52 - n.log2)) (.inr hfull) hfits
    have hplace : (1074 - (52 - n.log2)) * placesPerScale + n * 2 ^ (52 - n.log2) <
        2047 * placesPerScale + 1 := by
      have hscale : (1074 - (52 - n.log2)) * placesPerScale ≤ 1074 * placesPerScale :=
        Nat.mul_le_mul_right _ (Nat.sub_le _ _)
      omega
    refine ⟨⟨_, hplace⟩, ?_⟩
    rw [units, hunits, Nat.mul_assoc, ← Nat.pow_add, two_pow_eq_oneUnits (by omega)]

theorem units_nearest {n : Nat} (h : n ≤ wholeEnd) :
    (nearest (n * Binary64.oneUnits) 1).units = n * Binary64.oneUnits := by
  obtain ⟨m, hm⟩ := exists_units h
  rw [← hm, nearest_units]

/-- Infinity lies far behind them. -/
theorem ne_infinity_of_units {n : Nat} {m : Magnitude} (h : n ≤ wholeEnd)
    (hm : m.units = n * Binary64.oneUnits) : m ≠ infinity := by
  rintro rfl
  have hbound : wholeEnd * Binary64.oneUnits < infinity.units := by decide +kernel
  have hle : n * Binary64.oneUnits ≤ wholeEnd * Binary64.oneUnits := Nat.mul_le_mul_right _ h
  omega

end Magnitude

namespace Binary64

variable {x : Binary64} {i : Int} {negative : Bool} {m : Magnitude} {n : Nat}

/-- Whether a number is finite and has no fraction. -/
def IsWhole : Binary64 → Prop
  | nan => False
  | signed _ m => m ≠ .infinity ∧ oneUnits ∣ m.units

instance : DecidablePred IsWhole
  | nan => inferInstanceAs (Decidable False)
  | signed _ m => inferInstanceAs (Decidable (m ≠ .infinity ∧ oneUnits ∣ m.units))

theorem oneUnits_pos : 0 < oneUnits := by decide +kernel

theorem withSign_natAbs (i : Int) : withSign (i < 0) i.natAbs = i := by
  unfold withSign
  split_ifs with h <;> rw [decide_eq_true_eq] at h <;> omega

/-- The sign of zero makes no difference. -/
theorem withSign_eq_iff {negative' : Bool} :
    withSign negative n = withSign negative' n ↔ n = 0 ∨ negative = negative' := by
  unfold withSign
  cases negative <;> cases negative' <;>
    simp only [if_true, if_false, Bool.false_eq_true, reduceCtorEq, or_true, or_false] <;> omega

/-- A whole number of the format is an integer exactly if it has its sign and its units. -/
theorem equal_ofInt_iff (hi : i.natAbs ≤ wholeEnd) :
    (ofInt i).equal (signed negative m) = true ↔
      m.units = i.natAbs * oneUnits ∧ withSign negative i.natAbs = i := by
  have hunits := Magnitude.units_nearest hi
  rw [equal_iff (rank_ofInt i) (rank_signed negative m)]
  constructor
  · intro h
    have hm : Magnitude.nearest (i.natAbs * oneUnits) 1 = m := by
      have habs := congrArg Int.natAbs h
      unfold withSign at habs
      exact Fin.ext (by split_ifs at habs <;> omega)
    subst hm
    refine ⟨hunits, ?_⟩
    -- the sign is lost on zero alone, and only zero is rounded to it
    have hzero : (Magnitude.nearest (i.natAbs * oneUnits) 1).val = 0 → i.natAbs = 0 := by
      intro hzero
      have hnone : (Magnitude.nearest (i.natAbs * oneUnits) 1).units = 0 := by
        rw [Fin.ext (b := (0 : Magnitude)) hzero]
        rfl
      rw [hunits] at hnone
      exact (Nat.mul_eq_zero.1 hnone).resolve_right oneUnits_pos.ne'
    rw [← (withSign_eq_iff.2 ((withSign_eq_iff.1 h).imp_left hzero)), withSign_natAbs]
  · rintro ⟨hm, hsign⟩
    have hplace : Magnitude.nearest (i.natAbs * oneUnits) 1 = m :=
      Magnitude.units_inj (by rw [hunits, hm])
    rw [hplace, withSign_eq_iff]
    have hsame : withSign (i < 0) i.natAbs = withSign negative i.natAbs := by
      rw [hsign, withSign_natAbs]
    refine (withSign_eq_iff.1 hsame).imp_left fun hzero => ?_
    have hnone : m.units = (0 : Magnitude).units := by
      rw [hm, hzero, Nat.zero_mul]
      rfl
    rw [Magnitude.units_inj hnone]
    rfl

/-! ## Rounding to integers -/

theorem toInt_ofInt_clamp (i : Int) :
    (Int64.ofInt (max Int64.minValue.toInt (min Int64.maxValue.toInt i))).toInt =
      max (-2 ^ 63) (min (2 ^ 63 - 1) i) := by
  rw [Int64.toInt_minValue, Int64.toInt_maxValue]
  exact Int64.toInt_ofInt_of_le (by omega) (by omega)

/-- A whole number is rounded to itself, or to the end of the range. -/
theorem toInt_toInt64_of_units (negative : Bool) (hfinite : m ≠ .infinity)
    (h : m.units = n * oneUnits) :
    (signed negative m).toInt64.toInt = max (-2 ^ 63) (min (2 ^ 63 - 1) (withSign negative n)) := by
  have hquot : (2 * m.units + oneUnits) / (2 * oneUnits) = n := by
    have hpos := oneUnits_pos
    rw [h, Nat.div_eq_iff (by omega), ← Nat.mul_assoc, ← Nat.mul_assoc, Nat.mul_comm 2 n]
    omega
  rw [toInt64, round?, if_neg hfinite]
  simp only [hquot]
  exact toInt_ofInt_clamp _

/-- An integer within the end is equal to exactly the whole number that is rounded to it. -/
theorem equal_ofInt_iff_toInt64 {i : Int64} (hi : i.toInt.natAbs ≤ wholeEnd) :
    (ofInt i.toInt).equal x = true ↔ x.IsWhole ∧ x.toInt64 = i := by
  cases x with
  | nan => simp [equal, rank, IsWhole]
  | signed negative m =>
    rw [equal_ofInt_iff hi, ← Int64.toInt_inj]
    constructor
    · rintro ⟨hm, hsign⟩
      have hfinite := Magnitude.ne_infinity_of_units hi hm
      refine ⟨⟨hfinite, i.toInt.natAbs, by rw [hm, Nat.mul_comm]⟩, ?_⟩
      rw [toInt_toInt64_of_units negative hfinite hm, hsign]
      unfold wholeEnd placesPerScale at hi
      omega
    · rintro ⟨⟨hfinite, n, hn⟩, hround⟩
      rw [Nat.mul_comm] at hn
      have hvalue := toInt_toInt64_of_units negative hfinite hn
      have hsign : withSign negative n = i.toInt := by
        unfold wholeEnd placesPerScale at hi
        omega
      have habs : i.toInt.natAbs = n := by
        rw [← hsign]
        cases negative <;> simp [withSign]
      exact ⟨by rw [hn, habs], by rw [habs, hsign]⟩

end Binary64

end FlagScript
