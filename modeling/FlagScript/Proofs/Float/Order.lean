import FlagScript.Proofs.Float.Nearest
import Mathlib.Order.MinMax
import Mathlib.Tactic.SplitIfs

/-!
# Rounding keeps the order

Of two quotients with one denominator the greater is never rounded to the lower place
(`Magnitude.nearest_mono`): with one spacing because rounding to whole numbers keeps the order, and
with two because the last significand of the finer spacing, rounded up, is the first of the next
one. So whole numbers are put into the format in their order (`Binary64.rank_ofInt_mono`).
-/

namespace FlagScript

variable {n n' d : Nat}

/-! ## Whole numbers -/

theorem div_le_roundHalfEven (n d : Nat) : n / d ≤ roundHalfEven n d := by
  unfold roundHalfEven
  simp only
  split_ifs <;> omega

theorem roundHalfEven_le (n d : Nat) : roundHalfEven n d ≤ n / d + 1 := by
  unfold roundHalfEven
  simp only
  split_ifs <;> omega

theorem roundHalfEven_mono (d : Nat) (h : n ≤ n') : roundHalfEven n d ≤ roundHalfEven n' d := by
  rcases Nat.lt_or_eq_of_le (Nat.div_le_div_right (c := d) h) with hlt | heq
  · exact (roundHalfEven_le n d).trans (Nat.le_trans hlt (div_le_roundHalfEven n' d))
  · -- with one quotient the remainders are in order
    have hn := Nat.div_add_mod n d
    have hn' := Nat.div_add_mod n' d
    rw [heq] at hn
    have hrest : n % d ≤ n' % d := by omega
    unfold roundHalfEven
    simp only [heq]
    split_ifs <;> omega

namespace Magnitude

/-- The place of a quotient, if the format had no greatest one. -/
theorem val_nearest (n d : Nat) :
    (nearest n d).val =
      min (((n / d).log2 - 52) * placesPerScale + roundHalfEven n (d * 2 ^ ((n / d).log2 - 52)))
        (2047 * placesPerScale) := by
  unfold nearest
  simp only [Nat.pow_eq, Fin.ofNat, Nat.mod_eq_iff_lt (Nat.succ_ne_zero _)]
  omega

/-- A quotient has at most 53 bits at its spacing. -/
theorem div_scaled_lt (n d : Nat) : n / (d * 2 ^ ((n / d).log2 - 52)) < 2 * placesPerScale := by
  have hplaces : 2 * placesPerScale = 2 ^ 53 := by decide
  rw [← Nat.div_div_eq_div_mul, hplaces, Nat.div_lt_iff_lt_mul (Nat.two_pow_pos _), ← Nat.pow_add]
  have hlog : n / d < 2 ^ ((n / d).log2 + 1) := Nat.lt_log2_self
  exact hlog.trans_le (Nat.pow_le_pow_right (by decide) (by omega))

/-- Where there is doubling, a quotient has at least 53 bits. -/
theorem le_div_scaled (h : 0 < (n / d).log2 - 52) :
    placesPerScale ≤ n / (d * 2 ^ ((n / d).log2 - 52)) := by
  have hplaces : placesPerScale = 2 ^ 52 := by decide
  have hne : n / d ≠ 0 := by
    intro hzero
    rw [hzero] at h
    exact absurd h (by decide)
  rw [← Nat.div_div_eq_div_mul, hplaces, Nat.le_div_iff_mul_le (Nat.two_pow_pos _), ← Nat.pow_add]
  exact (Nat.pow_le_pow_right (by decide) (by omega)).trans (Nat.log2_self_le hne)

theorem log2_mono (h : n ≤ n') : n.log2 ≤ n'.log2 := by
  by_cases hn : n = 0
  · rw [hn, Nat.log2_zero]
    exact Nat.zero_le _
  · exact (Nat.le_log2 (by omega)).2 ((Nat.log2_self_le hn).trans h)

theorem nearest_mono (d : Nat) (h : n ≤ n') : (nearest n d).val ≤ (nearest n' d).val := by
  have hlog : (n / d).log2 - 52 ≤ (n' / d).log2 - 52 :=
    Nat.sub_le_sub_right (log2_mono (Nat.div_le_div_right h)) 52
  rw [val_nearest, val_nearest]
  refine min_le_min_right _ ?_
  rcases Nat.lt_or_eq_of_le hlog with hlt | heq
  · -- the wider spacing begins where the finer one ends
    have hbelow := (roundHalfEven_le _ _).trans (div_scaled_lt n d)
    have habove := (le_div_scaled (Nat.zero_lt_of_lt hlt)).trans (div_le_roundHalfEven n' _)
    have hscale : ((n / d).log2 - 52 + 1) * placesPerScale ≤
        ((n' / d).log2 - 52) * placesPerScale := Nat.mul_le_mul_right _ hlt
    rw [Nat.succ_mul] at hscale
    omega
  · rw [heq]
    exact Nat.add_le_add_left (roundHalfEven_mono _ h) _

end Magnitude

namespace Binary64

variable {a b c : Binary64} {x y z : Int}

theorem less_iff (ha : a.rank = some x) (hb : b.rank = some y) : a.less b = true ↔ x < y := by
  simp [less, ha, hb]

theorem equal_iff (ha : a.rank = some x) (hb : b.rank = some y) : a.equal b = true ↔ x = y := by
  simp [equal, ha, hb]

theorem equal_comm (a b : Binary64) : a.equal b = b.equal a := by
  unfold equal
  cases a.rank <;> cases b.rank <;> first | rfl | exact Bool.beq_comm

/-- Only numbers other than `nan` are in an order. -/
theorem exists_rank_of_less (h : a.less b = true) :
    ∃ x y, a.rank = some x ∧ b.rank = some y ∧ x < y := by
  unfold less at h
  split at h
  next x y hx hy => exact ⟨x, y, hx, hy, by simpa using h⟩
  next => cases h

theorem exists_rank_of_isNaN (h : a.isNaN = false) : ∃ x, a.rank = some x := by
  cases a with
  | nan => cases h
  | signed negative m => exact ⟨_, rfl⟩

/-- A sign and an absolute value. -/
def withSign (negative : Bool) (n : Nat) : Int := if negative then -(n : Int) else n

theorem rank_signed (negative : Bool) (m : Magnitude) :
    (signed negative m).rank = some (withSign negative m.val) := rfl

theorem rank_ofInt (i : Int) :
    (ofInt i).rank = some (withSign (i < 0) (Magnitude.nearest (i.natAbs * oneUnits) 1).val) := rfl

/-- Whole numbers are put into the format in their order. -/
theorem rank_ofInt_mono {i j : Int} (h : i ≤ j) (hx : (ofInt i).rank = some x)
    (hy : (ofInt j).rank = some y) : x ≤ y := by
  have hplaces : ∀ {k l : Int}, k.natAbs ≤ l.natAbs →
      (Magnitude.nearest (k.natAbs * oneUnits) 1).val ≤
        (Magnitude.nearest (l.natAbs * oneUnits) 1).val :=
    fun hkl => Magnitude.nearest_mono 1 (Nat.mul_le_mul_right _ hkl)
  simp only [rank_ofInt, withSign, decide_eq_true_eq, Option.some.injEq] at hx hy
  subst hx hy
  split_ifs with hi hj
  · exact Int.neg_le_neg (Int.ofNat_le.2 (hplaces (by omega)))
  · omega
  · omega
  · exact Int.ofNat_le.2 (hplaces (by omega))

end Binary64

end FlagScript
