import FlagScript.Binary64
import Mathlib.Algebra.Group.Nat.Defs

/-!
# Rounding to a given number

Each place has a significand below `2 ^ 53` that is doubled a number of times, and only without
doubling is it below `2 ^ 52`. What lies between the midpoints to the neighbouring places is rounded
to the place between them (`nearest_eq`). At a power of two the midpoint below is nearer than the
one above, and what lies there is rounded with the finer spacing.
-/

namespace FlagScript

variable {n d k q s t f place : Nat}

/-- A quotient is rounded to what is less than a half away, or a half away and even. -/
theorem roundHalfEven_eq (hd : 0 < d) (hlow : 2 * (k * d) ≤ 2 * n + d)
    (hhigh : 2 * n ≤ 2 * (k * d) + d)
    (hodd : k % 2 = 1 → 2 * (k * d) < 2 * n + d ∧ 2 * n < 2 * (k * d) + d) :
    roundHalfEven n d = k := by
  have hn : d * (n / d) + n % d = n := Nat.div_add_mod n d
  have hr : n % d < d := Nat.mod_lt n hd
  rw [Nat.mul_comm] at hn
  -- both bounds leave the quotient and the number after it; the remainder decides
  have hk : k = n / d ∨ k = n / d + 1 := by
    have hbelow : k < n / d + 2 := by
      apply Nat.lt_of_mul_lt_mul_right (a := d)
      rw [Nat.add_mul]
      omega
    have habove : n / d < k + 1 := by
      apply Nat.lt_of_mul_lt_mul_right (a := d)
      rw [Nat.succ_mul]
      omega
    omega
  unfold roundHalfEven
  simp only
  rcases hk with hk | hk
  · have hkd : k * d = n / d * d := by rw [hk]
    split
    next => exact hk.symm
    next =>
      rw [if_neg (by omega)]
      omega
  · have hkd : k * d = n / d * d + d := by rw [hk, Nat.succ_mul]
    rw [if_neg (by omega)]
    split
    next => exact hk.symm
    next => omega

namespace Magnitude

/-! ## Places -/

/-- The place of a significand `f` that is doubled `t` times. -/
structure Spaced (place t f : Nat) : Prop where
  place_eq : place = t * placesPerScale + f
  lt : f < 2 * placesPerScale
  le : t = 0 ∨ placesPerScale ≤ f

theorem exists_spaced (place : Nat) : ∃ t f, Spaced place t f := by
  refine ⟨scaleAt place, place - scaleAt place * placesPerScale, ?_, ?_, ?_⟩ <;>
    unfold scaleAt placesPerScale <;> omega

/-- The units of a significand. It may also be the one after the last of its spacing. -/
theorem unitsAt_eq (hle : t = 0 ∨ placesPerScale ≤ f) (hlt : f ≤ 2 * placesPerScale) :
    unitsAt (t * placesPerScale + f) = f * 2 ^ t := by
  have hscale : scaleAt (t * placesPerScale + f) = t ∨
      f = 2 * placesPerScale ∧ scaleAt (t * placesPerScale + f) = t + 1 := by
    unfold scaleAt placesPerScale at *
    omega
  unfold unitsAt
  rcases hscale with hs | ⟨rfl, hs⟩
  · rw [hs, Nat.add_sub_cancel_left, Nat.pow_eq]
  · have hsub : t * placesPerScale + 2 * placesPerScale - (t + 1) * placesPerScale =
        placesPerScale := by
      rw [Nat.succ_mul t]
      omega
    rw [hs, hsub, Nat.pow_eq, Nat.pow_succ, Nat.mul_comm (2 ^ t), ← Nat.mul_assoc,
      Nat.mul_comm 2]

namespace Spaced

theorem unitsAt_self (h : Spaced place t f) : unitsAt place = f * 2 ^ t := by
  have hlt := h.lt
  rw [h.place_eq, unitsAt_eq h.le (by omega)]

theorem unitsAt_succ (h : Spaced place t f) : unitsAt (place + 1) = (f + 1) * 2 ^ t := by
  have hlt := h.lt
  have hle := h.le
  rw [h.place_eq, Nat.add_assoc, unitsAt_eq (by omega) (by omega)]

/-- In front of a power of two the spacing is half as wide. -/
theorem unitsAt_pred_of_eq (h : Spaced place t f) (ht : 0 < t) (hf : f = placesPerScale) :
    unitsAt (place - 1) = (2 * placesPerScale - 1) * 2 ^ (t - 1) := by
  have hplace : place - 1 = (t - 1) * placesPerScale + (2 * placesPerScale - 1) := by
    rw [h.place_eq, hf]
    unfold placesPerScale
    omega
  rw [hplace, unitsAt_eq (by omega) (by omega)]

/-- Elsewhere the place in front has the significand in front. -/
theorem unitsAt_pred (h : Spaced place t f) (hne : t = 0 ∨ f ≠ placesPerScale) :
    unitsAt (place - 1) = (f - 1) * 2 ^ t := by
  have hlt := h.lt
  have hle := h.le
  by_cases hzero : f = 0
  · obtain rfl : t = 0 := by omega
    obtain rfl : place = 0 := by rw [h.place_eq, hzero, Nat.zero_mul]
    rw [hzero]
    rfl
  · have hplace : place - 1 = t * placesPerScale + (f - 1) := by
      have := h.place_eq
      omega
    rw [hplace, unitsAt_eq (by omega) (by omega)]

theorem le_unitsAt_pred (h : Spaced place t f) :
    (f - 1) * 2 ^ t ≤ unitsAt (place - 1) := by
  by_cases hne : t = 0 ∨ f ≠ placesPerScale
  · exact Nat.le_of_eq (h.unitsAt_pred hne).symm
  · obtain ⟨ht, hf⟩ : 0 < t ∧ f = placesPerScale := by omega
    have hpow : 2 ^ t = 2 * 2 ^ (t - 1) := by rw [Nat.mul_comm, Nat.pow_pred_mul ht]
    rw [h.unitsAt_pred_of_eq ht hf, hf, hpow, ← Nat.mul_assoc]
    exact Nat.mul_le_mul_right _ (by omega)

end Spaced

/-! ## The nearest place -/

/-- A quotient that has `s` bits more than a significand is rounded with the spacing `2 ^ s`. -/
theorem log2_sub (hlow : s = 0 ∨ placesPerScale * 2 ^ s ≤ q)
    (hhigh : q < 2 * placesPerScale * 2 ^ s) : q.log2 - 52 = s := by
  have hplaces : placesPerScale = 2 ^ 52 := by decide
  rw [hplaces] at hlow hhigh
  rw [← Nat.pow_add] at hlow
  rw [← Nat.pow_succ', ← Nat.pow_add] at hhigh
  by_cases hq : q = 0
  · have hpos : 0 < 2 ^ (52 + s) := Nat.two_pow_pos _
    obtain rfl : s = 0 := by omega
    rw [hq]
    decide
  · have hlog : q.log2 < 52 + 1 + s := (Nat.log2_lt hq).2 hhigh
    rcases hlow with rfl | hlow
    · omega
    · have := (Nat.le_log2 hq).2 hlow
      omega

theorem nearest_of_scale {m : Magnitude} (hscale : (n / d).log2 - 52 = s)
    (hplace : s * placesPerScale + roundHalfEven n (d * 2 ^ s) = m.val) : nearest n d = m := by
  unfold nearest
  simp only [hscale, Nat.pow_eq, hplace]
  have hm := m.isLt
  rw [Nat.min_eq_left (by omega)]
  exact Fin.ofNat_val_eq_self m

/-- Whether `n / d` units lie between the midpoints to the neighbouring places, ends included if the
place is even. -/
structure Nears (place n d : Nat) : Prop where
  low : (unitsAt (place - 1) + unitsAt place) * d ≤ 2 * n
  high : 2 * n ≤ (unitsAt place + unitsAt (place + 1)) * d
  odd : place % 2 = 1 → (unitsAt (place - 1) + unitsAt place) * d < 2 * n ∧
    2 * n < (unitsAt place + unitsAt (place + 1)) * d

instance : Decidable (Nears place n d) :=
  decidable_of_iff (_ ∧ _ ∧ (_ → _)) ⟨fun h => ⟨h.1, h.2.1, h.2.2⟩, fun h => ⟨h.1, h.2, h.3⟩⟩

theorem mul_two_pow_mul (f t d : Nat) : f * 2 ^ t * d = f * (d * 2 ^ t) := by
  rw [Nat.mul_assoc, Nat.mul_comm (2 ^ t)]

/-- Midpoints are half a spacing away; the one below may be nearer. -/
theorem Spaced.bounds (h : Spaced place t f) (hn : Nears place n d) :
    2 * (f * (d * 2 ^ t)) ≤ 2 * n + d * 2 ^ t ∧ 2 * n ≤ 2 * (f * (d * 2 ^ t)) + d * 2 ^ t ∧
      (place % 2 = 1 → 2 * (f * (d * 2 ^ t)) < 2 * n + d * 2 ^ t ∧
        2 * n < 2 * (f * (d * 2 ^ t)) + d * 2 ^ t) := by
  have hpred : (f - 1) * (d * 2 ^ t) ≤ unitsAt (place - 1) * d := by
    rw [← mul_two_pow_mul]
    exact Nat.mul_le_mul_right d h.le_unitsAt_pred
  have hf : f * (d * 2 ^ t) ≤ (f - 1) * (d * 2 ^ t) + d * 2 ^ t := by
    rw [← Nat.succ_mul (f - 1)]
    exact Nat.mul_le_mul_right _ (by omega)
  have hsucc : (f + 1) * (d * 2 ^ t) = f * (d * 2 ^ t) + d * 2 ^ t := Nat.succ_mul f _
  obtain ⟨hlow, hhigh, hodd⟩ := hn
  simp only [h.unitsAt_self, h.unitsAt_succ, Nat.add_mul _ _ d, mul_two_pow_mul] at hlow hhigh hodd
  refine ⟨by omega, by omega, fun hplace => ?_⟩
  have := hodd hplace
  omega

variable {m : Magnitude}

theorem nearest_of_spacing (hd : 0 < d) (h : Spaced m.val t f) (hn : Nears m.val n d)
    (hscale : t = 0 ∨ placesPerScale * (d * 2 ^ t) ≤ n) : nearest n d = m := by
  have hstep : 0 < d * 2 ^ t := Nat.mul_pos hd (Nat.two_pow_pos t)
  have hplace := h.place_eq
  obtain ⟨hlow, hhigh, hodd⟩ := h.bounds hn
  have hsmall : n < 2 * placesPerScale * (d * 2 ^ t) := by
    have hle : (f + 1) * (d * 2 ^ t) ≤ 2 * placesPerScale * (d * 2 ^ t) :=
      Nat.mul_le_mul_right _ h.lt
    rw [Nat.succ_mul f] at hle
    omega
  have hparity : f % 2 = 1 → m.val % 2 = 1 := by
    unfold placesPerScale at hplace
    omega
  refine nearest_of_scale (log2_sub (s := t) ?_ ?_) ?_
  · rwa [Nat.le_div_iff_mul_le hd, mul_two_pow_mul]
  · rwa [Nat.div_lt_iff_lt_mul hd, mul_two_pow_mul]
  · rw [roundHalfEven_eq hstep hlow hhigh fun hf => hodd (hparity hf), hplace]

/-- Below a power of two the spacing is half as wide; its last significand but one doubled is the
power of two. -/
theorem nearest_of_finer (hd : 0 < d) (h : Spaced m.val t f) (hn : Nears m.val n d)
    (ht : 0 < t) (hbelow : n < placesPerScale * (d * 2 ^ t)) : nearest n d = m := by
  have hstep : 0 < d * 2 ^ (t - 1) := Nat.mul_pos hd (Nat.two_pow_pos _)
  have hplace := h.place_eq
  -- below the first number of a scale, a significand can only be the first one
  have hfirst : f = placesPerScale := by
    obtain ⟨hlow, -, -⟩ := h.bounds hn
    have hlt : f < placesPerScale + 1 := by
      apply Nat.lt_of_mul_lt_mul_right (a := d * 2 ^ t)
      rw [Nat.succ_mul placesPerScale]
      omega
    have hle := h.le
    omega
  have hpow : d * 2 ^ t = 2 * (d * 2 ^ (t - 1)) := by
    rw [Nat.mul_left_comm, Nat.mul_comm 2, Nat.pow_pred_mul ht]
  have hlow := hn.low
  rw [h.unitsAt_self, h.unitsAt_pred_of_eq ht hfirst, hfirst, Nat.add_mul, mul_two_pow_mul,
    mul_two_pow_mul, hpow] at hlow
  rw [hpow] at hbelow
  unfold placesPerScale at hlow hbelow
  -- rounding takes place in the scale below, where the spacing is half as wide
  refine nearest_of_scale (log2_sub (s := t - 1) ?_ ?_) ?_
  · rw [Nat.le_div_iff_mul_le hd, mul_two_pow_mul]
    unfold placesPerScale
    omega
  · rw [Nat.div_lt_iff_lt_mul hd, mul_two_pow_mul]
    unfold placesPerScale
    omega
  · have hround : roundHalfEven n (d * 2 ^ (t - 1)) = 2 * placesPerScale := by
      apply roundHalfEven_eq hstep <;> unfold placesPerScale <;> omega
    rw [hround, hplace, hfirst]
    unfold placesPerScale
    omega

/-- What is between the midpoints is rounded to the place. -/
theorem nearest_eq (hd : 0 < d) (hn : Nears m.val n d) : nearest n d = m := by
  obtain ⟨t, f, h⟩ := exists_spaced m.val
  by_cases hscale : t = 0 ∨ placesPerScale * (d * 2 ^ t) ≤ n
  · exact nearest_of_spacing hd h hn hscale
  · rw [not_or, Nat.not_le] at hscale
    exact nearest_of_finer hd h hn (Nat.pos_of_ne_zero hscale.1) hscale.2

end Magnitude

end FlagScript
