import FlagScript.Decimal
import FlagScript.Proofs.Float.Nearest

/-!
# Fewest digits read back

A multiple of a power of ten that the search accepts lies between the midpoints around the number,
so it reads back as the number (`gridPoint?_eq_some`). The search comes to an end: once the
multiples are closer together than half the distance to the number in front, the one below the
number is accepted, and the last power that is tried is small enough for all numbers.
-/

namespace FlagScript

namespace Magnitude

variable {m : Magnitude} {place n d k : Nat}

/-- A quotient lies where it lies, however it is expanded. -/
theorem Nears.scale (hk : 0 < k) (h : Nears place n d) : Nears place (n * k) (d * k) := by
  obtain ⟨hlow, hhigh, hodd⟩ := h
  constructor
  · rw [← Nat.mul_assoc, ← Nat.mul_assoc]
    exact Nat.mul_le_mul_right k hlow
  · rw [← Nat.mul_assoc, ← Nat.mul_assoc]
    exact Nat.mul_le_mul_right k hhigh
  · intro hplace
    rw [← Nat.mul_assoc, ← Nat.mul_assoc, ← Nat.mul_assoc]
    exact ⟨Nat.mul_lt_mul_of_pos_right (hodd hplace).1 hk,
      Nat.mul_lt_mul_of_pos_right (hodd hplace).2 hk⟩

/-! ## Distances -/

theorem unitsAt_lt_succ (place : Nat) : unitsAt place < unitsAt (place + 1) := by
  obtain ⟨t, f, h⟩ := exists_spaced place
  rw [h.unitsAt_self, h.unitsAt_succ]
  exact Nat.mul_lt_mul_of_pos_right (Nat.lt_succ_self f) (Nat.two_pow_pos t)

/-- The number in front of one of `bits + 1` bits is at least `2 ^ (bits - 53)` away. -/
theorem unitsAt_pred_add_le (hpos : 0 < m.val) :
    unitsAt (m.val - 1) + 2 ^ (m.units.log2 - 53) ≤ m.units := by
  obtain ⟨t, f, h⟩ := exists_spaced m.val
  have hplaces : placesPerScale = 2 ^ 52 := by decide
  have hplace := h.place_eq
  have hf : 0 < f := by
    have hle := h.le
    unfold placesPerScale at hle hplace
    omega
  have hunits : m.units = f * 2 ^ t := h.unitsAt_self
  have hne : f * 2 ^ t ≠ 0 := Nat.ne_of_gt (Nat.mul_pos hf (Nat.two_pow_pos t))
  rw [hunits]
  by_cases hfirst : t = 0 ∨ f ≠ placesPerScale
  · have hlog : (f * 2 ^ t).log2 < 53 + t := by
      rw [Nat.log2_lt hne, Nat.pow_add]
      exact Nat.mul_lt_mul_of_pos_right (by simpa [hplaces] using h.lt) (Nat.two_pow_pos t)
    have hpow : 2 ^ ((f * 2 ^ t).log2 - 53) ≤ 2 ^ t := Nat.pow_le_pow_right (by decide) (by omega)
    have hstep : f * 2 ^ t = (f - 1) * 2 ^ t + 2 ^ t := by
      rw [← Nat.succ_mul, Nat.succ_eq_add_one, Nat.sub_add_cancel hf]
    rw [h.unitsAt_pred hfirst]
    omega
  · -- a power of two: the spacing below is half as wide
    obtain ⟨ht, rfl⟩ : 0 < t ∧ f = placesPerScale := by omega
    have hlog : (placesPerScale * 2 ^ t).log2 = 52 + t := by
      rw [hplaces, ← Nat.pow_add, Nat.log2_two_pow]
    have hpow : 2 ^ t = 2 * 2 ^ (t - 1) := by rw [Nat.mul_comm, Nat.pow_pred_mul ht]
    rw [h.unitsAt_pred_of_eq ht rfl, hlog, hpow, show 52 + t - 53 = t - 1 by omega]
    unfold placesPerScale
    omega

/-- Finite numbers have at most 2098 bits before the point that the unit sets. -/
theorem log2_units_lt (hfinite : m ≠ infinity) : m.units.log2 < 2098 := by
  obtain ⟨t, f, h⟩ := exists_spaced m.val
  have hm : m.val < 2047 * placesPerScale :=
    Nat.lt_of_le_of_ne (Nat.le_of_lt_succ m.isLt) fun heq => hfinite (Fin.ext heq)
  have ht : t ≤ 2045 := by
    have hle := h.le
    rw [h.place_eq] at hm
    unfold placesPerScale at *
    omega
  have hunits : m.units = f * 2 ^ t := h.unitsAt_self
  by_cases hzero : m.units = 0
  · rw [hzero]
    decide
  · have hlog : m.units.log2 < 53 + t := by
      rw [Nat.log2_lt hzero, hunits, Nat.pow_add]
      exact Nat.mul_lt_mul_of_pos_right h.lt (Nat.two_pow_pos t)
    omega

end Magnitude

namespace Decimal

open Magnitude

variable {m : Magnitude} {e : Int} {c d n : Nat}

/-- A power of ten is a quotient of units; this is its numerator. -/
def powerUnits (e : Int) : Nat := Binary64.oneUnits * Nat.pow 10 e.toNat

/-- The denominator of a power of ten. -/
def powerDenominator (e : Int) : Nat := Nat.pow 10 (-e).toNat

theorem powerUnits_natCast (n : Nat) : powerUnits n = Binary64.oneUnits * 10 ^ n := by
  rw [powerUnits, Int.toNat_natCast, Nat.pow_eq]

theorem powerUnits_neg (n : Nat) : powerUnits (-n) = Binary64.oneUnits := by
  rw [powerUnits, Int.toNat_of_nonpos (by omega), Nat.pow_eq, Nat.pow_zero, Nat.mul_one]

theorem powerDenominator_natCast (n : Nat) : powerDenominator n = 1 := by
  rw [powerDenominator, Int.toNat_of_nonpos (by omega), Nat.pow_eq, Nat.pow_zero]

theorem powerDenominator_neg (n : Nat) : powerDenominator (-n) = 10 ^ n := by
  rw [powerDenominator, Int.neg_neg, Int.toNat_natCast, Nat.pow_eq]

theorem powerUnits_pos (e : Int) : 0 < powerUnits e :=
  Nat.mul_pos (by decide +kernel) (Nat.pow_pos (by decide))

theorem powerDenominator_pos (e : Int) : 0 < powerDenominator e := Nat.pow_pos (by decide)

/-! ## Multiples that read back -/

theorem readsAs_iff : readsAs m n d = true ↔ Nears m.val n d := by
  unfold readsAs
  split
  next heven =>
    rw [Bool.and_eq_true, decide_eq_true_iff, decide_eq_true_iff]
    exact ⟨fun h => ⟨h.1, h.2, fun hodd => by omega⟩, fun h => ⟨h.low, h.high⟩⟩
  next hodd =>
    rw [Bool.and_eq_true, decide_eq_true_iff, decide_eq_true_iff]
    exact ⟨fun h => ⟨Nat.le_of_lt h.1, Nat.le_of_lt h.2, fun _ => h⟩, fun h => h.odd (by omega)⟩

theorem pick?_eq_some {v step : Nat} {below above : Bool}
    (h : pick? v step c below above = some d) :
    d = c ∧ below = true ∨ d = c + 1 ∧ above = true := by
  unfold pick? at h
  split at h
  next => cases h
  next => exact .inl ⟨(Option.some.inj h).symm, rfl⟩
  next => exact .inr ⟨(Option.some.inj h).symm, rfl⟩
  next =>
    split at h
    next => exact .inl ⟨(Option.some.inj h).symm, rfl⟩
    next => exact .inr ⟨(Option.some.inj h).symm, rfl⟩

theorem pick?_eq_none {v step : Nat} {below above : Bool}
    (h : pick? v step c below above = none) : below = false := by
  unfold pick? at h
  split at h
  next => rfl
  next => cases h
  next => rfl
  next => split at h <;> cases h

theorem gridPoint?_eq (hc : m.units * powerDenominator e / powerUnits e = c) :
    gridPoint? m e =
      pick? (m.units * powerDenominator e) (powerUnits e) c
        (c != 0 && readsAs m (c * powerUnits e) (powerDenominator e))
        (readsAs m ((c + 1) * powerUnits e) (powerDenominator e)) := by
  rw [gridPoint?, ← hc]
  rfl

/-- An accepted multiple reads back, and is not zero. -/
theorem gridPoint?_eq_some (h : gridPoint? m e = some c) :
    c ≠ 0 ∧ Nears m.val (c * powerUnits e) (powerDenominator e) := by
  rw [gridPoint?_eq rfl] at h
  rcases pick?_eq_some h with ⟨hc, hbelow⟩ | ⟨hc, habove⟩
  · rw [Bool.and_eq_true, bne_iff_ne, readsAs_iff, ← hc] at hbelow
    exact hbelow
  · rw [readsAs_iff, ← hc] at habove
    exact ⟨hc ▸ Nat.succ_ne_zero _, habove⟩

/-- A multiple is accepted if two of them fit between the number and the one in front of it. -/
theorem gridPoint?_ne_none
    (hclose : 2 * powerUnits e + unitsAt (m.val - 1) * powerDenominator e ≤
      m.units * powerDenominator e) : gridPoint? m e ≠ none := by
  intro hnone
  have hdiv := Nat.div_add_mod (m.units * powerDenominator e) (powerUnits e)
  have hmod := Nat.mod_lt (m.units * powerDenominator e) (powerUnits_pos e)
  have hnext : m.units * powerDenominator e < unitsAt (m.val + 1) * powerDenominator e :=
    Nat.mul_lt_mul_of_pos_right (unitsAt_lt_succ m.val) (powerDenominator_pos e)
  generalize hc : m.units * powerDenominator e / powerUnits e = c at hdiv
  rw [gridPoint?_eq hc] at hnone
  have hbelow := pick?_eq_none hnone
  rw [← Bool.not_eq_true, Bool.and_eq_true, bne_iff_ne, readsAs_iff] at hbelow
  rw [Nat.mul_comm] at hdiv
  -- the multiple below is less than one step away, so it lies above the midpoint
  have hlow : (unitsAt (m.val - 1) + m.units) * powerDenominator e < 2 * (c * powerUnits e) := by
    rw [Nat.add_mul]
    omega
  have hhigh : 2 * (c * powerUnits e) < (m.units + unitsAt (m.val + 1)) * powerDenominator e := by
    rw [Nat.add_mul]
    omega
  apply hbelow
  constructor
  · rintro rfl
    omega
  · exact ⟨Nat.le_of_lt hlow, Nat.le_of_lt hhigh, fun _ => ⟨hlow, hhigh⟩⟩

/-! ## The search -/

/-- The last power of ten that is tried for a number of so many bits. -/
def lastExponent (bits : Nat) : Int := ((bits : Int) - 1074) * 3 / 10 + 2 - 39

/-- Ten is at most `2 ^ (10 / 3)`. -/
theorem ten_pow_le (n : Nat) : 10 ^ n ≤ 2 ^ (10 * (n / 3 + 1)) :=
  calc 10 ^ n ≤ 10 ^ (3 * (n / 3 + 1)) := Nat.pow_le_pow_right (by decide) (by omega)
    _ = (10 ^ 3) ^ (n / 3 + 1) := Nat.pow_mul 10 3 _
    _ ≤ (2 ^ 10) ^ (n / 3 + 1) := Nat.pow_le_pow_left (by decide) _
    _ = 2 ^ (10 * (n / 3 + 1)) := (Nat.pow_mul 2 10 _).symm

/-- Ten is at least `2 ^ (33 / 10)`. -/
theorem le_ten_pow (n : Nat) : 2 ^ (33 * (n / 10)) ≤ 10 ^ n :=
  calc 2 ^ (33 * (n / 10)) = (2 ^ 33) ^ (n / 10) := Nat.pow_mul 2 33 _
    _ ≤ (10 ^ 10) ^ (n / 10) := Nat.pow_le_pow_left (by decide) _
    _ = 10 ^ (10 * (n / 10)) := (Nat.pow_mul 10 10 _).symm
    _ ≤ 10 ^ n := Nat.pow_le_pow_right (by decide) (by omega)

theorem two_mul_oneUnits : 2 * Binary64.oneUnits = 2 ^ 1075 := by decide +kernel

/-- The last power is small against the distances between numbers of so many bits. -/
theorem powerUnits_lastExponent {bits : Nat} (hbits : bits < 2098) :
    2 * powerUnits (lastExponent bits) ≤
      2 ^ (bits - 53) * powerDenominator (lastExponent bits) := by
  have hlast : lastExponent bits = ((bits : Int) - 1074) * 3 / 10 + 2 - 39 := rfl
  have hunits := two_mul_oneUnits
  generalize hunit : 1075 = unit at hunits
  obtain ⟨n, he | he⟩ := Int.eq_nat_or_neg (lastExponent bits)
  · have hbound : unit + 10 * (n / 3 + 1) ≤ bits - 53 := by omega
    rw [he, powerUnits_natCast, powerDenominator_natCast, ← Nat.mul_assoc, hunits, Nat.mul_one]
    calc 2 ^ unit * 10 ^ n ≤ 2 ^ unit * 2 ^ (10 * (n / 3 + 1)) :=
          Nat.mul_le_mul_left _ (ten_pow_le n)
      _ = 2 ^ (unit + 10 * (n / 3 + 1)) := (Nat.pow_add 2 _ _).symm
      _ ≤ 2 ^ (bits - 53) := Nat.pow_le_pow_right (by decide) hbound
  · have hbound : unit ≤ bits - 53 + 33 * (n / 10) := by omega
    rw [he, powerUnits_neg, powerDenominator_neg, hunits]
    calc 2 ^ unit ≤ 2 ^ (bits - 53 + 33 * (n / 10)) := Nat.pow_le_pow_right (by decide) hbound
      _ = 2 ^ (bits - 53) * 2 ^ (33 * (n / 10)) := Nat.pow_add 2 _ _
      _ ≤ 2 ^ (bits - 53) * 10 ^ n := Nat.mul_le_mul_left _ (le_ten_pow n)

theorem gridPoint?_last (hpos : 0 < m.val) (hfinite : m ≠ infinity) :
    gridPoint? m (topExponent m - 39) ≠ none := by
  have he : topExponent m - 39 = lastExponent m.units.log2 := rfl
  have hlast := powerUnits_lastExponent (log2_units_lt hfinite)
  have hgap := Nat.mul_le_mul_right (powerDenominator (lastExponent m.units.log2))
    (unitsAt_pred_add_le hpos)
  rw [Nat.add_mul] at hgap
  rw [he]
  apply gridPoint?_ne_none
  omega

/-- The digits that are found are those of a multiple that reads back. -/
theorem shortest_spec (hpos : 0 < m.val) (hfinite : m ≠ infinity) :
    (shortest m).digits ≠ 0 ∧
      Nears m.val ((shortest m).digits * powerUnits (shortest m).exponent)
        (powerDenominator (shortest m).exponent) := by
  unfold shortest
  extract_lets found
  cases hfound : (List.range 40).findSome? found with
  | none =>
    have hlast := List.findSome?_eq_none_iff.1 hfound 39 (by decide)
    exact absurd (Option.map_eq_none_iff.1 hlast) (gridPoint?_last hpos hfinite)
  | some d =>
    obtain ⟨k, -, hk⟩ := List.exists_of_findSome?_eq_some hfound
    obtain ⟨c, hgrid, rfl⟩ := Option.map_eq_some_iff.1 hk
    exact gridPoint?_eq_some hgrid

/-! ## Reading back -/

/-- What reads back as a positive number is at least half the first one, so its power of ten is not
too small to be computed. -/
theorem exponent_bound (hpos : 0 < m.val)
    (hn : Nears m.val (c * powerUnits e) (powerDenominator e)) : 0 ≤ e + c.log2 + 1100 := by
  by_cases hsign : 0 ≤ e
  · omega
  · obtain ⟨n, rfl⟩ : ∃ n : Nat, e = -n := ⟨e.natAbs, by omega⟩
    have hplace : 0 < unitsAt (m.val - 1) + unitsAt m.val := by
      have hlt := unitsAt_lt_succ (m.val - 1)
      rw [Nat.sub_add_cancel hpos] at hlt
      omega
    have hlow := hn.low
    have hunits := two_mul_oneUnits
    generalize hunit : 1075 = unit at hunits
    rw [powerUnits_neg, powerDenominator_neg, Nat.mul_left_comm, hunits] at hlow
    have hpow : 2 ^ n < 2 ^ (c.log2 + 1 + unit) :=
      calc 2 ^ n ≤ 10 ^ n := Nat.pow_le_pow_left (by decide) n
        _ ≤ (unitsAt (m.val - 1) + unitsAt m.val) * 10 ^ n := Nat.le_mul_of_pos_left _ hplace
        _ ≤ c * 2 ^ unit := hlow
        _ < 2 ^ (c.log2 + 1) * 2 ^ unit :=
          Nat.mul_lt_mul_of_pos_right Nat.lt_log2_self (Nat.two_pow_pos _)
        _ = 2 ^ (c.log2 + 1 + unit) := (Nat.pow_add 2 _ _).symm
    have hlt := (Nat.pow_lt_pow_iff_right (by decide)).1 hpow
    omega

/-- What is between the midpoints is read as the number. -/
theorem ofDecimal_of_nears (negative : Bool) (hc : c ≠ 0) (he : e ≤ 400) (hpos : 0 < m.val)
    (hn : Nears m.val (c * powerUnits e) (powerDenominator e)) :
    Binary64.ofDecimal negative c e = .signed negative m := by
  have hbound := exponent_bound hpos hn
  rw [Binary64.ofDecimal, if_neg hc, if_neg (by omega), if_neg (by omega), Binary64.ofRatio]
  congr 1
  have hunits : c * Nat.pow 10 e.toNat * Binary64.oneUnits = c * powerUnits e := by
    rw [powerUnits, Nat.mul_assoc, Nat.mul_comm (Nat.pow 10 e.toNat)]
  rw [hunits]
  exact nearest_eq (powerDenominator_pos e) hn

end Decimal

end FlagScript
