import FlagScript.Proofs.Float.Digits
import FlagScript.Proofs.Float.Whole

/-!
# Rounding to decimal places and back

A finite number is printed with nine places after the point, and what is printed is rounded to the
nearest number of the format again (`Binary64.ninePlaces`). This leads back to the number exactly if
it is the nearest to any number of nine places (`Binary64.ninePlaces_eq_iff`), as it is to a decimal
that has no more of them (`Binary64.exists_ofRatio_of_places`).

By `Nears.rounded`, if any multiple of a unit is rounded to the given number, then so is the nearest
multiple. Where the spacing is fine, no other multiple is as close; where it is wide, the nearest
one is close enough; and in front of a power of two, where the spacing changes, wide spacing means
that the power of two is a multiple itself.
-/

namespace FlagScript

variable {n d k u place : Nat}

/-! ## Rounding to whole numbers -/

/-- A quotient is rounded to a whole number that is at most a half away. -/
theorem roundHalfEven_bounds (hd : 0 < d) :
    2 * (roundHalfEven n d * d) ≤ 2 * n + d ∧ 2 * n ≤ 2 * (roundHalfEven n d * d) + d := by
  have hn : n / d * d + n % d = n := Nat.div_add_mod' n d
  have hr : n % d < d := Nat.mod_lt n hd
  have hsucc : (n / d + 1) * d = n / d * d + d := Nat.succ_mul _ d
  unfold roundHalfEven
  simp only
  split
  next => omega
  next =>
    split
    next => omega
    next =>
      -- halfway between two whole numbers, and the even one is taken
      rcases Nat.mod_two_eq_zero_or_one (n / d) with heven | hodd
      · rw [heven, Nat.add_zero]
        omega
      · rw [hodd]
        omega

theorem roundHalfEven_mul (hd : 0 < d) : roundHalfEven (k * d) d = k := by
  unfold roundHalfEven
  simp only [Nat.mul_mod_left, Nat.mul_zero, if_pos hd, Nat.mul_div_cancel k hd]

/-- The rounding of a quotient does not depend on how it is expanded. -/
theorem roundHalfEven_scale (hk : 0 < k) : roundHalfEven (n * k) (d * k) = roundHalfEven n d := by
  have hlt : 2 * (n % d * k) < d * k ↔ 2 * (n % d) < d := by
    rw [← Nat.mul_assoc, Nat.mul_lt_mul_right hk]
  have hgt : d * k < 2 * (n % d * k) ↔ d < 2 * (n % d) := by
    rw [← Nat.mul_assoc, Nat.mul_lt_mul_right hk]
  simp only [roundHalfEven, Nat.mul_div_mul_right _ _ hk, Nat.mul_mod_mul_right, hlt, hgt]

namespace Magnitude

variable {m : Magnitude}

theorem nearest_scale (hk : 0 < k) : nearest (n * k) (d * k) = nearest n d := by
  unfold nearest
  simp only [Nat.mul_div_mul_right _ _ hk, Nat.mul_right_comm d k, roundHalfEven_scale hk]

/-! ## Every quotient lies between two midpoints -/

theorem unitsAt_pred_le (place d : Nat) : unitsAt (place - 1) * d ≤ unitsAt place * d :=
  Nat.mul_le_mul_right d (unitsAt_strictMono.monotone (Nat.sub_le _ _))

/-- Only zero has no place in front of it, and it is even. -/
theorem unitsAt_pred_lt (hd : 0 < d) (place : Nat) (hodd : place % 2 = 1) :
    unitsAt (place - 1) * d < unitsAt place * d :=
  Nat.mul_lt_mul_of_pos_right (unitsAt_strictMono (by omega)) hd

theorem unitsAt_mul_lt_succ (hd : 0 < d) (place : Nat) :
    unitsAt place * d < unitsAt (place + 1) * d :=
  Nat.mul_lt_mul_of_pos_right (unitsAt_lt_succ place) hd

theorem nears_iff :
    Nears place n d ↔
      (unitsAt (place - 1) * d + unitsAt place * d ≤ 2 * n ∧
        2 * n ≤ unitsAt place * d + unitsAt (place + 1) * d) ∧
      (place % 2 = 1 → unitsAt (place - 1) * d + unitsAt place * d < 2 * n ∧
        2 * n < unitsAt place * d + unitsAt (place + 1) * d) := by
  rw [← Nat.add_mul, ← Nat.add_mul]
  exact ⟨fun h => ⟨⟨h.low, h.high⟩, h.odd⟩, fun h => ⟨h.1.1, h.1.2, h.2⟩⟩

/-- What is between two neighbouring places is on one side of their midpoint, or at it and goes to
the even place. -/
theorem nears_or_nears_succ (hd : 0 < d) (hlow : unitsAt place * d ≤ n)
    (hhigh : n < unitsAt (place + 1) * d) : Nears place n d ∨ Nears (place + 1) n d := by
  have hpred := unitsAt_pred_le place d
  have hnext := unitsAt_mul_lt_succ hd (place + 1)
  by_cases hside : 2 * n < unitsAt place * d + unitsAt (place + 1) * d ∨
      2 * n = unitsAt place * d + unitsAt (place + 1) * d ∧ place % 2 = 0
  · left
    rw [nears_iff]
    refine ⟨by omega, fun hodd => ?_⟩
    have hbelow := unitsAt_pred_lt hd place hodd
    omega
  · right
    rw [nears_iff, Nat.add_sub_cancel]
    omega

theorem exists_place_of_lt {limit : Nat} (h : n < unitsAt limit * d) :
    ∃ place < limit, unitsAt place * d ≤ n ∧ n < unitsAt (place + 1) * d := by
  induction limit with
  | zero =>
    have hzero : unitsAt 0 * d = 0 := Nat.zero_mul d
    omega
  | succ limit ih =>
    by_cases hbelow : n < unitsAt limit * d
    · obtain ⟨place, hplace, hbounds⟩ := ih hbelow
      exact ⟨place, Nat.lt_succ_of_lt hplace, hbounds⟩
    · exact ⟨limit, Nat.lt_succ_self limit, Nat.le_of_not_lt hbelow, h⟩

/-- A quotient that is not rounded to infinity lies between the midpoints around its place. -/
theorem nears_nearest (hd : 0 < d) (h : nearest n d ≠ infinity) : Nears (nearest n d).val n d := by
  have hbelow : n < unitsAt infinity.val * d := by
    by_contra hge
    apply h
    -- what is at least infinity is rounded to it
    have hinf : nearest (infinity.units * d) d = infinity := by
      have hself := nearest_scale (n := infinity.units) (d := 1) hd
      rwa [Nat.one_mul, nearest_units] at hself
    have hmono := nearest_mono d (Nat.le_of_not_lt hge)
    rw [show unitsAt infinity.val = infinity.units from rfl, hinf] at hmono
    exact Fin.ext (Nat.le_antisymm (Nat.le_of_lt_succ (nearest n d).isLt) hmono)
  obtain ⟨place, hplace, hlow, hhigh⟩ := exists_place_of_lt hbelow
  have hlast : infinity.val = 2047 * placesPerScale := rfl
  rcases nears_or_nears_succ hd hlow hhigh with hn | hn
  · have hmem : place < 2047 * placesPerScale + 1 := by omega
    rw [nearest_eq (m := ⟨place, hmem⟩) hd hn]
    exact hn
  · have hmem : place + 1 < 2047 * placesPerScale + 1 := by omega
    rw [nearest_eq (m := ⟨place + 1, hmem⟩) hd hn]
    exact hn

/-! ## Rounding back -/

/-- What is nearer to a place from below is rounded to it as well. -/
theorem Nears.of_le {n' : Nat} (hd : 0 < d) (hn : Nears place n d) (hle : n ≤ n')
    (hself : n' ≤ unitsAt place * d) : Nears place n' d := by
  have hnext := unitsAt_mul_lt_succ hd place
  rw [nears_iff] at hn ⊢
  omega

/-- And what is nearer to it from above. -/
theorem Nears.of_ge {n' : Nat} (hd : 0 < d) (hn : Nears place n d) (hle : n' ≤ n)
    (hself : unitsAt place * d ≤ n') : Nears place n' d := by
  have hpred := unitsAt_pred_le place d
  have hbelow := unitsAt_pred_lt hd place
  rw [nears_iff] at hn ⊢
  omega

/-- The distance to the next place is at least the one to the place in front. -/
theorem two_mul_unitsAt_le (place : Nat) :
    2 * unitsAt place ≤ unitsAt (place - 1) + unitsAt (place + 1) := by
  obtain ⟨t, f, h⟩ := exists_spaced place
  have hpred := h.le_unitsAt_pred
  have hf : f * 2 ^ t ≤ (f - 1) * 2 ^ t + 2 ^ t := by
    rw [← Nat.succ_mul (f - 1)]
    exact Nat.mul_le_mul_right _ (by omega)
  rw [h.unitsAt_self, h.unitsAt_succ, Nat.succ_mul f]
  omega

/-- What is above a place is rounded to it, if something below it is that is no nearer. -/
theorem Nears.above {n' : Nat} (hn : Nears place n d) (hself : unitsAt place * d ≤ n')
    (hfar : n + n' ≤ 2 * (unitsAt place * d)) : Nears place n' d := by
  have hpred := unitsAt_pred_le place d
  have hwider := Nat.mul_le_mul_right d (two_mul_unitsAt_le place)
  rw [Nat.mul_assoc, Nat.add_mul] at hwider
  rw [nears_iff] at hn ⊢
  omega

theorem Spaced.unitsAt_succ_mul {t f : Nat} (h : Spaced place t f) (d : Nat) :
    unitsAt (place + 1) * d = unitsAt place * d + 2 ^ t * d := by
  rw [h.unitsAt_succ, h.unitsAt_self, Nat.succ_mul f, Nat.add_mul]

/-- What is below a place is rounded to it, if something above it is that is no nearer, unless the
place is a power of two. -/
theorem Nears.below {n' t f : Nat} (hd : 0 < d) (h : Spaced place t f)
    (hfirst : t = 0 ∨ f ≠ placesPerScale) (hn : Nears place n d) (hself : n' ≤ unitsAt place * d)
    (hfar : 2 * (unitsAt place * d) ≤ n + n') : Nears place n' d := by
  have hnext := unitsAt_mul_lt_succ hd place
  have hbelow := unitsAt_pred_lt hd place
  have hsucc := h.unitsAt_succ_mul d
  have hpred : unitsAt (place - 1) * d + 2 ^ t * d = unitsAt place * d ∨
      unitsAt (place - 1) * d = 0 ∧ unitsAt place * d = 0 := by
    rw [h.unitsAt_pred hfirst, h.unitsAt_self]
    cases f with
    | zero => simp
    | succ f => simp [Nat.add_mul]
  rw [nears_iff] at hn ⊢
  omega

/-- If a multiple of `u / d` is rounded to a place, so is the nearest multiple. Only below a power
of two could the nearest one be too far away, so a power of two is to be a multiple itself if its
spacing is not less than `u / d`. -/
theorem Nears.rounded (hd : 0 < d) (hu : 0 < u)
    (hpower : ∀ t, u ≤ 2 ^ t * d → u ∣ placesPerScale * 2 ^ t * d) (hn : Nears place (k * u) d) :
    Nears place (roundHalfEven (unitsAt place * d) u * u) d := by
  obtain ⟨hlow, hhigh⟩ := roundHalfEven_bounds (n := unitsAt place * d) hu
  have hstep : ∀ i j : Nat, i < j → i * u + u ≤ j * u := fun i j hij => by
    rw [← Nat.succ_mul]
    exact Nat.mul_le_mul_right u hij
  generalize hr : roundHalfEven (unitsAt place * d) u = r at hlow hhigh
  rcases Nat.le_total (r * u) (unitsAt place * d) with hself | hself
  · by_cases hkr : k ≤ r
    · exact hn.of_le hd (Nat.mul_le_mul_right u hkr) hself
    · -- the given multiple is on the other side, and no nearer
      have hkr := hstep r k (Nat.lt_of_not_le hkr)
      obtain ⟨t, f, h⟩ := exists_spaced place
      by_cases hfirst : t = 0 ∨ f ≠ placesPerScale
      · exact hn.below hd h hfirst hself (by omega)
      · -- a power of two with wide spacing is a multiple itself
        obtain ⟨ht, rfl⟩ : 0 < t ∧ f = placesPerScale := by omega
        have hwide : u ≤ 2 ^ t * d := by
          have hhighk := (nears_iff.1 hn).1.2
          rw [h.unitsAt_succ_mul] at hhighk
          omega
        obtain ⟨c, hc⟩ := hpower t hwide
        have hcu : unitsAt place * d = c * u := by rw [h.unitsAt_self, hc, Nat.mul_comm]
        rw [hcu, roundHalfEven_mul hu] at hr
        subst hr
        exact hn.of_ge hd (by omega) (by omega)
  · by_cases hrk : r ≤ k
    · exact hn.of_ge hd (Nat.mul_le_mul_right u hrk) hself
    · have hrk := hstep k r (Nat.lt_of_not_le hrk)
      exact hn.above hself (by omega)

end Magnitude

/-! ## Nine places -/

namespace Decimal

open Magnitude

variable {n zeros : Nat} {m : Magnitude} {fraction : List Char}

/-- A power of two with a spacing of at least a unit of nine places is a number of nine places. -/
theorem oneUnits_dvd (t : Nat) (h : Binary64.oneUnits ≤ 2 ^ t * 10 ^ 9) :
    Binary64.oneUnits ∣ placesPerScale * 2 ^ t * 10 ^ 9 := by
  have hplaces : placesPerScale = 2 ^ 52 := by decide
  generalize hk : 1074 = k
  have hone : 2 ^ k = Binary64.oneUnits := two_pow_eq_oneUnits hk.symm
  rw [← hone] at h ⊢
  have hlt : 2 ^ k < 2 ^ (t + 30) := by
    rw [Nat.pow_add]
    exact h.trans_lt (Nat.mul_lt_mul_of_pos_left (by decide) (Nat.two_pow_pos t))
  have ht := (Nat.pow_lt_pow_iff_right (by decide)).1 hlt
  rw [hplaces, ← Nat.pow_add]
  exact Nat.dvd_mul_right_of_dvd (Nat.pow_dvd_pow 2 (by omega)) _

/-- A finite number is that nearest to its own nine places exactly if it is that nearest to any
number of nine places. -/
theorem nearest_inPlaces_iff (hfinite : m ≠ infinity) :
    nearest (inPlaces 9 m * Binary64.oneUnits) (10 ^ 9) = m ↔
      ∃ k, nearest (k * Binary64.oneUnits) (10 ^ 9) = m := by
  constructor
  · intro h
    exact ⟨_, h⟩
  · rintro ⟨k, rfl⟩
    have hn := nears_nearest (by decide) hfinite
    exact nearest_eq (by decide) (hn.rounded (by decide) Binary64.oneUnits_pos oneUnits_dvd)

end Decimal

namespace Binary64

variable {negative : Bool} {e : Int} {zeros : Nat} {m : Magnitude} {fraction : List Char}

/-- The number that is read where one is printed, for what is printed has nine places. -/
def ninePlaces : Binary64 → Binary64
  | nan => nan
  | signed negative m => ofRatio negative (Decimal.inPlaces 9 m) (10 ^ 9)

theorem ninePlaces_eq_iff (negative : Bool) (hfinite : m ≠ .infinity) :
    (signed negative m).ninePlaces = signed negative m ↔
      ∃ k, signed negative m = ofRatio negative k (10 ^ 9) := by
  simp only [ninePlaces, ofRatio, signed.injEq, true_and, eq_comm (a := m)]
  exact Decimal.nearest_inPlaces_iff hfinite

theorem ofRatio_scale (negative : Bool) (hk : 0 < k) :
    ofRatio negative (n * k) (d * k) = ofRatio negative n d := by
  rw [ofRatio, Nat.mul_right_comm, Magnitude.nearest_scale hk, ofRatio]

theorem ofRatio_zero (negative : Bool) (hd : 0 < d) : ofRatio negative 0 d = signed negative 0 := by
  have hone := ofRatio_scale (n := 0) (d := 1) negative hd
  rw [Nat.zero_mul, Nat.one_mul] at hone
  rw [hone]
  cases negative <;> decide +kernel

/-- Between the exponents that are answered without the power, decimals are quotients. -/
theorem ofDecimal_eq_ofRatio (negative : Bool) (n : Nat) (hlow : -1100 ≤ e) (hhigh : e ≤ 400) :
    ofDecimal negative n e = ofRatio negative (n * 10 ^ e.toNat) (10 ^ (-e).toNat) := by
  rw [ofDecimal]
  by_cases hn : n = 0
  · rw [if_pos hn, hn, Nat.zero_mul, ofRatio_zero negative (Nat.pow_pos (by decide))]
  · rw [if_neg hn, if_neg (by omega), if_neg (by omega)]
    rfl

/-- A decimal with no more than nine places is a number of nine places, unless it is too great. -/
theorem exists_ofRatio_of_places (hplaces : -9 ≤ e)
    (hfinite : ofDecimal negative n e ≠ signed negative .infinity) :
    ∃ k, ofDecimal negative n e = ofRatio negative k (10 ^ 9) := by
  by_cases hn : n = 0
  · refine ⟨0, ?_⟩
    rw [ofDecimal, if_pos hn, ofRatio_zero negative (by decide)]
  · have hhigh : e ≤ 400 := by
      by_contra hhigh
      apply hfinite
      rw [ofDecimal, if_neg hn, if_pos (by omega)]
    refine ⟨n * 10 ^ e.toNat * 10 ^ (9 - (-e).toNat), ?_⟩
    have hscale : 10 ^ 9 = 10 ^ (-e).toNat * 10 ^ (9 - (-e).toNat) := by
      rw [← Nat.pow_add]
      congr 1
      omega
    rw [ofDecimal_eq_ofRatio negative n (by omega) hhigh, hscale,
      ofRatio_scale negative (Nat.pow_pos (by decide))]

/-- The digits of a number of nine places are read as it, with the zeros at the end or without. -/
theorem ofDecimal_pointed (negative : Bool)
    (h : Decimal.lowDigits n 9 = fraction ++ List.replicate zeros '0') :
    ofDecimal negative (Decimal.ofDigits (Decimal.digitsOf (n / 10 ^ 9) ++ fraction))
      (0 - fraction.length) = ofRatio negative n (10 ^ 9) := by
  have hlen := congrArg List.length h
  rw [Decimal.length_lowDigits (by decide), List.length_append, List.length_replicate] at hlen
  have hdigits := Decimal.ofDigits_pointed (n := n) (show 0 < 9 by decide)
  rw [h, ← List.append_assoc, Decimal.ofDigits_append_zeros] at hdigits
  generalize Decimal.ofDigits (Decimal.digitsOf (n / 10 ^ 9) ++ fraction) = digits at hdigits ⊢
  have hscale : 10 ^ 9 = 10 ^ fraction.length * 10 ^ zeros := by rw [← Nat.pow_add, ← hlen]
  have hexp : (0 - (fraction.length : Int)).toNat = 0 := by omega
  have hneg : (-(0 - (fraction.length : Int))).toNat = fraction.length := by omega
  rw [ofDecimal_eq_ofRatio negative digits (by omega) (by omega), hexp, hneg, Nat.pow_zero,
    Nat.mul_one, ← hdigits, hscale, ofRatio_scale negative (Nat.pow_pos (by decide))]

end Binary64

end FlagScript
