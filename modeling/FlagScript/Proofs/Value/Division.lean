import FlagScript.Value

/-!
# Division of integers

Two values that are no floats are divided as integers where that leaves nothing. The quotient is an
integer exactly if some integer of 64 bits times the divisor is the dividend
(`exactQuotient?_eq_some_iff`), so the divisor is not zero, and one quotient is missing: the least
integer by minus one would have to wrap (`div_integer_iff`). All other quotients are floats.
-/

namespace FlagScript

namespace Value

variable {n d q : Int64} {l r : Value}

/-- The dividend and the divisor whose quotient is just past the greatest integer. -/
def QuotientOverflows (n d : Int64) : Prop := n = Int64.minValue ∧ d = -1

instance (n d : Int64) : Decidable (QuotientOverflows n d) :=
  inferInstanceAs (Decidable (_ ∧ _))

/-! ## The quotient of two integers -/

theorem toInt_ne_zero (hd : d ≠ 0) : d.toInt ≠ 0 := by
  intro hzero
  apply hd
  rw [← Int64.toInt_inj, hzero, Int64.toInt_zero]

/-- Division rounds toward zero, and does not wrap if the quotient fits. -/
theorem toInt_div_of_fits (h : ¬QuotientOverflows n d) : (n / d).toInt = n.toInt.tdiv d.toInt := by
  by_cases hn : n = Int64.minValue
  · apply Int64.toInt_div_of_ne_right
    exact fun hd => h ⟨hn, hd⟩
  · exact Int64.toInt_div_of_ne_left n d hn

theorem mod_eq_zero_iff : n % d = 0 ↔ d.toInt ∣ n.toInt := by
  rw [← Int64.toInt_inj, Int64.toInt_mod, Int64.toInt_zero]
  exact Int.dvd_iff_tmod_eq_zero.symm

/-- No integer of 64 bits is the quotient that overflows. -/
theorem mul_ne_of_overflows (h : QuotientOverflows n d) : q.toInt * d.toInt ≠ n.toInt := by
  obtain ⟨rfl, rfl⟩ := h
  have hminus : (-1 : Int64).toInt = -1 := rfl
  have hlt := q.toInt_lt
  rw [Int64.toInt_minValue, hminus]
  omega

theorem exactQuotient?_eq_some_iff :
    exactQuotient? n d = some q ↔ d ≠ 0 ∧ q.toInt * d.toInt = n.toInt := by
  by_cases hzero : d = 0
  · -- nothing is divided by zero
    simp [exactQuotient?, hzero]
  by_cases hover : QuotientOverflows n d
  · have hnone : exactQuotient? n d = none := by
      simp [exactQuotient?, hover.1, hover.2]
    have hne := mul_ne_of_overflows (q := q) hover
    simp [hnone, hne]
  by_cases hdvd : d.toInt ∣ n.toInt
  · -- the quotient is exact, so it is the only one
    have hsome : exactQuotient? n d = some (n / d) := by
      have hmod : n % d = 0 := mod_eq_zero_iff.2 hdvd
      have hfits : ¬(n = Int64.minValue ∧ d = -1) := hover
      simpa [exactQuotient?, hzero, hmod] using hfits
    have hmul : (n / d).toInt * d.toInt = n.toInt := by
      rw [toInt_div_of_fits hover]
      exact Int.tdiv_mul_cancel hdvd
    rw [hsome, Option.some.injEq, ← Int64.toInt_inj, ← hmul]
    constructor
    · intro hq
      exact ⟨hzero, by rw [hq]⟩
    · rintro ⟨-, hq⟩
      exact (Int.eq_of_mul_eq_mul_right (toInt_ne_zero hzero) hq).symm
  · have hnone : exactQuotient? n d = none := by
      have hmod : n % d ≠ 0 := fun hmod => hdvd (mod_eq_zero_iff.1 hmod)
      simp [exactQuotient?, hmod]
    rw [hnone]
    constructor
    · intro hq
      cases hq
    · rintro ⟨-, hq⟩
      exact absurd (hq ▸ Int.dvd_mul_left _ _) hdvd

/-- A divisor that leaves nothing has a quotient, unless that one overflows. -/
theorem exists_exactQuotient?_iff :
    (∃ q, exactQuotient? n d = some q) ↔
      d ≠ 0 ∧ d.toInt ∣ n.toInt ∧ ¬QuotientOverflows n d := by
  constructor
  · rintro ⟨q, hq⟩
    obtain ⟨hzero, hmul⟩ := exactQuotient?_eq_some_iff.1 hq
    exact ⟨hzero, hmul ▸ Int.dvd_mul_left _ _, fun hover => mul_ne_of_overflows hover hmul⟩
  · rintro ⟨hzero, hdvd, hover⟩
    refine ⟨n / d, exactQuotient?_eq_some_iff.2 ⟨hzero, ?_⟩⟩
    rw [toInt_div_of_fits hover]
    exact Int.tdiv_mul_cancel hdvd

/-! ## The quotient of two values -/

theorem div_eq_int_iff (hl : l.isFloat = false) (hr : r.isFloat = false) :
    l.div r = int q ↔ exactQuotient? l.asInt r.asInt = some q := by
  rw [div, hl, hr]
  cases hquot : exactQuotient? l.asInt r.asInt with
  | none => simp
  | some p => simp

/-- Where integers do not divide exactly, their quotient is one of floats. -/
theorem div_eq_float (hl : l.isFloat = false) (hr : r.isFloat = false)
    (hnone : exactQuotient? l.asInt r.asInt = none) :
    l.div r = float ((Binary64.ofInt l.asInt.toInt).div (.ofInt r.asInt.toInt)) := by
  rw [div, hl, hr, hnone]
  rfl

/-- Two values that are no floats have an integer for a quotient exactly if the divisor is not zero
and leaves nothing of the dividend, but for the one quotient that overflows. Then the quotient times
the divisor is the dividend, with no need to wrap. All other quotients are floats. -/
theorem div_integer_iff (hl : l.isFloat = false) (hr : r.isFloat = false) :
    ((∃ q, l.div r = int q) ↔
        r.asInt ≠ 0 ∧ r.asInt.toInt ∣ l.asInt.toInt ∧ ¬QuotientOverflows l.asInt r.asInt) ∧
      (∀ q, l.div r = int q → q.toInt * r.asInt.toInt = l.asInt.toInt ∧ q * r.asInt = l.asInt) ∧
      ((∀ q, l.div r ≠ int q) →
        l.div r = float ((Binary64.ofInt l.asInt.toInt).div (.ofInt r.asInt.toInt))) := by
  simp only [ne_eq, div_eq_int_iff hl hr]
  refine ⟨exists_exactQuotient?_iff, fun q hq => ?_, fun hnone => ?_⟩
  · obtain ⟨-, hmul⟩ := exactQuotient?_eq_some_iff.1 hq
    refine ⟨hmul, ?_⟩
    -- what is equal without wrapping is equal with it
    rw [← Int64.ofInt_toInt q, ← Int64.ofInt_toInt r.asInt, ← Int64.ofInt_mul, hmul,
      Int64.ofInt_toInt]
  · exact div_eq_float hl hr (Option.eq_none_iff_forall_ne_some.2 hnone)

/-- The least integer, given as a text, divided by two. -/
theorem div_integer_iff_of_text :
    (text "-9223372036854775808").isFloat = false ∧ (text "2").isFloat = false ∧
      ∃ q, (text "-9223372036854775808").div (text "2") = int q := by
  have hboth : (text "2").asInt ≠ 0 ∧
      (text "2").asInt.toInt ∣ (text "-9223372036854775808").asInt.toInt ∧
        ¬QuotientOverflows (text "-9223372036854775808").asInt (text "2").asInt := by
    decide +kernel
  exact ⟨rfl, rfl, (div_integer_iff (l := text "-9223372036854775808") rfl rfl).1.2 hboth⟩

/-- The least integer divided by minus one, which leaves nothing of it, is a float, although there
is an integer that times minus one wraps to the least one. -/
theorem div_minValue_isFloat :
    ((int Int64.minValue).isFloat = false ∧ (int (-1)).isFloat = false ∧
      (int (-1)).asInt ≠ 0 ∧ (int (-1)).asInt.toInt ∣ (int Int64.minValue).asInt.toInt ∧
      Int64.minValue * (int (-1)).asInt = (int Int64.minValue).asInt ∧
      (int Int64.minValue).div (int (-1)) = float (.ofInt 9223372036854775808)) ∧
    ¬ ∀ l r : Value, l.isFloat = false → r.isFloat = false →
      ((∃ q, l.div r = int q) ↔ r.asInt ≠ 0 ∧ r.asInt.toInt ∣ l.asInt.toInt) := by
  have hfloat : (int Int64.minValue).div (int (-1)) = float (.ofInt 9223372036854775808) := by
    decide +kernel
  refine ⟨⟨rfl, rfl, by decide, by decide, by decide, hfloat⟩, fun h => ?_⟩
  obtain ⟨q, hq⟩ := (h (int Int64.minValue) (int (-1)) rfl rfl).2 ⟨by decide, by decide⟩
  rw [hfloat] at hq
  cases hq

end Value

end FlagScript
