import FlagScript.Proofs.Float.Whole
import FlagScript.Value

/-!
# Order of values

Two integers are compared as they are, and all other pairs as floats. Both agree where they meet,
because integers are put among the floats in their order, so less than is a strict order of all
values (`less_strictOrder`). Equality goes by the left operand, and an integer on the left is
compared with the rounded right operand. So less than, equality and greater than make three cases
of two numbers exactly if it does not matter which of them stands on the left of the equality
(`comparesConsistently_iff`).
-/

namespace FlagScript

namespace Value

open Binary64

variable {a b c : Value}

/-! ## Less than -/

theorem less_int (i j : Int64) : (int i).less (int j) = true ↔ i.toInt < j.toInt := by
  rw [less, decide_eq_true_eq, Int64.lt_iff_toInt_lt]

/-- Unless both operands are integers they are compared as floats. -/
theorem less_eq_asFloat (h : a.isInt = false ∨ b.isInt = false) :
    a.less b = a.asFloat.less b.asFloat := by
  cases a <;> cases b <;> first | rfl | simp [isInt] at h

theorem exists_int_of_isInt (h : a.isInt = true) : ∃ i, a = int i := by
  cases a with
  | int i => exact ⟨i, rfl⟩
  | float _ | text _ | bool _ => cases h

/-- Operands that are in order as floats are in order. -/
theorem less_of_asFloat (h : a.asFloat.less b.asFloat = true) : a.less b = true := by
  by_cases hboth : a.isInt = false ∨ b.isInt = false
  · rw [less_eq_asFloat hboth, h]
  · simp only [not_or, Bool.not_eq_false] at hboth
    obtain ⟨i, rfl⟩ := exists_int_of_isInt hboth.1
    obtain ⟨j, rfl⟩ := exists_int_of_isInt hboth.2
    obtain ⟨x, y, hx, hy, hlt⟩ := exists_rank_of_less h
    rw [less_int]
    refine Int.lt_of_not_ge fun hle => ?_
    have hge := rank_ofInt_mono hle hy hx
    omega

/-- Operands in order are numbers in order as floats, but rounding may have made them equal. -/
theorem rank_le_of_less (h : a.less b = true) :
    ∃ x y, a.asFloat.rank = some x ∧ b.asFloat.rank = some y ∧ x ≤ y := by
  by_cases hboth : a.isInt = false ∨ b.isInt = false
  · rw [less_eq_asFloat hboth] at h
    obtain ⟨x, y, hx, hy, hlt⟩ := exists_rank_of_less h
    exact ⟨x, y, hx, hy, Int.le_of_lt hlt⟩
  · simp only [not_or, Bool.not_eq_false] at hboth
    obtain ⟨i, rfl⟩ := exists_int_of_isInt hboth.1
    obtain ⟨j, rfl⟩ := exists_int_of_isInt hboth.2
    rw [less_int] at h
    exact ⟨_, _, rank_ofInt _, rank_ofInt _,
      rank_ofInt_mono (Int.le_of_lt h) (rank_ofInt _) (rank_ofInt _)⟩

theorem less_self (a : Value) : a.less a = false := by
  rw [← Bool.not_eq_true]
  intro h
  by_cases hint : a.isInt = true
  · obtain ⟨i, rfl⟩ := exists_int_of_isInt hint
    rw [less_int] at h
    omega
  · rw [less_eq_asFloat (.inl (by simpa using hint))] at h
    obtain ⟨x, y, hx, hy, hlt⟩ := exists_rank_of_less h
    rw [hx, Option.some.injEq] at hy
    omega

theorem less_chain (hab : a.less b = true) (hbc : b.less c = true) : a.less c = true := by
  by_cases hall : a.isInt = true ∧ b.isInt = true ∧ c.isInt = true
  · obtain ⟨ha, hb, hc⟩ := hall
    obtain ⟨i, rfl⟩ := exists_int_of_isInt ha
    obtain ⟨j, rfl⟩ := exists_int_of_isInt hb
    obtain ⟨k, rfl⟩ := exists_int_of_isInt hc
    rw [less_int] at *
    omega
  · -- one of the two comparisons is one of floats, so it is strict among the floats
    obtain ⟨x, y, hx, hy, hle⟩ := rank_le_of_less hab
    obtain ⟨y', z, hy', hz, hle'⟩ := rank_le_of_less hbc
    rw [hy, Option.some.injEq] at hy'
    subst hy'
    refine less_of_asFloat ((less_iff hx hz).2 ?_)
    have hstrict : x < y ∨ y < z := by
      by_cases hfirst : a.isInt = false ∨ b.isInt = false
      · rw [less_eq_asFloat hfirst, less_iff hx hy] at hab
        exact .inl hab
      · have hsecond : b.isInt = false ∨ c.isInt = false := by
          simp only [not_or, Bool.not_eq_false] at hfirst
          simp only [hfirst, true_and, Bool.not_eq_true] at hall
          exact .inr hall
        rw [less_eq_asFloat hsecond, less_iff hy hz] at hbc
        exact .inr hbc
    omega

/-- Less than is a strict order of all values: no value is less than itself, of two values at most
one is less than the other, and what is less than a lesser value is less. -/
theorem less_strictOrder (a b c : Value) :
    a.less a = false ∧ (a.less b = true → b.less a = false) ∧
      (a.less b = true → b.less c = true → a.less c = true) := by
  refine ⟨less_self a, fun hab => ?_, less_chain⟩
  rw [← Bool.not_eq_true]
  intro hba
  have hself := less_chain hab hba
  rw [less_self] at hself
  cases hself

/-- Two integers that are one number as floats, in front of a text. -/
theorem less_strictOrder_of_rounded :
    (int 9007199254740992).less (int 9007199254740993) = true ∧
      (int 9007199254740993).less (text "9007199254740994") = true ∧
      (int 9007199254740993).less (int 9007199254740992) = false ∧
      (int 9007199254740992).less (text "9007199254740994") = true := by
  have hab : (int 9007199254740992).less (int 9007199254740993) = true := by decide +kernel
  have hbc : (int 9007199254740993).less (text "9007199254740994") = true := by decide +kernel
  have h := less_strictOrder (int 9007199254740992) (int 9007199254740993)
    (text "9007199254740994")
  exact ⟨hab, hbc, h.2.1 hab, h.2.2 hab hbc⟩

/-! ## Less than, equality and greater than -/

/-- A number: an integer, or a float other than `nan`. -/
def IsNumber : Value → Prop
  | int _ => True
  | float x => x.isNaN = false
  | text _ | bool _ => False

instance : DecidablePred IsNumber
  | int _ => inferInstanceAs (Decidable True)
  | float x => inferInstanceAs (Decidable (x.isNaN = false))
  | text _ | bool _ => inferInstanceAs (Decidable False)

/-- Two values are in one of three cases, and the third is the first with the operands exchanged. -/
structure ComparesConsistently (a b : Value) : Prop where
  exactlyOne : [a.less b, a.equals b, a.greater b].count true = 1
  exchanged : a.greater b = b.less a

instance (a b : Value) : Decidable (ComparesConsistently a b) :=
  decidable_of_iff (_ ∧ _) ⟨fun h => ⟨h.1, h.2⟩, fun h => ⟨h.1, h.2⟩⟩

/-- Where less than is the order of some whole numbers, equality has to be theirs. -/
theorem comparesConsistently_iff_of_order {x y : Int} (hless : a.less b = true ↔ x < y)
    (hgreater : b.less a = true ↔ y < x) :
    ComparesConsistently a b ↔ (a.equals b = true ↔ x = y) := by
  have hcases : ComparesConsistently a b ↔
      [a.less b, a.equals b, !(a.less b || a.equals b)].count true = 1 ∧
        (!(a.less b || a.equals b)) = b.less a :=
    ⟨fun h => ⟨h.1, h.2⟩, fun h => ⟨h.1, h.2⟩⟩
  rw [hcases]
  rcases Int.lt_trichotomy x y with hlt | heq | hgt
  · have hab : a.less b = true := hless.2 hlt
    have hba : b.less a = false := by rw [← Bool.not_eq_true, hgreater]; omega
    have hne : x ≠ y := by omega
    rw [hab, hba]
    cases a.equals b <;> simp [hne]
  · have hab : a.less b = false := by rw [← Bool.not_eq_true, hless]; omega
    have hba : b.less a = false := by rw [← Bool.not_eq_true, hgreater]; omega
    rw [hab, hba]
    cases a.equals b <;> simp [heq]
  · have hab : a.less b = false := by rw [← Bool.not_eq_true, hless]; omega
    have hba : b.less a = true := hgreater.2 hgt
    have hne : x ≠ y := by omega
    rw [hab, hba]
    cases a.equals b <;> simp [hne]

theorem exists_rank_of_isNumber (h : a.IsNumber) : ∃ x, a.asFloat.rank = some x := by
  cases a with
  | int i => exact ⟨_, rank_ofInt i.toInt⟩
  | float x => exact exists_rank_of_isNaN h
  | text _ | bool _ => exact h.elim

theorem comparesConsistently_int (i j : Int64) : ComparesConsistently (int i) (int j) := by
  rw [comparesConsistently_iff_of_order (less_int i j) (less_int j i), equals, beq_iff_eq,
    Int64.toInt_inj, asInt]

/-- A float on the left is compared with the other number as a float. -/
theorem comparesConsistently_float {x : Binary64} (hx : (float x).IsNumber) (hb : b.IsNumber) :
    ComparesConsistently (float x) b := by
  obtain ⟨r, hr⟩ := exists_rank_of_isNumber hx
  obtain ⟨s, hs⟩ := exists_rank_of_isNumber hb
  have hless : (float x).less b = true ↔ r < s := by
    rw [less_eq_asFloat (.inl rfl), less_iff hr hs]
  have hgreater : b.less (float x) = true ↔ s < r := by
    rw [less_eq_asFloat (.inr rfl), less_iff hs hr]
  rw [comparesConsistently_iff_of_order hless hgreater]
  exact equal_iff hr hs

theorem comparesConsistently_int_float_iff {i : Int64} {x : Binary64} (hx : (float x).IsNumber) :
    ComparesConsistently (int i) (float x) ↔
      (int i).equals (float x) = (float x).equals (int i) := by
  obtain ⟨r, hr⟩ := exists_rank_of_isNumber (a := int i) trivial
  obtain ⟨s, hs⟩ := exists_rank_of_isNumber hx
  have hless : (int i).less (float x) = true ↔ r < s := by
    rw [less_eq_asFloat (.inr rfl), less_iff hr hs]
  have hgreater : (float x).less (int i) = true ↔ s < r := by
    rw [less_eq_asFloat (.inl rfl), less_iff hs hr]
  have hequal : (float x).equals (int i) = true ↔ s = r := equal_iff hs hr
  rw [comparesConsistently_iff_of_order hless hgreater, Bool.eq_iff_iff (b := Value.equals _ _),
    hequal, eq_comm (a := s)]

/-- Two numbers are in exactly one of three cases, which change with the operands, unless the left
one is an integer and it matters which of them stands on the left of an equality. For an integer
that the floats have, this is the case exactly if the float is a fraction that is rounded to it. -/
theorem comparesConsistently_iff {a b : Value} (ha : a.IsNumber) (hb : b.IsNumber) :
    (ComparesConsistently a b ↔ (a.isInt = true → a.equals b = b.equals a)) ∧
      ∀ i x, a = int i → b = float x → i.toInt.natAbs ≤ 2 ^ 53 →
        (ComparesConsistently a b ↔ (x.toInt64 = i → x.IsWhole)) := by
  constructor
  · cases a with
    | int i =>
      cases b with
      | int j =>
        refine iff_of_true (comparesConsistently_int i j) fun _ => ?_
        exact Bool.beq_comm
      | float x => rw [comparesConsistently_int_float_iff hb, isInt, imp_iff_right rfl]
      | text _ | bool _ => exact hb.elim
    | float x => exact iff_of_true (comparesConsistently_float ha hb) fun h => by cases h
    | text _ | bool _ => exact ha.elim
  · rintro i x rfl rfl hi
    -- an integer on the left rounds the float, and one on the right is made a float
    have hrounded : (int i).equals (float x) = true ↔ x.toInt64 = i := by
      rw [equals, beq_iff_eq]
      exact eq_comm
    have hexact : (float x).equals (int i) = true ↔ x.IsWhole ∧ x.toInt64 = i := by
      rw [equals, asFloat, equal_comm]
      exact equal_ofInt_iff_toInt64 (hi.trans (by decide))
    rw [comparesConsistently_int_float_iff hb, Bool.eq_iff_iff, hrounded, hexact]
    exact ⟨fun h hround => (h.1 hround).1, fun h => ⟨fun hround => ⟨h hround, hround⟩, And.right⟩⟩

/-- A half is rounded away from the integer below it and to the one above, which it is less than
without being unequal. -/
theorem comparesConsistently_iff_of_half :
    (int 2).IsNumber ∧ (int 3).IsNumber ∧ (float (.ofRatio false 5 2)).IsNumber ∧
      ComparesConsistently (int 2) (float (.ofRatio false 5 2)) ∧
        ¬ ComparesConsistently (int 3) (float (.ofRatio false 5 2)) := by
  have hhalf : (float (.ofRatio false 5 2)).IsNumber := by decide +kernel
  refine ⟨trivial, trivial, hhalf, ?_, ?_⟩
  · exact (comparesConsistently_iff (a := int 2) trivial hhalf).1.2 fun _ => by decide +kernel
  · rw [(comparesConsistently_iff (a := int 3) trivial hhalf).2 3 _ rfl rfl (by decide)]
    decide +kernel

/-- 2 is less than 2.25 and equal to it; and 3 is not greater than 2.75, which is less than 3. -/
theorem comparesInconsistently_of_fraction :
    ((int 2).IsNumber ∧ (float (.ofRatio false 9 4)).IsNumber ∧
      (int 2).less (float (.ofRatio false 9 4)) = true ∧
      (int 2).equals (float (.ofRatio false 9 4)) = true) ∧
    ((int 3).IsNumber ∧ (float (.ofRatio false 11 4)).IsNumber ∧
      (int 3).greater (float (.ofRatio false 11 4)) = false ∧
      (float (.ofRatio false 11 4)).less (int 3) = true) ∧
    ¬ ∀ a b : Value, a.IsNumber → b.IsNumber → ComparesConsistently a b := by
  have hboth : (int 2).less (float (.ofRatio false 9 4)) = true ∧
      (int 2).equals (float (.ofRatio false 9 4)) = true := by decide +kernel
  refine ⟨⟨trivial, rfl, hboth⟩, by decide +kernel, fun h => ?_⟩
  have hone := (h (int 2) (float (.ofRatio false 9 4)) trivial rfl).exactlyOne
  rw [hboth.1, hboth.2] at hone
  simp at hone

end Value

end FlagScript
