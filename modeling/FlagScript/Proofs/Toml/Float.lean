import FlagScript.Proofs.Float.Shortest
import FlagScript.Proofs.Toml.Number

/-!
# Floating-point numbers of a document read back

A finite number is written in full with the fewest digits that read back as it, and always with a
point, so that it is not read as an integer (`writeFloat_eq`). Whatever digits stand around a point,
reading takes them as one number with a negative power of ten (`scaled?_pointed`).
-/

namespace FlagScript

/-! ## Digits -/

namespace Decimal

variable {n : Nat}

/-- Zeros behind the digits of a number multiply it. -/
theorem digitsOf_append_zeros (hn : 0 < n) (k : Nat) :
    digitsOf n ++ List.replicate k '0' = digitsOf (10 ^ k * n) := by
  induction k with
  | zero => simp
  | succ k ih =>
    have hpos : 0 < 10 ^ k * n := Nat.mul_pos (Nat.pow_pos (by decide)) hn
    rw [List.replicate_succ', ← List.append_assoc, ih, Nat.pow_succ, Nat.mul_comm (10 ^ k) 10,
      Nat.mul_assoc]
    exact Nat.toDigits_append_toDigits (b := 10) (d := 0) (by decide) hpos (by decide)

end Decimal

namespace Toml

open Magnitude

variable {m : Magnitude} {whole : Nat} {fraction rest : List Char}

/-! ## Writing -/

/-- Digits around a point that are read as the magnitude `m`. -/
structure WrittenAs (m : Magnitude) (whole : Nat) (fraction : List Char) : Prop where
  nonempty : fraction ≠ []
  digits : ∀ c ∈ fraction, c.isDigit = true
  value : ∀ negative, Binary64.ofDecimal negative
    (Decimal.ofDigits (Decimal.digitsOf whole ++ fraction)) (-fraction.length) = .signed negative m

theorem writtenAs_zero : WrittenAs 0 0 ['0'] where
  nonempty := by simp
  digits := by simp
  value negative := if_pos rfl

/-- A multiple of a power of ten is written with zeros behind its digits, and one behind the
point. -/
theorem writtenAs_multiple {c e : Nat} (hc : c ≠ 0) (hpos : 0 < m.val)
    (hn : Nears m.val (c * Decimal.powerUnits e) (Decimal.powerDenominator e)) :
    WrittenAs m (10 ^ e * c) ['0'] where
  nonempty := by simp
  digits := by simp
  value negative := by
    have hdigits : Decimal.ofDigits (Decimal.digitsOf (10 ^ e * c) ++ ['0']) =
        10 * (10 ^ e * c) := by
      have hzero := Decimal.ofDigits_append_zeros (Decimal.digitsOf (10 ^ e * c)) 1
      rw [Decimal.ofDigits_digitsOf, Nat.pow_one] at hzero
      rw [Nat.mul_comm 10]
      exact hzero
    rw [Decimal.powerUnits_natCast, Decimal.powerDenominator_natCast] at hn
    have hscaled := hn.scale (k := 10) (by decide)
    have hunits : c * (Binary64.oneUnits * 10 ^ e) * 10 =
        10 * (10 ^ e * c) * Decimal.powerUnits (-(1 : Nat)) := by
      rw [Decimal.powerUnits_neg]
      generalize Binary64.oneUnits = u
      ac_rfl
    rw [hunits, Nat.one_mul, ← Nat.pow_one 10, ← Decimal.powerDenominator_neg] at hscaled
    rw [hdigits]
    exact Decimal.ofDecimal_of_nears negative
      (Nat.mul_ne_zero (by decide) (Nat.mul_ne_zero (Nat.ne_of_gt (Nat.pow_pos (by decide))) hc))
      (by decide) hpos hscaled

/-- Other digits have the point among them or zeros in front. -/
theorem writtenAs_pointed {c places : Nat} (hc : c ≠ 0) (hpos : 0 < m.val)
    (hplaces : 0 < places)
    (hn : Nears m.val (c * Decimal.powerUnits (-places)) (Decimal.powerDenominator (-places))) :
    WrittenAs m (c / 10 ^ places) (Decimal.lowDigits c places) where
  nonempty := by
    apply List.ne_nil_of_length_pos
    rwa [Decimal.length_lowDigits hplaces]
  digits := Decimal.isDigit_of_mem_lowDigits
  value negative := by
    rw [Decimal.ofDigits_pointed hplaces, Decimal.length_lowDigits hplaces]
    exact Decimal.ofDecimal_of_nears negative hc (by omega) hpos hn

/-- A finite number is written as digits around a point that are read as it. -/
theorem writeFloat_eq (hfinite : m ≠ infinity) :
    ∃ whole fraction, WrittenAs m whole fraction ∧ ∀ negative,
      writeFloat (.signed negative m) =
        minus negative ++ (Decimal.digitsOf whole ++ '.' :: fraction) := by
  by_cases hzero : m.val = 0
  · obtain rfl : m = 0 := Fin.ext hzero
    exact ⟨0, ['0'], writtenAs_zero, fun negative => rfl⟩
  · have hpos := Nat.pos_of_ne_zero hzero
    obtain ⟨hc, hn⟩ := Decimal.shortest_spec hpos hfinite
    have hwrite : ∀ negative, writeFloat (.signed negative m) = minus negative ++
        if (Decimal.shortest m).positional.contains '.' then (Decimal.shortest m).positional
        else (Decimal.shortest m).positional ++ ['.', '0'] := by
      intro negative
      rw [writeFloat, if_neg hfinite, if_neg hzero, minus]
    simp only [hwrite]
    generalize Decimal.shortest m = d at hc hn ⊢
    obtain ⟨c, e⟩ := d
    by_cases hsign : 0 ≤ e
    · -- a whole number is written without a point, so one is added
      obtain ⟨n, rfl⟩ := Int.eq_ofNat_of_zero_le hsign
      have hdigits : (Decimal.Scaled.mk c n).positional = Decimal.digitsOf (10 ^ n * c) := by
        rw [Decimal.Scaled.positional, if_pos hsign, Int.toNat_natCast]
        exact Decimal.digitsOf_append_zeros (Nat.pos_of_ne_zero hc) n
      have hpoint : (Decimal.digitsOf (10 ^ n * c)).contains '.' = false := by
        rw [List.contains_eq_mem, decide_eq_false_iff_not]
        intro hmem
        exact absurd (Decimal.isDigit_of_mem_digitsOf '.' hmem) (by decide)
      refine ⟨_, _, writtenAs_multiple hc hpos hn, fun negative => ?_⟩
      rw [hdigits, hpoint]
      rfl
    · obtain ⟨places, rfl⟩ : ∃ places : Nat, e = -places := ⟨e.natAbs, by omega⟩
      have hdigits : (Decimal.Scaled.mk c (-places)).positional =
          Decimal.digitsOf (c / 10 ^ places) ++ '.' :: Decimal.lowDigits c places := by
        rw [Decimal.Scaled.positional, if_neg hsign, Int.neg_neg, Int.toNat_natCast]
        rfl
      refine ⟨_, _, writtenAs_pointed hc hpos (by omega) hn, fun negative => ?_⟩
      rw [hdigits, if_pos (by simp)]

/-! ## Reading -/

/-- Digits around a point are a number with a negative power of ten. -/
theorem scaled?_pointed (hne : fraction ≠ []) (hdigits : ∀ c ∈ fraction, c.isDigit = true) :
    scaled? (Decimal.digitsOf whole ++ '.' :: fraction) =
      some ⟨Decimal.ofDigits (Decimal.digitsOf whole ++ fraction), -fraction.length⟩ := by
  have hwhole : ∀ c ∈ Decimal.digitsOf whole, c.isDigit = true := Decimal.isDigit_of_mem_digitsOf
  have hnotMark : ∀ c ∈ Decimal.digitsOf whole ++ '.' :: fraction,
      (!(c == 'e' || c == 'E')) = true := by
    intro c hc
    rw [List.mem_append, List.mem_cons] at hc
    rcases hc with hc | rfl | hc
    · exact congrArg (!·) (Token.isExponentMark_of_isDigit (hwhole c hc))
    · decide
    · exact congrArg (!·) (Token.isExponentMark_of_isDigit (hdigits c hc))
  have hnotPoint : ∀ c ∈ Decimal.digitsOf whole, (c != '.') = true := by
    intro c hc
    rw [bne_iff_ne]
    rintro rfl
    exact absurd (hwhole '.' hc) (by decide)
  unfold scaled?
  simp only [List.takeWhile_eq_self_iff.2 hnotMark, List.dropWhile_eq_nil_iff.2 hnotMark,
    List.takeWhile_append_of_pos hnotPoint, List.dropWhile_append_of_pos hnotPoint,
    List.takeWhile_cons, List.dropWhile_cons, bne_self_eq_false, Bool.false_eq_true, if_false,
    List.append_nil, wholeDigits?_digitsOf, ungroup?_of_digits hne hdigits]
  simp

theorem isNumeral_pointed (hdigits : ∀ c ∈ fraction, c.isDigit = true) :
    IsNumeral (Decimal.digitsOf whole ++ '.' :: fraction) := by
  obtain ⟨⟨d, hhead, hd⟩, hall⟩ := isNumeral_digitsOf whole
  constructor
  · refine ⟨d, ?_, hd⟩
    rw [List.head?_append, Option.mem_def.1 hhead]
    rfl
  · intro c hc
    rw [List.mem_append, List.mem_cons] at hc
    rcases hc with hc | hc | hc
    · exact hall c hc
    · exact .inr hc
    · exact .inl (hdigits c hc)

theorem IsNumeral.isDigit_head {ds : List Char} (h : IsNumeral ds) :
    ∀ c ∈ ds.head?, c.isDigit = true := by
  obtain ⟨⟨d, hhead, hd⟩, -⟩ := h
  intro c hc
  rw [Option.mem_def.1 hhead] at hc
  rwa [← Option.some.inj hc]

/-- A number that is finite is read as such. -/
theorem float?_pointed (negative : Bool) (h : WrittenAs m whole fraction) (hfinite : m ≠ infinity) :
    float? (minus negative ++ (Decimal.digitsOf whole ++ '.' :: fraction)) =
      some (.signed negative m) := by
  have hnumeral : IsNumeral (Decimal.digitsOf whole ++ '.' :: fraction) :=
    isNumeral_pointed h.digits
  have hhead := hnumeral.isDigit_head
  have hnotWord : ∀ d ds, d.isDigit = false →
      Decimal.digitsOf whole ++ '.' :: fraction ≠ d :: ds := by
    intro d ds hd heq
    rw [heq] at hhead
    exact absurd (hhead d rfl) (by simp [hd])
  rw [float?, sign_minus negative hhead]
  simp only
  rw [if_neg (hnotWord _ _ (by decide)), if_neg (hnotWord _ _ (by decide)),
    scaled?_pointed h.nonempty h.digits]
  simp only
  rw [h.value, if_neg]
  intro heq
  exact hfinite (Binary64.signed.inj heq).2

/-- Digits have nothing but underscores among them. -/
theorem ungroup?_eq_none {c : Char} {ds : List Char} (hc : c ∈ ds) (hdigit : c.isDigit = false)
    (hgroup : c ≠ '_') : ungroup? Char.isDigit ds = none := by
  fun_induction ungroup? Char.isDigit ds with
  | case1 => cases hc
  | case2 d hd =>
    rw [List.mem_singleton.1 hc, hd] at hdigit
    cases hdigit
  | case4 d ds hd ih =>
    rcases List.mem_cons.1 hc with rfl | hc
    · rw [hd] at hdigit
      cases hdigit
    · rw [ih (List.mem_of_ne_of_mem hgroup hc)]
      rfl
  | case6 d ds _ _ hd ih =>
    rcases List.mem_cons.1 hc with rfl | hc
    · rw [hd] at hdigit
      cases hdigit
    · rw [ih hc]
      rfl
  | case3 | case5 | case7 => rfl

/-- Neither a digit nor the point is the letter of a base. -/
theorem baseOf?_eq_none {c : Char} (h : c.isDigit = true ∨ c = '.') : baseOf? c = none := by
  unfold baseOf?
  split
  next => exact absurd h (by decide)
  next => exact absurd h (by decide)
  next => exact absurd h (by decide)
  next => rfl

theorem int?_pointed (negative : Bool) (hdigits : ∀ c ∈ fraction, c.isDigit = true) :
    int? (minus negative ++ (Decimal.digitsOf whole ++ '.' :: fraction)) = none := by
  have hnumeral : IsNumeral (Decimal.digitsOf whole ++ '.' :: fraction) := isNumeral_pointed hdigits
  have hsign := sign_minus negative hnumeral.isDigit_head
  have hungroup : ungroup? Char.isDigit (Decimal.digitsOf whole ++ '.' :: fraction) = none :=
    ungroup?_eq_none (c := '.') (by simp) (by decide) (by decide)
  have hany : anyInt? (minus negative ++ (Decimal.digitsOf whole ++ '.' :: fraction)) = none := by
    unfold anyInt?
    split
    next letter ds heq =>
      cases negative with
      | true => cases heq
      | false =>
        have hletter : letter ∈ Decimal.digitsOf whole ++ '.' :: fraction := by
          show letter ∈ minus false ++ (Decimal.digitsOf whole ++ '.' :: fraction)
          rw [heq]
          simp
        rw [baseOf?_eq_none (hnumeral.2 letter hletter)]
    next =>
      simp only [hsign, wholeDigits?, hungroup]
      rfl
  rw [int?, hany]

/-- What has no digits is a word of three letters, with a sign or without. -/
theorem isWord_writeFloat (x : Binary64) : IsWord (writeFloat x) := by
  cases x with
  | nan => exact ⟨by decide, List.all_eq_true.1 (by decide)⟩
  | signed negative m =>
    by_cases hfinite : m = infinity
    · subst hfinite
      cases negative with
      | true => exact ⟨by decide, List.all_eq_true.1 (by decide)⟩
      | false => exact ⟨by decide, List.all_eq_true.1 (by decide)⟩
    · obtain ⟨whole, fraction, hwritten, hwrite⟩ := writeFloat_eq hfinite
      rw [hwrite]
      exact (isNumeral_pointed hwritten.digits).isWord negative

theorem wordValue?_writeFloat (x : Binary64) :
    wordValue? (writeFloat x) = some (.value (.float x)) := by
  cases x with
  | nan => rfl
  | signed negative m =>
    by_cases hfinite : m = infinity
    · subst hfinite
      cases negative <;> rfl
    · obtain ⟨whole, fraction, hwritten, hwrite⟩ := writeFloat_eq hfinite
      rw [hwrite, wordValue?_number (isNumeral_pointed hwritten.digits),
        int?_pointed negative hwritten.digits]
      simp only
      rw [float?_pointed negative hwritten hfinite]
      rfl

/-- A floating-point number is read back, whatever it is. -/
theorem node?_float (depth : Nat) (x : Binary64) (hrest : EndsWord rest) :
    node? depth (writeFloat x ++ rest) = some (.value (.float x), rest) := by
  rw [node?_word depth (isWord_writeFloat x) hrest, wordValue?_writeFloat]
  rfl

end Toml

end FlagScript
