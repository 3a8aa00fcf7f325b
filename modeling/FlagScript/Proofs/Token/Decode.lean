import FlagScript.Phrase.Meaning
import FlagScript.Proofs.Token.Munch
import FlagScript.Proofs.Token.Stream
import Mathlib.Algebra.Group.Nat.Defs

/-!
# What number and truth word tokens stand for

Every lexeme of a truth word is read as one (`Token.truthWord?_of_lexeme`), and every number with a
point as the float nearest to what it writes (`Token.number_of_point`). A number without a point is
the integer that it writes, unless that or the digits alone do not fit into 64 bits. A power of ten
that does not fit is refused on its own account, so that zero with such a power is refused too
(`Token.number_eq_written`).
-/

namespace FlagScript

namespace Token

/-! ## Lexemes of a source -/

/-- The numbers and truth words that the lexer finds are lexemes of their class. -/
theorem lexeme_of_scan {c : Char} {cs : List Char} {kind : TokenClass} {n : Nat}
    (hc : Text.isLayout c = false) (hk : kind = .number ∨ kind = .boolean)
    (h : scan c cs = some (kind, n)) : Lexeme kind (c :: cs.take n) := by
  -- the first character decides how a token is scanned
  by_cases hstart : startsLiteral c = true
  · rw [scan_of_startsLiteral hstart] at h
    rcases hlit : scanLiteral (c :: cs) with ⟨k, _ | m⟩
    · rw [hlit] at h
      cases h
    · rw [hlit] at h
      cases h
      have hlexeme := (lexeme_of_scanLiteral hc hlit (Nat.succ_ne_zero n)).1
      rwa [List.take_succ_cons] at hlexeme
  by_cases hname : c = '$'
  · subst hname
    rw [scan_dollar] at h
    split at h
    next => cases h
    next => cases h; simp at hk
  by_cases hquote : c = '@'
  · subst hquote
    rw [scan_at, Option.map_eq_some_iff] at h
    obtain ⟨m, -, hm⟩ := h
    cases hm
    simp at hk
  · have hsymbol := (symbol?_of_scan hc (by simpa using hstart) hname hquote h).1
    rcases hk with rfl | rfl <;> cases hsymbol

theorem lexeme_of_lex {cs : List Char} {ts : List Token} (h : lex cs = .ok ts) :
    ∀ t ∈ ts, t.kind = .number ∨ t.kind = .boolean → Lexeme t.kind t.lexeme := by
  intro t ht hk
  obtain ⟨c, ds, n, hc, hscan, hlexeme⟩ :=
    scanned_of_lexes (lexes_of_lex h) t.form (List.mem_map_of_mem ht)
  have hform : t.lexeme = c :: ds.take n := hlexeme
  rw [hform]
  exact lexeme_of_scan hc hk hscan

/-! ## Truth words -/

theorem upperChar_toLower {c : Char} (h : c.toLower.toNat < 128) :
    Text.upperChar c.toLower = Text.upperChar c := by
  have hascii : c.toNat < 128 := by
    by_cases hsame : c.toLower = c
    · rwa [hsame] at h
    · -- only capital letters change
      unfold Char.toLower at hsame
      split at hsame
      next hcapital => exact Nat.lt_of_le_of_lt hcapital.2 (by decide)
      next => exact absurd rfl hsame
  have hall : ∀ n < 128, Text.upperChar (Char.ofNat n).toLower = Text.upperChar (Char.ofNat n) := by
    decide +kernel
  have hc := hall c.toNat hascii
  rwa [Char.ofNat_toNat] at hc

/-- A truth word in any letter case is read as the one in lower case. -/
theorem truthWord?_of_lexeme {l : List Char} (h : l.map Char.toLower ∈ truthWords) :
    ∃ b, Value.truthWord? (String.ofList l) = some b := by
  have hupper : Text.upper (String.ofList l) = Text.upper (String.ofList (l.map Char.toLower)) := by
    have hascii : ∀ w ∈ truthWords, w.all (·.toNat < 128) = true := by decide +kernel
    rw [Text.upper, Text.upper, String.toList_ofList, String.toList_ofList, List.flatMap_map]
    refine congrArg String.ofList (List.flatMap_congr fun c hc => ?_)
    have hlower := List.all_eq_true.1 (hascii _ h) _ (List.mem_map_of_mem hc)
    exact (upperChar_toLower (of_decide_eq_true hlower)).symm
  have hwords : ∀ w ∈ truthWords, (Value.truthWord? (String.ofList w)).isSome = true := by
    decide +kernel
  have hsome := Option.isSome_iff_exists.1 (hwords _ h)
  rwa [Value.truthWord?, ← hupper] at hsome

/-! ## Numbers -/

theorem span_append {q : Char → Bool} {ds rest : List Char} (hds : ∀ c ∈ ds, q c = true)
    (hrest : ∀ c ∈ rest.head?, q c = false) :
    (ds ++ rest).takeWhile q = ds ∧ (ds ++ rest).dropWhile q = rest := by
  rw [List.takeWhile_append_of_pos hds, List.dropWhile_append_of_pos hds]
  cases rest with
  | nil => simp
  | cons c rest => simp [hrest c rfl]

theorem Exponent.isExponentMark_head {x : List Char} (h : Exponent x) :
    ∀ c ∈ x.head?, isExponentMark c = true := by
  cases h with
  | none => exact fun _ h => nomatch h
  | plain he _ | minus he _ =>
    rintro c ⟨⟩
    rcases he with rfl | rfl <;> rfl

theorem isDigit_of_isExponentMark {c : Char} (h : isExponentMark c = true) :
    c.isDigit = false := by
  cases hdigit : c.isDigit with
  | false => rfl
  | true => rw [isExponentMark_of_isDigit hdigit] at h; cases h

theorem Exponent.isDigit_head {x : List Char} (h : Exponent x) :
    ∀ c ∈ x.head?, c.isDigit = false :=
  fun c hc => isDigit_of_isExponentMark (h.isExponentMark_head c hc)

/-- No digit and no point marks an exponent. -/
theorem Mantissa.isExponentMark_eq_false {m : List Char} (h : Mantissa m) :
    ∀ c ∈ m, isExponentMark c = false := by
  cases h with
  | whole hds => exact fun c hc => isExponentMark_of_isDigit (hds.digits c hc)
  | pointed hds hfs =>
    simp only [List.forall_mem_append, List.forall_mem_cons]
    exact ⟨fun c hc => isExponentMark_of_isDigit (hds.digits c hc), by decide,
      fun c hc => isExponentMark_of_isDigit (hfs c hc)⟩
  | fraction hfs =>
    rw [List.forall_mem_cons]
    exact ⟨by decide, fun c hc => isExponentMark_of_isDigit (hfs.digits c hc)⟩

/-- The mark of an exponent parts a number. -/
theorem span_number {m x : List Char} (hm : Mantissa m) (hx : Exponent x) :
    (m ++ x).takeWhile (!isExponentMark ·) = m ∧ (m ++ x).dropWhile (!isExponentMark ·) = x :=
  span_append (fun c hc => by rw [hm.isExponentMark_eq_false c hc]; rfl)
    (fun c hc => by rw [hx.isExponentMark_head c hc]; rfl)

theorem nat?_of_digits {ds : List Char} (h : IsDigits ds) :
    Decimal.nat? ds = some (Decimal.ofDigits ds) := by
  have hall : ds.all Char.isDigit = true := List.all_eq_true.2 h.digits
  simp [Decimal.nat?, h.ne_nil, hall]

theorem sign_of_head {cs : List Char} (h : ∀ c ∈ cs.head?, c ≠ '-' ∧ c ≠ '+') :
    Decimal.sign cs = (false, cs) := by
  unfold Decimal.sign
  split
  next => exact absurd rfl (h '-' rfl).1
  next => exact absurd rfl (h '+' rfl).2
  next => rfl

theorem ne_sign_of_isDigit {c : Char} (h : c.isDigit = true) : c ≠ '-' ∧ c ≠ '+' := by
  constructor <;> rintro rfl <;> cases h

theorem IsDigits.ne_sign_head {ds : List Char} (h : IsDigits ds) :
    ∀ c ∈ ds.head?, c ≠ '-' ∧ c ≠ '+' :=
  fun c hc => ne_sign_of_isDigit (h.digits c (List.mem_of_mem_head? hc))

/-! ### Exponents -/

/-- The power of ten that stands behind the mark of an exponent. -/
def power (l : List Char) : Int :=
  match l.dropWhile (!isExponentMark ·) with
  | [] => 0
  | _ :: '-' :: ds => -Decimal.ofDigits ds
  | _ :: ds => Decimal.ofDigits ds

theorem power_mantissa {m : List Char} (hm : Mantissa m) : power m = 0 := by
  have hdrop := (span_number hm .none).2
  rw [List.append_nil] at hdrop
  rw [power, hdrop]

theorem power_minus {m es : List Char} {e : Char} (hm : Mantissa m) (he : e = 'e' ∨ e = 'E')
    (hes : IsDigits es) : power (m ++ e :: '-' :: es) = -Decimal.ofDigits es := by
  rw [power, (span_number hm (.minus he hes)).2]
  rfl

theorem IsDigits.ne_minus_cons {es : List Char} (h : IsDigits es) (ds : List Char) :
    es ≠ '-' :: ds := by
  rintro rfl
  exact absurd (h.digits '-' List.mem_cons_self) (by decide)

theorem power_plain {m es : List Char} {e : Char} (hm : Mantissa m) (he : e = 'e' ∨ e = 'E')
    (hes : IsDigits es) : power (m ++ e :: es) = Decimal.ofDigits es := by
  rw [power, (span_number hm (.plain he hes)).2]
  have hsign := hes.ne_minus_cons
  split
  next heq => cases heq
  next heq =>
    cases heq
    exact absurd rfl (hsign _)
  next heq =>
    cases heq
    rfl

/-- What stands behind the mark of an exponent is an integer, the power of ten. -/
theorem int?_of_exponent {e : Char} {m r : List Char} (hm : Mantissa m) (h : Exponent (e :: r)) :
    (e = 'e' ∨ e = 'E') ∧ Decimal.int? r = some (power (m ++ e :: r)) := by
  cases h with
  | plain he hds =>
    rw [power_plain hm he hds]
    refine ⟨he, ?_⟩
    simp [Decimal.int?, sign_of_head hds.ne_sign_head, nat?_of_digits hds]
  | minus he hds =>
    rw [power_minus hm he hds]
    refine ⟨he, ?_⟩
    simp [Decimal.int?, Decimal.sign, nat?_of_digits hds]

/-! ### Numbers with a point -/

/-- The number that the digits in front of an exponent are without the point among them. -/
def digits (l : List Char) : Nat :=
  Decimal.ofDigits ((l.takeWhile (!isExponentMark ·)).filter (· != '.'))

/-- How many digits stand behind the point. -/
def placesBehind (l : List Char) : Nat :=
  ((l.takeWhile (!isExponentMark ·)).dropWhile (· != '.')).tail.length

/-- The float that is nearest to what a number with a point writes. -/
def decimal (l : List Char) : Binary64 := .ofDecimal false (digits l) (power l - placesBehind l)

/-- Digits around a point, at least one. -/
structure Pointed (ds fs : List Char) : Prop where
  front : ∀ c ∈ ds, c.isDigit = true
  behind : ∀ c ∈ fs, c.isDigit = true
  nonempty : ds ≠ [] ∨ fs ≠ []

namespace Pointed

variable {ds fs x : List Char}

theorem mantissa (h : Pointed ds fs) : Mantissa (ds ++ '.' :: fs) := by
  cases ds with
  | nil => exact .fraction ⟨h.nonempty.resolve_left (absurd rfl), h.behind⟩
  | cons d ds => exact .pointed ⟨List.cons_ne_nil d ds, h.front⟩ h.behind

theorem ne_point (h : Pointed ds fs) : ∀ c ∈ ds ++ fs, (c != '.') = true := by
  have hdigits : ∀ c ∈ ds ++ fs, c.isDigit = true := List.forall_mem_append.2 ⟨h.front, h.behind⟩
  intro c hc
  rw [bne_iff_ne]
  rintro rfl
  exact absurd (hdigits '.' hc) (by decide)

/-- The parts of a number around its point. -/
theorem spans (h : Pointed ds fs) (hx : Exponent x) :
    digits (ds ++ '.' :: fs ++ x) = Decimal.ofDigits (ds ++ fs) ∧
      placesBehind (ds ++ '.' :: fs ++ x) = fs.length := by
  have hpoint : ∀ c ∈ ('.' :: fs).head?, (c != '.') = false := by
    rintro c ⟨⟩
    decide
  have hds := fun c hc => h.ne_point c (List.mem_append_left fs hc)
  have hfilter := List.filter_eq_self.2 h.ne_point
  rw [List.filter_append] at hfilter
  rw [digits, placesBehind, (span_number h.mantissa hx).1]
  constructor
  · rw [List.filter_append, List.filter_cons_of_neg (by decide), hfilter]
  · rw [(span_append hds hpoint).2, List.tail_cons]

/-- Digits around a point and an exponent are a number. -/
theorem scaled? (h : Pointed ds fs) (hx : Exponent x) :
    Decimal.scaled? (ds ++ '.' :: fs ++ x) =
      some ⟨Decimal.ofDigits (ds ++ fs), power (ds ++ '.' :: fs ++ x) - fs.length⟩ := by
  have hhead : ∀ c ∈ ('.' :: (fs ++ x)).head?, c.isDigit = false := by
    rintro c ⟨⟩
    rfl
  obtain ⟨hwhole, hpoint⟩ := span_append h.front hhead
  obtain ⟨hfraction, hexponent⟩ := span_append h.behind hx.isDigit_head
  have hdigits : (ds.isEmpty && fs.isEmpty) = false := by
    rcases h.nonempty with hne | hne <;> simp [hne]
  rw [Decimal.scaled?, List.append_assoc, List.cons_append]
  simp only [hwhole, hpoint, hfraction, hexponent, hdigits, Bool.false_eq_true, if_false]
  cases x with
  | nil =>
    rw [List.append_nil, power_mantissa h.mantissa, Int.zero_sub]
  | cons e r =>
    obtain ⟨he, hr⟩ := int?_of_exponent h.mantissa hx
    rw [← List.cons_append, ← List.append_assoc]
    simp [he, hr]

/-- It has no sign. -/
theorem sign_eq (h : Pointed ds fs) :
    Decimal.sign (ds ++ '.' :: fs ++ x) = (false, ds ++ '.' :: fs ++ x) := by
  apply sign_of_head
  intro c hc
  cases ds with
  | nil =>
    cases hc
    decide
  | cons d ds =>
    obtain rfl : d = c := Option.some.inj hc
    exact ne_sign_of_isDigit (h.front d List.mem_cons_self)

theorem binary64? (h : Pointed ds fs) (hx : Exponent x) :
    Decimal.binary64? (ds ++ '.' :: fs ++ x) = some (decimal (ds ++ '.' :: fs ++ x)) := by
  obtain ⟨hdigits, hplaces⟩ := h.spans hx
  rw [Decimal.binary64?, h.sign_eq]
  simp only [h.scaled? hx]
  rw [decimal, hdigits, hplaces]

end Pointed

theorem Mantissa.exists_pointed {m : List Char} (hm : Mantissa m) (hpoint : '.' ∈ m) :
    ∃ ds fs, m = ds ++ '.' :: fs ∧ Pointed ds fs := by
  cases hm with
  | whole hds => exact absurd (hds.digits '.' hpoint) (by decide)
  | @pointed ds fs hds hfs => exact ⟨ds, fs, rfl, hds.digits, hfs, .inl hds.ne_nil⟩
  | @fraction fs hfs => exact ⟨[], fs, rfl, (fun c hc => nomatch hc), hfs.digits, .inr hfs.ne_nil⟩

/-! ## Integers -/

/-- The number that stands in front of the mark of an exponent. -/
def whole (l : List Char) : Nat := Decimal.ofDigits (l.takeWhile (!isExponentMark ·))

/-- A number without a point does not fit into 64 bits. If its power of ten is negative, it has to
fit without it. -/
def OutOfRange (l : List Char) : Prop := integerEnd ≤ whole l * 10 ^ (power l).toNat

/-- Zero, with a power of ten that does not fit into 64 bits. -/
def IsZeroOfGreatPower (l : List Char) : Prop :=
  whole l = 0 ∧ integerEnd ≤ 10 ^ (power l).toNat

instance (l : List Char) : Decidable (OutOfRange l) := inferInstanceAs (Decidable (_ ≤ _))

instance (l : List Char) : Decidable (IsZeroOfGreatPower l) := inferInstanceAs (Decidable (_ ∧ _))

/-- What a number without a point writes: its power of ten multiplies it, or divides it and leaves
nothing of the rest. -/
def written (l : List Char) : Nat := whole l * 10 ^ (power l).toNat / 10 ^ (-power l).toNat

theorem whole_append {ds x : List Char} (hds : IsDigits ds) (hx : Exponent x) :
    whole (ds ++ x) = Decimal.ofDigits ds := by
  rw [whole, (span_number (.whole hds) hx).1]

/-! ### Powers of ten -/

/-- The powers of ten that fit are the first nineteen. -/
theorem pow_lt_integerEnd_iff {k : Nat} : 10 ^ k < integerEnd ↔ k < 19 := by
  constructor
  · intro h
    by_contra hk
    have hgreat : 10 ^ 19 ≤ 10 ^ k := Nat.pow_le_pow_right (by decide) (by omega)
    have hend : integerEnd ≤ 10 ^ 19 := by decide
    omega
  · intro hk
    have hle : 10 ^ k ≤ 10 ^ 18 := Nat.pow_le_pow_right (by decide) (by omega)
    have hend : 10 ^ 18 < integerEnd := by decide
    omega

/-- A power that does not fit leaves nothing of a number that does. -/
theorem scaleInteger?_divided {base : Nat} (h : base < integerEnd) (k : Nat) :
    scaleInteger? base true k = some (base / 10 ^ k) := by
  rw [scaleInteger?]
  split
  next => rfl
  next hk =>
    have hgreat := Nat.le_of_not_lt (mt pow_lt_integerEnd_iff.1 hk)
    rw [if_pos rfl, Nat.div_eq_of_lt (h.trans_le hgreat)]

/-- A power that does not fit is refused on its own account, even if it is zero that it scales. -/
theorem scaleInteger?_multiplied (base k : Nat) :
    scaleInteger? base false k = if 10 ^ k < integerEnd then some (base * 10 ^ k) else none := by
  rw [scaleInteger?]
  by_cases hk : k < 19
  · rw [if_pos hk, if_pos (pow_lt_integerEnd_iff.2 hk)]
    rfl
  · rw [if_neg hk, if_neg (mt pow_lt_integerEnd_iff.1 hk)]
    rfl

/-! ### The integer that is read -/

/-- Digits with an exponent are the integer that they write, if the digits fit, their power of ten
fits if it multiplies, and the result fits. -/
theorem integer?_append {ds x : List Char} (hds : IsDigits ds) (hx : Exponent x) :
    integer? (ds ++ x) =
      if whole (ds ++ x) < integerEnd ∧ 10 ^ (power (ds ++ x)).toNat < integerEnd ∧
          written (ds ++ x) < integerEnd then
        some (Int64.ofNat (written (ds ++ x)))
      else none := by
  obtain ⟨htake, hdrop⟩ := span_number (.whole hds) hx
  rw [integer?, htake, hdrop, nat?_of_digits hds, Option.filter_some, written, whole_append hds hx]
  have hone : 1 < integerEnd := by decide
  -- the digits alone must fit before the exponent is looked at
  by_cases hfits : Decimal.ofDigits ds < integerEnd
  · rw [if_pos (decide_eq_true hfits)]
    cases hx with
    | none =>
      rw [List.append_nil, power_mantissa (.whole hds)]
      simp [hfits, hone]
    | @minus e es he hes =>
      have hpower : (-(Decimal.ofDigits es : Int)).toNat = 0 := by omega
      rw [power_minus (.whole hds) he hes, hpower]
      simp [scaleInteger?_divided hfits, hfits, hone]
    | @plain e es he hes =>
      -- the power of ten must fit for itself, also where the digits are zero
      have hsign := hes.ne_minus_cons
      have hpower : (-(Decimal.ofDigits es : Int)).toNat = 0 := by omega
      rw [power_plain (.whole hds) he hes, hpower]
      by_cases hk : 10 ^ Decimal.ofDigits es < integerEnd
      · simp [scaleInteger?_multiplied, hfits, hk]
      · simp [scaleInteger?_multiplied, hk]
  · rw [if_neg (by simpa using hfits), if_neg fun h => hfits h.1]
    rfl

/-- Without a power that multiplies, or with one that does, the digits fit if what is written
does. -/
theorem outOfRange_iff (l : List Char) :
    OutOfRange l ↔ ¬(whole l < integerEnd ∧ written l < integerEnd) := by
  have hpos : 0 < 10 ^ (power l).toNat := Nat.pow_pos (by decide)
  have hle : whole l ≤ whole l * 10 ^ (power l).toNat := Nat.le_mul_of_pos_right _ hpos
  rw [OutOfRange, written]
  by_cases hsign : 0 ≤ power l
  · have hone : (-power l).toNat = 0 := by omega
    rw [hone, Nat.pow_zero, Nat.div_one]
    omega
  · have hone : (power l).toNat = 0 := by omega
    have hdiv := Nat.div_le_self (whole l) (10 ^ (-power l).toNat)
    rw [hone, Nat.pow_zero, Nat.mul_one]
    omega

/-- Only zero is in range with a power of ten that is not. -/
theorem pow_lt_integerEnd {l : List Char} (hrange : ¬OutOfRange l)
    (hzero : ¬IsZeroOfGreatPower l) : 10 ^ (power l).toNat < integerEnd := by
  rw [OutOfRange, Nat.not_le] at hrange
  rw [IsZeroOfGreatPower, not_and, Nat.not_le] at hzero
  rcases Nat.eq_zero_or_pos (whole l) with hnone | hpos
  · exact hzero hnone
  · exact (Nat.le_mul_of_pos_left _ hpos).trans_lt hrange

/-! ## Number tokens -/

theorem point_not_mem_digits {ds : List Char} (h : IsDigits ds) : '.' ∉ ds :=
  fun hpoint => absurd (h.digits '.' hpoint) (by decide)

/-- The point of a number stands in front of its exponent. -/
theorem Exponent.point_not_mem {x : List Char} (h : Exponent x) : '.' ∉ x := by
  cases h with
  | none => exact List.not_mem_nil
  | plain he hds =>
    rw [List.mem_cons, not_or]
    exact ⟨by rcases he with rfl | rfl <;> decide, point_not_mem_digits hds⟩
  | minus he hds =>
    rw [List.mem_cons, List.mem_cons, not_or, not_or]
    exact ⟨by rcases he with rfl | rfl <;> decide, by decide, point_not_mem_digits hds⟩

/-- A number with a point is the float nearest to it, whatever its digits and its exponent. -/
theorem number_of_point {l : List Char} (h : Lexeme .number l) (hpoint : '.' ∈ l) :
    number l = .ok (.float (decimal l)) := by
  cases h with
  | mark h => cases h
  | @number m x hm hx =>
    have hpoint := (List.mem_append.1 hpoint).resolve_right hx.point_not_mem
    obtain ⟨ds, fs, rfl, hpointed⟩ := hm.exists_pointed hpoint
    rw [number, (span_number hm hx).1, if_pos (List.contains_iff_mem.2 hpoint),
      hpointed.binary64? hx]

/-- A number without a point is digits, perhaps with an exponent. -/
theorem exists_digits {l : List Char} (h : Lexeme .number l) (hpoint : '.' ∉ l) :
    ∃ ds x, l = ds ++ x ∧ IsDigits ds ∧ Exponent x := by
  cases h with
  | mark h => cases h
  | @number m x hm hx =>
    cases hm with
    | whole hds => exact ⟨m, x, rfl, hds, hx⟩
    | pointed | fraction => simp at hpoint

/-- A number without a point is an integer, or refused. -/
theorem number_of_digits {ds x : List Char} (hds : IsDigits ds) (hx : Exponent x) :
    number (ds ++ x) =
      match integer? (ds ++ x) with
      | some i => .ok (.int i)
      | none => .error (.numberOutOfRange (String.ofList (ds ++ x))) := by
  have hnone : ds.contains '.' = false := by
    rw [List.contains_eq_mem, decide_eq_false_iff_not]
    exact point_not_mem_digits hds
  rw [number, (span_number (.whole hds) hx).1, hnone]
  rfl

/-- A number without a point that is refused is out of range, or zero with a great power. -/
theorem number_of_no_point {l : List Char} {f : Fault} (h : Lexeme .number l) (hpoint : '.' ∉ l)
    (hf : number l = .error f) :
    f = .numberOutOfRange (String.ofList l) ∧ (OutOfRange l ∨ IsZeroOfGreatPower l) := by
  obtain ⟨ds, x, rfl, hds, hx⟩ := exists_digits h hpoint
  rw [number_of_digits hds hx, integer?_append hds hx] at hf
  split at hf
  next heq =>
    cases hf
  next heq =>
    cases hf
    refine ⟨rfl, Classical.or_iff_not_imp_left.2 fun hrange => ?_⟩
    by_contra hzero
    have hfits := not_not.1 (mt (outOfRange_iff _).2 hrange)
    rw [if_pos ⟨hfits.1, pow_lt_integerEnd hrange hzero, hfits.2⟩] at heq
    cases heq

/-- A number without a point is read as the integer that it writes, if the digits in front of the
exponent and what is written both fit into 64 bits, and refused as out of range if they do not; but
zero is refused as well if its power of ten does not fit. -/
theorem number_eq_written {l : List Char} (h : Lexeme .number l) (hpoint : '.' ∉ l) :
    (whole l < integerEnd ∧ written l < integerEnd ∧ ¬IsZeroOfGreatPower l →
        ∃ i : Int64, number l = .ok (.int i) ∧ i.toInt = written l) ∧
      (¬(whole l < integerEnd ∧ written l < integerEnd) ∨ IsZeroOfGreatPower l →
        number l = .error (.numberOutOfRange (String.ofList l))) := by
  obtain ⟨ds, x, rfl, hds, hx⟩ := exists_digits h hpoint
  rw [number_of_digits hds hx, integer?_append hds hx]
  constructor
  · rintro ⟨hwhole, hwritten, hzero⟩
    have hrange := mt (outOfRange_iff _).1 (not_not.2 ⟨hwhole, hwritten⟩)
    rw [if_pos ⟨hwhole, pow_lt_integerEnd hrange hzero, hwritten⟩]
    refine ⟨_, rfl, ?_⟩
    apply Int64.toInt_ofNat_of_lt
    exact hwritten
  · intro hrefused
    rw [if_neg]
    rintro ⟨hwhole, hpower, hwritten⟩
    rcases hrefused with hrange | hzero
    · exact hrange ⟨hwhole, hwritten⟩
    · exact absurd hpower (Nat.not_lt.2 hzero.2)

/-- The greatest multiple of ten that fits, with a zero in front and a power of ten behind, and the
multiple after it. -/
theorem number_eq_written_of_power :
    (Lexeme .number "0922337203685477580E1".toList ∧ '.' ∉ "0922337203685477580E1".toList ∧
      (whole "0922337203685477580E1".toList < integerEnd ∧
        written "0922337203685477580E1".toList < integerEnd ∧
        ¬IsZeroOfGreatPower "0922337203685477580E1".toList) ∧
      ∃ i : Int64, number "0922337203685477580E1".toList = .ok (.int i) ∧
        i.toInt = written "0922337203685477580E1".toList) ∧
    (Lexeme .number "0922337203685477581E1".toList ∧ '.' ∉ "0922337203685477581E1".toList ∧
      ¬(whole "0922337203685477581E1".toList < integerEnd ∧
        written "0922337203685477581E1".toList < integerEnd) ∧
      number "0922337203685477581E1".toList =
        .error (.numberOutOfRange "0922337203685477581E1")) := by
  have hlexeme : ∀ ds : List Char, ds ≠ [] → ds.all Char.isDigit = true →
      Lexeme .number (ds ++ ['E', '1']) := by
    intro ds hne hall
    exact .number (.whole ⟨hne, List.all_eq_true.1 hall⟩)
      (.plain (.inr rfl) ⟨by decide, List.all_eq_true.1 (by decide)⟩)
  constructor
  · have hl : Lexeme .number "0922337203685477580E1".toList :=
      hlexeme "0922337203685477580".toList (by decide) (by decide)
    have hfits : whole "0922337203685477580E1".toList < integerEnd ∧
        written "0922337203685477580E1".toList < integerEnd ∧
        ¬IsZeroOfGreatPower "0922337203685477580E1".toList := by decide +kernel
    exact ⟨hl, by decide, hfits, (number_eq_written hl (by decide)).1 hfits⟩
  · have hl : Lexeme .number "0922337203685477581E1".toList :=
      hlexeme "0922337203685477581".toList (by decide) (by decide)
    have hrange : ¬(whole "0922337203685477581E1".toList < integerEnd ∧
        written "0922337203685477581E1".toList < integerEnd) := by decide +kernel
    have hrefused := (number_eq_written hl (by decide)).2 (.inl hrange)
    exact ⟨hl, by decide, hrange, by rwa [String.ofList_toList] at hrefused⟩

/-- What zero with a power of ten writes is zero, which fits, and yet it is refused. -/
theorem number_refuses_zero :
    (Lexeme .number "0e19".toList ∧ '.' ∉ "0e19".toList ∧ whole "0e19".toList < integerEnd ∧
      written "0e19".toList = 0 ∧
      number "0e19".toList = .error (.numberOutOfRange "0e19")) ∧
    ¬ ∀ l : List Char, Lexeme .number l → '.' ∉ l →
      whole l < integerEnd ∧ written l < integerEnd →
        ∃ i : Int64, number l = .ok (.int i) ∧ i.toInt = written l := by
  have hl : Lexeme .number "0e19".toList := by
    have hzero : IsDigits ['0'] := ⟨by decide, List.all_eq_true.1 (by decide)⟩
    have hpower : IsDigits ['1', '9'] := ⟨by decide, List.all_eq_true.1 (by decide)⟩
    exact .number (.whole hzero) (.plain (.inl rfl) hpower)
  have hrefused : number "0e19".toList = .error (.numberOutOfRange "0e19") := by decide +kernel
  refine ⟨⟨hl, by decide, by decide +kernel, by decide +kernel, hrefused⟩, fun h => ?_⟩
  obtain ⟨i, hi, -⟩ := h _ hl (by decide) (by decide +kernel)
  rw [hrefused] at hi
  cases hi

/-- A number without a point that is out of range, or zero with a great power. -/
structure RefusedNumber (t : Token) (f : Fault) : Prop where
  kind : t.kind = .number
  noPoint : '.' ∉ t.lexeme
  range : OutOfRange t.lexeme ∨ IsZeroOfGreatPower t.lexeme
  fault : f = .numberOutOfRange (String.ofList t.lexeme)

theorem number_error {t : Token} {f : Fault} (hkind : t.kind = .number)
    (h : Lexeme .number t.lexeme) (hf : number t.lexeme = .error f) : RefusedNumber t f := by
  have hpoint : '.' ∉ t.lexeme := by
    intro hpoint
    rw [number_of_point h hpoint] at hf
    cases hf
  obtain ⟨hfault, hrange⟩ := number_of_no_point h hpoint hf
  exact ⟨hkind, hpoint, hrange, hfault⟩

/-- No truth word is refused, and nothing else that is no number. -/
theorem literal_error {t : Token} {f : Fault}
    (h : t.kind = .number ∨ t.kind = .boolean → Lexeme t.kind t.lexeme)
    (hf : t.literal = .error f) : RefusedNumber t f := by
  rw [literal] at hf
  split at hf
  next hkind =>
    have hlexeme : Lexeme .number t.lexeme := hkind ▸ h (.inl hkind)
    cases hnumber : number t.lexeme with
    | ok v => rw [hnumber] at hf; cases hf
    | error g =>
      rw [hnumber] at hf
      cases hf
      exact number_error hkind hlexeme hnumber
  next hkind =>
    have hlexeme : Lexeme .boolean t.lexeme := hkind ▸ h (.inr hkind)
    cases hlexeme with
    | mark h => cases h
    | boolean hword =>
      obtain ⟨b, hb⟩ := truthWord?_of_lexeme hword
      rw [hb] at hf
      cases hf
  next => cases hf
  next => cases hf

end Token

end FlagScript
