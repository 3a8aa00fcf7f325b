import FlagScript.Proofs.Float.Digits
import FlagScript.Proofs.Source.Reading
import FlagScript.Proofs.Source.Unquoted

/-!
# Literals read back

One cut for every kind of literal that a script can hold. Scripts have no negative numbers, so a
number is printed as digits, with a point if it is a float; that the digits of a float stand for the
float itself is left as a hypothesis, for there are only nine of them behind the point.
-/

namespace FlagScript

namespace Token

variable {rest : List Char}

theorem cut_of_scanLiteral (kind : TokenClass) {c : Char} {ds : List Char} {w : Word}
    (hc : startsLiteral c = true) (hlit : scanLiteral (c :: ds ++ rest) = (kind, ds.length + 1))
    (hw : word? ⟨kind, c :: ds, .start⟩ = some w) : Cut (c :: ds) rest w := by
  refine ⟨c, ds, kind, rfl, isLayout_of_startsLiteral hc, ?_, hw⟩
  rw [scan_of_startsLiteral hc, ← List.cons_append, hlit]

/-! ## Digits -/

theorem isPlain_of_isDigit {c : Char} (h : c.isDigit = true) : isPlain c = true := by
  rw [isPlain_iff]
  constructor
  · rw [isSpecial, List.contains_eq_mem, decide_eq_false_iff_not]
    intro hc
    have hnone := List.all_eq_true.1 (by decide : List.all _ (fun d => !Char.isDigit d) = true) c hc
    rw [h] at hnone
    cases hnone
  · simp only [Text.isLayout, Bool.or_eq_false_iff, beq_eq_false_iff_ne]
    refine ⟨⟨⟨?_, ?_⟩, ?_⟩, ?_⟩ <;> (rintro rfl; exact absurd h (by decide))

theorem isExponentMark_of_isDigit {c : Char} (h : c.isDigit = true) : isExponentMark c = false := by
  rw [isExponentMark, Bool.or_eq_false_iff, beq_eq_false_iff_ne, beq_eq_false_iff_ne]
  constructor
  · rintro rfl; exact absurd h (by decide)
  · rintro rfl; exact absurd h (by decide)

theorem digitCount_of_digits {ds : List Char} (h : ∀ c ∈ ds, c.isDigit = true) :
    digitCount ds = ds.length := by
  rw [digitCount, List.takeWhile_eq_self_iff.2 h]

/-! ## Numbers -/

/-- A number with no exponent behind its digits is all of a text. -/
theorem numberLength_of_mantissaLength {cs : List Char} (h : mantissaLength cs = cs.length) :
    numberLength cs = cs.length := by
  unfold numberLength
  rw [h]
  split
  next h0 => exact h0.symm
  next => rw [List.drop_length, exponentLength, Nat.add_zero]

theorem numberLength_of_digits {ds : List Char} (h : ∀ c ∈ ds, c.isDigit = true) :
    numberLength ds = ds.length :=
  numberLength_of_mantissaLength (by simp [mantissaLength, digitCount_of_digits h])

/-- Digits with a point among them are all of a number. -/
theorem numberLength_of_pointed {ds fs : List Char} (hds : ∀ c ∈ ds, c.isDigit = true)
    (hfs : ∀ c ∈ fs, c.isDigit = true) (hne : ds ≠ []) :
    numberLength (ds ++ '.' :: fs) = (ds ++ '.' :: fs).length := by
  have hwhole : digitCount (ds ++ '.' :: fs) = ds.length := by
    rw [digitCount, List.takeWhile_append_of_pos hds]
    simp [show ('.').isDigit = false from by decide]
  have hpos : ds.length ≠ 0 := by simpa using hne
  apply numberLength_of_mantissaLength
  unfold mantissaLength
  simp only [hwhole, List.drop_left, digitCount_of_digits hfs]
  rw [if_neg (by simp [hpos]), List.length_append, List.length_cons]
  omega

/-- A number that begins with digits is cut off in front of a boundary if all of it is one. -/
theorem cutsOff_number (n : Nat) (tail : List Char)
    (hlen : numberLength (Decimal.digitsOf n ++ tail) = (Decimal.digitsOf n ++ tail).length)
    (hrest : Boundary rest) : CutsOff (.number, Decimal.digitsOf n ++ tail) rest := by
  obtain ⟨c, ds, hcons⟩ := List.exists_cons_of_ne_nil (Decimal.digitsOf_ne_nil n)
  have hplain : isPlain c = true := by
    apply isPlain_of_isDigit
    apply Decimal.isDigit_of_mem_digitsOf (n := n)
    rw [hcons]
    exact List.mem_cons_self
  have hstart : startsLiteral c = true := by rw [startsLiteral, hplain, Bool.true_or]
  rw [hcons, List.cons_append] at hlen ⊢
  refine ⟨c, ds ++ tail, rfl, isLayout_of_startsLiteral hstart, ?_⟩
  rw [scan_of_startsLiteral hstart, ← List.cons_append, scanLiteral, numberLength_append hrest,
    hlen, List.drop_left]
  simp [hrest.textFollows_eq]

theorem CutsOff.cut_number {cs : List Char} {v : Value} (h : CutsOff (.number, cs) rest)
    (hv : number cs = .ok v) : Cut cs rest (.literal .number v) := by
  obtain ⟨c, ds, hcons, hc, hscan⟩ := h.isToken
  obtain rfl : cs = c :: ds := hcons
  refine ⟨c, ds, .number, rfl, hc, hscan, ?_⟩
  have hliteral : literal ⟨.number, c :: ds, .start⟩ = .ok (.literal v false) := by
    rw [literal]
    simp only [hv]
    rfl
  exact (word?_eq_some_iff_of_literal rfl).2 ⟨v, hliteral, rfl⟩

/-- The digits of an integer that fits are read as the integer. -/
theorem number_digitsOf {n : Nat} (h : n < integerEnd) :
    number (Decimal.digitsOf n) = .ok (.int (Int64.ofNat n)) := by
  have hmark : ∀ c ∈ Decimal.digitsOf n, (!isExponentMark c) = true := by
    intro c hc
    rw [isExponentMark_of_isDigit (Decimal.isDigit_of_mem_digitsOf c hc)]
    rfl
  have hpoint : (Decimal.digitsOf n).contains '.' = false := by
    rw [List.contains_eq_mem, decide_eq_false_iff_not]
    intro hc
    exact absurd (Decimal.isDigit_of_mem_digitsOf '.' hc) (by decide)
  have hnat : Decimal.nat? (Decimal.digitsOf n) = some n := by
    have hall : (Decimal.digitsOf n).all Char.isDigit = true :=
      List.all_eq_true.2 Decimal.isDigit_of_mem_digitsOf
    simp [Decimal.nat?, Decimal.digitsOf_ne_nil, hall, Decimal.ofDigits_digitsOf]
  have hinteger : integer? (Decimal.digitsOf n) = some (Int64.ofNat n) := by
    rw [integer?, List.takeWhile_eq_self_iff.2 hmark, List.dropWhile_eq_nil_iff.2 hmark, hnat,
      Option.filter_some, if_pos (decide_eq_true h)]
    simp [h]
  rw [number, List.takeWhile_eq_self_iff.2 hmark, hpoint, hinteger]
  rfl

theorem cut_int {i : Int64} (hi : 0 ≤ i.toInt) (hrest : Boundary rest) :
    Cut (Value.int i).toText.toList rest (.literal .number (.int i)) := by
  have hbound : i.toInt.natAbs < integerEnd := by
    have hlt := i.toInt_lt
    have hend : integerEnd = 2 ^ 63 := rfl
    omega
  have hvalue : Int64.ofNat i.toInt.natAbs = i := by
    rw [← Int64.ofInt_eq_ofNat, Int.natAbs_of_nonneg hi, Int64.ofInt_toInt]
  have hnumber := number_digitsOf hbound
  rw [hvalue] at hnumber
  rw [Value.toText, String.toList_ofList, Decimal.ofInt, if_neg (by omega)]
  have hcut := cutsOff_number i.toInt.natAbs []
    (by rw [List.append_nil]; exact numberLength_of_digits Decimal.isDigit_of_mem_digitsOf) hrest
  rw [List.append_nil] at hcut
  exact hcut.cut_number hnumber

/-- Whatever digits a finite float is printed with, they are cut off as a number. -/
theorem cutsOff_float {m : Magnitude} (hm : m ≠ .infinity) (hrest : Boundary rest) :
    CutsOff (.number, (Value.float (.signed false m)).toText.toList) rest := by
  rw [Value.toText, Value.floatText, String.toList_ofList, if_neg Bool.false_ne_true,
    List.nil_append, if_neg hm]
  obtain ⟨fs, zeros, hplaces, -, hlow⟩ := Decimal.places_eq m (show 0 < 9 by decide)
  rw [hplaces]
  apply cutsOff_number _ ('.' :: fs) _ hrest
  exact numberLength_of_pointed Decimal.isDigit_of_mem_digitsOf (Decimal.isDigit_of_places hlow)
    (Decimal.digitsOf_ne_nil _)

theorem ne_infinity_of_number {m : Magnitude} {v : Value}
    (h : number (Value.floatText (.signed false m)).toList = .ok v) : m ≠ .infinity := by
  rintro rfl
  have hinf : number ['i', 'n', 'f'] = .error (.numberOutOfRange "inf") := by decide +kernel
  rw [Value.floatText, String.toList_ofList, if_neg Bool.false_ne_true, List.nil_append, if_pos rfl,
    hinf] at h
  cases h

theorem cut_float {m : Magnitude}
    (h : number (Value.floatText (.signed false m)).toList = .ok (.float (.signed false m)))
    (hrest : Boundary rest) :
    Cut (Value.float (.signed false m)).toText.toList rest
      (.literal .number (.float (.signed false m))) :=
  (cutsOff_float (ne_infinity_of_number h) hrest).cut_number h

/-! ## Truth values -/

/-- A truth word is cut off in front of a boundary if it is all there is. -/
theorem cut_truthWord {c : Char} {ds : List Char} {b : Bool} (hc : startsLiteral c = true)
    (hnumber : numberLength (c :: ds) = 0) (hword : truthWordLength (c :: ds) = (c :: ds).length)
    (hb : word? ⟨.boolean, c :: ds, .start⟩ = some (.literal .boolean (.bool b)))
    (hrest : Boundary rest) : Cut (c :: ds) rest (.literal .boolean (.bool b)) := by
  refine cut_of_scanLiteral .boolean hc ?_ hb
  rw [scanLiteral, numberLength_append hrest, truthWordLength_append hrest, hnumber, hword]
  simp only [List.drop_left, hrest.textFollows_eq]
  rfl

theorem cut_bool (b : Bool) (hrest : Boundary rest) :
    Cut (Value.bool b).toText.toList rest (.literal .boolean (.bool b)) := by
  cases b with
  | true =>
    show Cut ['O', 'N'] rest (.literal .boolean (.bool true))
    exact cut_truthWord (by decide) (by decide) (by decide) (by decide +kernel) hrest
  | false =>
    show Cut ['O', 'F', 'F'] rest (.literal .boolean (.bool false))
    exact cut_truthWord (by decide) (by decide) (by decide) (by decide +kernel) hrest

/-! ## Text -/

theorem cut_text {s : String} (hs : s ≠ "") (hrest : Boundary rest) :
    Cut (Value.text s).unquotedSource.toList rest (.literal .text (.text s)) := by
  have hcs : s.toList ≠ [] := by simpa using hs
  obtain ⟨d, ds, hcons, hd, hscan⟩ := Value.scan_unquoted hcs hrest
  rw [Value.toList_unquotedSource, Value.toText, hcons]
  refine ⟨d, ds, .text, rfl, isLayout_of_startsLiteral hd, hscan, ?_⟩
  have hliteral : literal ⟨.text, d :: ds, .start⟩ = .ok (.literal (.text s) false) := by
    have hdecode := Value.unescape_unquoted hcs
    rw [hcons] at hdecode
    rw [literal, hdecode, String.ofList_toList]
  exact (word?_eq_some_iff_of_literal rfl).2 ⟨_, hliteral, rfl⟩

/-- Quoted text reaches to the `@` that closes it. -/
theorem quotedReach_quoteEscape (cs : List Char) (n : Nat) :
    quotedReach n (cs.flatMap Value.quoteEscape ++ '@' :: rest) =
      some (n + (cs.flatMap Value.quoteEscape).length + 1) := by
  induction cs generalizing n with
  | nil => simp [quotedReach]
  | cons c cs ih =>
    rw [List.flatMap_cons, List.append_assoc, Value.quoteEscape]
    split
    next =>
      rw [List.cons_append, List.singleton_append, quotedReach, ih]
      · simp only [List.length_append, List.length_cons, List.length_nil]
        congr 1
        omega
    next hraw =>
      simp only [Bool.or_eq_true, beq_iff_eq, not_or] at hraw
      rw [List.singleton_append, quotedReach, ih]
      · simp only [List.length_append, List.length_cons, List.length_nil]
        congr 1
        omega
      · exact hraw.1
      · intro hc; exact absurd hc hraw.2
      · intro _ _ hc; exact absurd hc hraw.2

theorem unescape_quoteEscape (cs : List Char) :
    unescape (cs.flatMap Value.quoteEscape) = cs := by
  induction cs with
  | nil => rfl
  | cons c cs ih =>
    rw [List.flatMap_cons, Value.quoteEscape]
    split
    next => rw [List.cons_append, List.singleton_append, unescape, ih]
    next hraw =>
      have hc : c ≠ '\\' := by rintro rfl; exact hraw (by decide)
      rw [List.singleton_append, Value.unescape_cons hc, ih]

theorem cut_quotedText (s : String) :
    Cut (Value.text s).quoted.toList rest (.literal .quotedText (.text s)) := by
  rw [Value.quoted, String.toList_ofList, Value.toText, List.cons_append]
  refine ⟨'@', _, .quotedText, rfl, by decide, ?_, ?_⟩
  · rw [scan, List.append_assoc, List.singleton_append, quotedReach_quoteEscape]
    simp
  · have hliteral : literal ⟨.quotedText, '@' :: (s.toList.flatMap Value.quoteEscape ++ ['@']),
        .start⟩ = .ok (.literal (.text s) true) := by
      rw [literal]
      simp only [unquote, List.drop_succ_cons, List.drop_zero, List.dropLast_concat,
        unescape_quoteEscape, String.ofList_toList]
    exact (word?_eq_some_iff_of_literal rfl).2 ⟨_, hliteral, rfl⟩

end Token

end FlagScript
