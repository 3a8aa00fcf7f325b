import FlagScript.Proofs.Source.Literal
import FlagScript.Toml.Document

/-!
# Words of a document read back

Integers, truth values and floating-point numbers are written as words. A word is taken to its end,
and none of those that are written is a date or a time, which would come first.
-/

namespace FlagScript.Toml

variable {cs ds w rest : List Char} {n : Nat}

/-! ## Words -/

/-- No word goes on here, and a date in front would not go on behind a space either. -/
def EndsWord (rest : List Char) : Prop := ∀ c ∈ rest.head?, isWordChar c = false ∧ c ≠ ' '

theorem word_append (hw : ∀ c ∈ w, isWordChar c = true)
    (hrest : EndsWord rest) : word (w ++ rest) = (w, rest) := by
  have htake : (w ++ rest).takeWhile isWordChar = w := by
    rw [Token.takeWhile_append_of_head fun c hc => (hrest c hc).1,
      List.takeWhile_eq_self_iff.2 hw]
  have hdrop : (w ++ rest).dropWhile isWordChar = rest := by
    have happend := List.takeWhile_append_dropWhile (p := isWordChar) (l := w ++ rest)
    rw [htake] at happend
    exact List.append_cancel_left happend
  rw [word]
  simp only [htake, hdrop]
  split
  next _ _ => exact absurd rfl (hrest ' ' rfl).2
  next => rfl

/-- A nonempty run of word characters. -/
structure IsWord (w : List Char) : Prop where
  nonempty : w ≠ []
  chars : ∀ c ∈ w, isWordChar c = true

/-- What begins like a word is read as one. -/
theorem node?_word (depth : Nat) (h : IsWord w) (hrest : EndsWord rest) :
    node? depth (w ++ rest) = (wordValue? w).map fun node => (node, rest) := by
  have hword := word_append h.chars hrest
  obtain ⟨c, cs, rfl⟩ := List.exists_cons_of_ne_nil h.nonempty
  have hc := h.chars c (by simp)
  rw [List.cons_append] at hword ⊢
  rw [node?.eq_def]
  split
  next heq => cases heq; cases hc
  next heq => cases heq; cases hc
  next heq => cases heq; cases hc
  next heq => cases heq; cases hc
  next => rw [hword]

/-! ## Digits -/

theorem ungroup?_of_digits (hne : ds ≠ []) (h : ∀ c ∈ ds, c.isDigit = true) :
    ungroup? Char.isDigit ds = some ds := by
  induction ds with
  | nil => exact absurd rfl hne
  | cons c ds ih =>
    rw [List.forall_mem_cons] at h
    cases ds with
    | nil => simp [ungroup?, h.1]
    | cons d ds =>
      have hd : d ≠ '_' := by
        rintro rfl
        exact absurd (h.2 '_' (by simp)) (by decide)
      have hmore := ih (by simp) h.2
      rw [ungroup?.eq_def]
      split <;> simp_all

/-- A number other than zero is written without a zero in front. -/
theorem head_digitsOf (h : 0 < n) : (Decimal.digitsOf n).head? ≠ some '0' := by
  induction n using Nat.strongRecOn with
  | ind n ih =>
    rw [Decimal.digitsOf, Nat.toDigits_eq_if (by decide)]
    split
    next hlt =>
      have hall : ∀ d : Fin 10, 0 < d.val → [Nat.digitChar d.val].head? ≠ some '0' := by decide
      exact hall ⟨n, hlt⟩ h
    next hle =>
      have hhead := ih (n / 10) (by omega) (by omega)
      obtain ⟨d, ds, hcons⟩ := List.exists_cons_of_ne_nil (Decimal.digitsOf_ne_nil (n / 10))
      rw [hcons] at hhead
      rw [Decimal.digitsOf] at hcons
      rw [hcons]
      exact hhead

/-- No number is written with a needless zero in front. -/
theorem digitsOf_ne_zero_cons (n : Nat) (d : Char) (ds : List Char) :
    Decimal.digitsOf n ≠ '0' :: d :: ds := by
  intro h
  by_cases hn : 0 < n
  · apply head_digitsOf hn
    rw [h]
    rfl
  · obtain rfl : n = 0 := by omega
    cases h

theorem wholeDigits?_digitsOf (n : Nat) :
    wholeDigits? (Decimal.digitsOf n) = some (Decimal.digitsOf n) := by
  rw [wholeDigits?, ungroup?_of_digits (Decimal.digitsOf_ne_nil n) Decimal.isDigit_of_mem_digitsOf]
  split
  next d ds heq => exact absurd (Option.some.inj heq) (digitsOf_ne_zero_cons n d ds)
  next => rfl

theorem sign_of_digits (h : ∀ c ∈ ds.head?, c.isDigit = true) : Decimal.sign ds = (false, ds) := by
  unfold Decimal.sign
  split
  next => exact absurd (h '-' rfl) (by decide)
  next => exact absurd (h '+' rfl) (by decide)
  next => rfl

/-! ## Dates and times -/

theorem eq_cons_of_twoDigits? {least most : Nat} (h : twoDigits? least most w = some (n, rest)) :
    ∃ a b, w = a :: b :: rest := by
  unfold twoDigits? at h
  split at h
  next a b cs =>
    simp only at h
    split at h
    next => cases h; exact ⟨a, b, rfl⟩
    next => cases h
  next => cases h

theorem after?_eq_none {c : Char} (h : c ∉ cs) : after? c cs = none := by
  cases cs with
  | nil => rfl
  | cons x cs =>
    rw [List.mem_cons, not_or] at h
    exact if_neg (Ne.symm h.1)

theorem afterDate?_eq_none (h : '-' ∉ w.tail) : afterDate? w = none := by
  unfold afterDate?
  cases hcentury : twoDigits? 0 99 w with
  | none => rfl
  | some century =>
    obtain ⟨a, b, rfl⟩ := eq_cons_of_twoDigits? hcentury
    cases hyear : twoDigits? 0 99 century.2 with
    | none => simp [hyear]
    | some year =>
      obtain ⟨c, d, heq⟩ := eq_cons_of_twoDigits? hyear
      have hdash : '-' ∉ year.2 := by
        rw [heq] at h
        simp only [List.tail_cons, List.mem_cons, not_or] at h
        exact h.2.2.2
      simp [hyear, after?_eq_none hdash]

theorem afterTime?_eq_none (h : ':' ∉ w) : afterTime? w = none := by
  unfold afterTime?
  cases hhour : twoDigits? 0 23 w with
  | none => rfl
  | some hour =>
    obtain ⟨a, b, rfl⟩ := eq_cons_of_twoDigits? hhour
    have hcolon : ':' ∉ hour.2 := by
      simp only [List.mem_cons, not_or] at h
      exact h.2.2
    simp [after?_eq_none hcolon]

/-- Without a `-` behind its first character and without a `:` a word is no date or time. -/
theorem isMoment_eq_false (hdash : '-' ∉ w.tail) (hcolon : ':' ∉ w) : isMoment w = false := by
  rw [isMoment, afterDate?_eq_none hdash, afterTime?_eq_none hcolon]
  rfl

/-! ## Integers -/

variable {i : Int}

/-- A `-` in front of a negative number. -/
def minus (negative : Bool) : List Char := if negative then ['-'] else []

theorem sign_minus (negative : Bool) (h : ∀ c ∈ ds.head?, c.isDigit = true) :
    Decimal.sign (minus negative ++ ds) = (negative, ds) := by
  cases negative with
  | true => rfl
  | false => exact sign_of_digits h

theorem ofInt_eq (i : Int) : Decimal.ofInt i = minus (i < 0) ++ Decimal.digitsOf i.natAbs := by
  rw [Decimal.ofInt, minus]
  simp only [decide_eq_true_eq]
  split <;> rfl

theorem anyInt?_ofInt (i : Int) : anyInt? (Decimal.ofInt i) = some i := by
  have hdigits : ∀ c ∈ (Decimal.digitsOf i.natAbs).head?, c.isDigit = true := fun c hc =>
    Decimal.isDigit_of_mem_digitsOf c (List.mem_of_mem_head? hc)
  have hsign := sign_minus (decide (i < 0)) hdigits
  rw [← ofInt_eq] at hsign
  unfold anyInt?
  split
  next letter ds heq =>
    -- no integer begins with a zero and has more digits
    rw [Decimal.ofInt] at heq
    split at heq
    next => cases heq
    next => exact absurd heq (digitsOf_ne_zero_cons _ _ _)
  next =>
    simp only [hsign, wholeDigits?_digitsOf, Option.map_some, Decimal.ofDigits_digitsOf,
      decide_eq_true_eq]
    congr 1
    split <;> omega

theorem int?_ofInt (i : Int64) : int? (Decimal.ofInt i.toInt) = some i := by
  have hle := i.le_toInt
  have hlt := i.toInt_lt
  have hrange : Int64.minValue.toInt ≤ i.toInt ∧ i.toInt ≤ Int64.maxValue.toInt := by
    rw [Int64.toInt_minValue, Int64.toInt_maxValue]
    omega
  rw [int?, anyInt?_ofInt]
  simp only
  rw [if_pos hrange, Int64.ofInt_toInt]

/-- Characters of a number without its sign. -/
def IsNumeral (ds : List Char) : Prop :=
  (∃ d ∈ ds.head?, d.isDigit = true) ∧ ∀ c ∈ ds, c.isDigit = true ∨ c = '.'

theorem isNumeral_digitsOf (n : Nat) : IsNumeral (Decimal.digitsOf n) := by
  obtain ⟨d, ds, hcons⟩ := List.exists_cons_of_ne_nil (Decimal.digitsOf_ne_nil n)
  have hall : ∀ c ∈ Decimal.digitsOf n, c.isDigit = true := Decimal.isDigit_of_mem_digitsOf
  rw [hcons] at hall ⊢
  exact ⟨⟨d, rfl, hall d (by simp)⟩, fun c hc => .inl (hall c hc)⟩

/-- A number is a word. -/
theorem IsNumeral.isWord (h : IsNumeral ds) (negative : Bool) : IsWord (minus negative ++ ds) := by
  obtain ⟨⟨d, hhead, -⟩, -⟩ := id h
  have hne : ds ≠ [] := by
    rintro rfl
    cases hhead
  refine ⟨List.append_ne_nil_of_right_ne_nil _ hne, fun c hc => ?_⟩
  rw [List.mem_append] at hc
  rcases hc with hc | hc
  · cases negative with
    | true => obtain rfl := List.mem_singleton.1 hc; decide
    | false => cases hc
  · rcases h.2 c hc with hdigit | rfl
    · simp [isWordChar, isBareKeyChar, Char.isAlphanum, hdigit]
    · decide

/-- A number is neither a truth value nor a date or time. -/
theorem wordValue?_number (h : IsNumeral ds) (negative : Bool) :
    wordValue? (minus negative ++ ds) =
      match int? (minus negative ++ ds) with
      | some i => some (.value (.int i))
      | none => (float? (minus negative ++ ds)).map fun x => .value (.float x) := by
  obtain ⟨⟨d, hhead, hd⟩, hall⟩ := h
  obtain ⟨ds, rfl⟩ := List.head?_eq_some_iff.1 hhead
  have hdash : '-' ∉ d :: ds := fun hmem => by simpa using hall '-' hmem
  have hcolon : ':' ∉ d :: ds := fun hmem => by simpa using hall ':' hmem
  -- a numeral is neither a moment nor a truth value
  have hmoment : isMoment (minus negative ++ d :: ds) = false := by
    apply isMoment_eq_false
    · cases negative with
      | true => exact hdash
      | false => exact fun hmem => hdash (List.mem_cons_of_mem _ hmem)
    · rw [List.mem_append, not_or]
      refine ⟨?_, hcolon⟩
      cases negative <;> decide
  have htrue : minus negative ++ d :: ds ≠ ['t', 'r', 'u', 'e'] := by
    cases negative with
    | true => rintro ⟨⟩
    | false => rintro ⟨⟩; cases hd
  have hfalse : minus negative ++ d :: ds ≠ ['f', 'a', 'l', 's', 'e'] := by
    cases negative with
    | true => rintro ⟨⟩
    | false => rintro ⟨⟩; cases hd
  rw [wordValue?, if_neg htrue, if_neg hfalse, hmoment]
  exact if_neg Bool.false_ne_true

theorem isWord_ofInt (i : Int) : IsWord (Decimal.ofInt i) := by
  rw [ofInt_eq]
  exact (isNumeral_digitsOf _).isWord _

theorem node?_int (depth : Nat) (i : Int64) (hrest : EndsWord rest) :
    node? depth (Decimal.ofInt i.toInt ++ rest) = some (.value (.int i), rest) := by
  have hvalue := wordValue?_number (isNumeral_digitsOf i.toInt.natAbs) (decide (i.toInt < 0))
  rw [← ofInt_eq] at hvalue
  rw [node?_word depth (isWord_ofInt _) hrest, hvalue, int?_ofInt]
  rfl

/-! ## Truth values -/

/-- A truth value as a word. -/
def truthWord : Bool → List Char
  | true => ['t', 'r', 'u', 'e']
  | false => ['f', 'a', 'l', 's', 'e']

theorem isWord_truthWord (b : Bool) : IsWord (truthWord b) := by
  cases b with
  | true => exact ⟨by decide, List.all_eq_true.1 (by decide)⟩
  | false => exact ⟨by decide, List.all_eq_true.1 (by decide)⟩

theorem node?_bool (depth : Nat) (b : Bool) (hrest : EndsWord rest) :
    node? depth (truthWord b ++ rest) = some (.value (.bool b), rest) := by
  rw [node?_word depth (isWord_truthWord b) hrest]
  cases b <;> rfl

end FlagScript.Toml
