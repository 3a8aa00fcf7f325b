import FlagScript.Proofs.Source.Text
import Mathlib.Data.List.Find

/-!
# Literals as the lexer finds them

What the lexer makes of a literal depends on the literal alone, as long as a boundary stands behind
it: its number length and its truth word are those of the literal (`numberLength_append`,
`truthWordLength_append`), and text ends where it was printed to end. So the printer may look at a
text on its own to see whether it would read as another literal.
-/

namespace FlagScript

namespace Token

variable {rest : List Char}

/-- A boundary begins with none of the characters of names, numbers and words. -/
theorem Boundary.head_ne (h : Boundary rest) {c : Char} (hc : c ∈ rest.head?) :
    isNameChar c = false ∧ c.isDigit = false ∧ c ≠ '.' ∧ c ≠ '-' ∧ c ≠ 'e' ∧ c ≠ 'E' ∧
      ∀ w ∈ truthWords, c.toLower ∉ w := by
  have hmem := h.head hc
  simp only [List.mem_cons, List.not_mem_nil, or_false] at hmem
  rcases hmem with rfl | rfl | rfl | rfl
  · decide
  · decide
  · decide
  · decide

theorem takeWhile_append_of_head {p : Char → Bool} (h : ∀ c ∈ rest.head?, p c = false) :
    ∀ cs : List Char, (cs ++ rest).takeWhile p = cs.takeWhile p
  | [] => by
    cases rest with
    | nil => rfl
    | cons c rest => simp [h c rfl]
  | c :: cs => by
    rw [List.cons_append, List.takeWhile_cons, List.takeWhile_cons,
      takeWhile_append_of_head h cs]

/-! ## Numbers -/

theorem digitCount_append (h : Boundary rest) (cs : List Char) :
    digitCount (cs ++ rest) = digitCount cs := by
  rw [digitCount, takeWhile_append_of_head (fun c hc => (h.head_ne hc).2.1)]
  rfl

theorem digitCount_le (cs : List Char) : digitCount cs ≤ cs.length :=
  (List.takeWhile_prefix _).length_le

theorem digitCount_boundary (h : Boundary rest) : digitCount rest = 0 := by
  simpa [digitCount] using digitCount_append h []

theorem mantissaLength_append (h : Boundary rest) (cs : List Char) :
    mantissaLength (cs ++ rest) = mantissaLength cs := by
  unfold mantissaLength
  simp only [digitCount_append h, List.drop_append_of_le_length (digitCount_le cs)]
  cases hdrop : cs.drop (digitCount cs) with
  | nil =>
    -- all of it are digits, and the boundary does not begin with a point
    cases hrest : rest with
    | nil => rfl
    | cons c rest' =>
      have hc : c ≠ '.' := (h.head_ne (by rw [hrest]; rfl)).2.2.1
      simp only [List.nil_append]
      split
      next ds heq => injection heq with heq; exact absurd heq hc
      next => rfl
  | cons c ds =>
    rw [List.cons_append]
    by_cases hc : c = '.'
    · subst hc
      simp only [digitCount_append h]
    · split
      next heq => injection heq with heq; exact absurd heq hc
      next =>
        split
        next heq => injection heq with heq; exact absurd heq hc
        next => rfl

theorem mantissaLength_le (cs : List Char) : mantissaLength cs ≤ cs.length := by
  unfold mantissaLength
  have hwhole := digitCount_le cs
  simp only
  split
  next ds hdrop =>
    have hlen := congrArg List.length hdrop
    have hfraction := digitCount_le ds
    rw [List.length_drop, List.length_cons] at hlen
    split <;> omega
  next => exact hwhole

/-- The digits of an exponent, and how many characters stand in front of them. -/
theorem exponentLength_cons (e : Char) (cs : List Char) :
    exponentLength (e :: cs) =
      if e == 'e' || e == 'E' then
        if cs.head? = some '-' then
          if digitCount cs.tail = 0 then 0 else digitCount cs.tail + 2
        else if digitCount cs = 0 then 0 else digitCount cs + 1
      else 0 := by
  unfold exponentLength
  simp only
  split
  next =>
    split
    next => rfl
    next hminus =>
      have hhead : cs.head? ≠ some '-' := by
        cases cs with
        | nil => simp
        | cons c cs =>
          intro h
          exact hminus cs (by rw [List.head?_cons] at h; injection h with h; rw [h])
      rw [if_neg hhead]
  next => rfl

theorem exponentLength_append (h : Boundary rest) (cs : List Char) :
    exponentLength (cs ++ rest) = exponentLength cs := by
  cases cs with
  | nil =>
    cases hrest : rest with
    | nil => rfl
    | cons c rest' =>
      have hc := h.head_ne (c := c) (by rw [hrest]; rfl)
      simp [exponentLength, hc]
  | cons e cs =>
    rw [List.cons_append, exponentLength_cons, exponentLength_cons]
    cases cs with
    | nil =>
      have hhead : rest.head? ≠ some '-' := by
        intro hminus
        exact (h.head_ne (Option.mem_def.2 hminus)).2.2.2.1 rfl
      have hnil : digitCount [] = 0 := rfl
      simp [hhead, hnil, digitCount_boundary h]
    | cons c cs =>
      rw [digitCount_append h (c :: cs), show (c :: cs ++ rest).tail = cs ++ rest from rfl,
        digitCount_append h cs]
      rfl

theorem exponentLength_le (cs : List Char) : exponentLength cs ≤ cs.length := by
  cases cs with
  | nil => exact Nat.le_refl 0
  | cons e cs =>
    have hcs := digitCount_le cs
    have htail := digitCount_le cs.tail
    rw [exponentLength_cons, List.length_cons]
    split
    · split
      next hminus =>
        obtain ⟨ds, rfl⟩ := List.head?_eq_some_iff.1 hminus
        rw [List.tail_cons] at htail ⊢
        rw [List.length_cons]
        split <;> omega
      next => split <;> omega
    · omega

theorem numberLength_le (cs : List Char) : numberLength cs ≤ cs.length := by
  unfold numberLength
  split
  next => exact Nat.zero_le _
  next =>
    have hmantissa := mantissaLength_le cs
    have hexponent := exponentLength_le (cs.drop (mantissaLength cs))
    rw [List.length_drop] at hexponent
    omega

/-- How long a number is does not depend on what stands behind the boundary. -/
theorem numberLength_append (h : Boundary rest) (cs : List Char) :
    numberLength (cs ++ rest) = numberLength cs := by
  unfold numberLength
  rw [mantissaLength_append h]
  split
  next => rfl
  next =>
    rw [List.drop_append_of_le_length (mantissaLength_le cs), exponentLength_append h]

/-! ## Truth words -/

theorem truthWord_append (h : Boundary rest) (cs : List Char) {w : List Char}
    (hw : w ∈ truthWords) :
    (((cs ++ rest).take w.length).map Char.toLower == w) =
      ((cs.take w.length).map Char.toLower == w) := by
  -- a word that is longer than the text could only match across the boundary
  by_cases hlen : w.length ≤ cs.length
  · rw [List.take_append_of_le_length hlen]
  · rw [List.take_append, List.take_of_length_le (by omega)]
    have hshort : (cs.map Char.toLower == w) = false := by
      rw [beq_eq_false_iff_ne]
      rintro rfl
      rw [List.length_map] at hlen
      exact hlen (Nat.le_refl _)
    rw [hshort, beq_eq_false_iff_ne]
    intro heq
    cases hrest : rest with
    | nil =>
      rw [hrest, List.take_nil, List.append_nil] at heq
      rw [heq, beq_self_eq_true] at hshort
      cases hshort
    | cons c rest' =>
      obtain ⟨k, hk⟩ : ∃ k, w.length - cs.length = k + 1 := ⟨w.length - cs.length - 1, by omega⟩
      rw [hrest, hk, List.take_succ_cons, List.map_append, List.map_cons] at heq
      refine (h.head_ne (c := c) (by rw [hrest]; rfl)).2.2.2.2.2.2 w hw ?_
      rw [← heq]
      simp

theorem truthWordLength_le (cs : List Char) : truthWordLength cs ≤ cs.length := by
  unfold truthWordLength
  split
  next w hfind =>
    have heq : (cs.take w.length).map Char.toLower = w := by
      simpa using List.find?_some hfind
    have hlen := congrArg List.length heq
    rw [List.length_map, List.length_take] at hlen
    omega
  next => exact Nat.zero_le _

/-- Which truth word stands in front does not depend on what stands behind the boundary. -/
theorem truthWordLength_append (h : Boundary rest) (cs : List Char) :
    truthWordLength (cs ++ rest) = truthWordLength cs := by
  have hfind : (truthWords.find? fun w => ((cs ++ rest).take w.length).map Char.toLower == w) =
      truthWords.find? fun w => (cs.take w.length).map Char.toLower == w := by
    apply List.find?_congr
    intro w hw
    exact truthWord_append h cs hw
  unfold truthWordLength
  rw [hfind]

/-! ## Numbers and truth words are written without a backslash -/

theorem not_backslash_of_mem_digits {c : Char} {cs : List Char}
    (hc : c ∈ cs.take (digitCount cs)) : c ≠ '\\' := by
  have hdigits : cs.take (digitCount cs) = cs.takeWhile Char.isDigit :=
    (List.prefix_iff_eq_take.1 (List.takeWhile_prefix _)).symm
  rw [hdigits] at hc
  rintro rfl
  exact absurd (List.all_eq_true.1 List.all_takeWhile _ hc) (by decide)

theorem not_backslash_of_mem_exponent {c : Char} : ∀ {cs : List Char},
    c ∈ cs.take (exponentLength cs) → c ≠ '\\'
  | [], hc => by simp at hc
  | e :: cs, hc => by
    rw [exponentLength_cons] at hc
    split at hc
    next he =>
      have hmark : e ≠ '\\' := by rintro rfl; exact absurd he (by decide)
      split at hc
      next hminus =>
        obtain ⟨ds, rfl⟩ := List.head?_eq_some_iff.1 hminus
        rw [List.tail_cons] at hc
        split at hc
        · simp at hc
        · rcases (by simpa using hc : c = e ∨ c = '-' ∨ c ∈ ds.take (digitCount ds)) with
            rfl | rfl | hc
          · exact hmark
          · decide
          · exact not_backslash_of_mem_digits hc
      next =>
        split at hc
        · simp at hc
        · rcases (by simpa using hc : c = e ∨ c ∈ cs.take (digitCount cs)) with rfl | hc
          · exact hmark
          · exact not_backslash_of_mem_digits hc
    next => simp at hc

theorem not_backslash_of_mem_mantissa {c : Char} {cs : List Char}
    (hc : c ∈ cs.take (mantissaLength cs)) : c ≠ '\\' := by
  unfold mantissaLength at hc
  simp only at hc
  split at hc
  next ds hdrop =>
    split at hc
    · simp at hc
    · -- the digits in front of the point, and then what stands from there on
      rw [Nat.add_assoc, List.take_add, hdrop, List.mem_append] at hc
      rcases hc with hc | hc
      · exact not_backslash_of_mem_digits hc
      · rw [Nat.add_comm, List.take_succ_cons, List.mem_cons] at hc
        rcases hc with rfl | hc
        · decide
        · exact not_backslash_of_mem_digits hc
  next => exact not_backslash_of_mem_digits hc

theorem not_backslash_of_mem_number {c : Char} {cs : List Char}
    (hc : c ∈ cs.take (numberLength cs)) : c ≠ '\\' := by
  unfold numberLength at hc
  split at hc
  next => simp at hc
  next =>
    rw [List.take_add, List.mem_append] at hc
    rcases hc with hc | hc
    · exact not_backslash_of_mem_mantissa hc
    · exact not_backslash_of_mem_exponent hc

theorem not_backslash_of_mem_truthWord {c : Char} {cs : List Char}
    (hc : c ∈ cs.take (truthWordLength cs)) : c ≠ '\\' := by
  unfold truthWordLength at hc
  split at hc
  next w hfind =>
    have hw := List.mem_of_find?_eq_some hfind
    have heq : (cs.take w.length).map Char.toLower = w := by
      simpa using List.find?_some hfind
    have hlower : c.toLower ∈ w := by
      rw [← heq]
      exact List.mem_map_of_mem hc
    rintro rfl
    exact absurd hlower ((by decide : ∀ w ∈ truthWords, ('\\').toLower ∉ w) w hw)
  next => simp at hc

end Token

end FlagScript
