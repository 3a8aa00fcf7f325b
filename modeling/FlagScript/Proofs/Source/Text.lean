import FlagScript.Expr.Source
import FlagScript.Phrase.Meaning

/-!
# Unquoted text as it is printed

The text of a value is printed with backslashes in front of all that would end it. Two facts make it
read back: the lexer takes the printed text to its end and no further (`textReach_escapeFrom`), and
decoding the escapes gives the text (`unescape_escapeFrom`).
-/

namespace FlagScript

namespace Token

/-! ## How far text reaches -/

theorem isPlain_iff {c : Char} :
    isPlain c = true ↔ isSpecial c = false ∧ Text.isLayout c = false := by
  simp [isPlain]

theorem isInlineBlank_of_isPlain {c : Char} (h : isPlain c = true) :
    Text.isInlineBlank c = false := by
  have hl := (isPlain_iff.1 h).2
  simp only [Text.isLayout, Bool.or_eq_false_iff] at hl
  simp [Text.isInlineBlank, hl]

theorem ne_backslash_of_isPlain {c : Char} (h : isPlain c = true) : c ≠ '\\' := by
  rintro rfl
  exact absurd h (by decide)

theorem textReach_plain {c : Char} (h : isPlain c = true) (b l : Nat) (cs : List Char) :
    textReach b l (c :: cs) = textReach 0 (l + b + 1) cs := by
  cases cs with
  | nil => simp [textReach, h]
  | cons d cs =>
    simp [textReach, h, isInlineBlank_of_isPlain h, ne_backslash_of_isPlain h]

theorem textReach_escape (d : Char) (b l : Nat) (cs : List Char) :
    textReach b l ('\\' :: d :: cs) = textReach 0 (l + b + 2) cs := by
  simp [textReach, Text.isInlineBlank]

theorem textReach_blank {c : Char} (h : Text.isInlineBlank c = true) (b l : Nat)
    {cs : List Char} (hcs : cs ≠ []) :
    textReach b l (c :: cs) = textReach (b + 1) l cs := by
  cases cs with
  | nil => exact absurd rfl hcs
  | cons d cs => simp [textReach, h]

theorem textReach_stop {c : Char} (hplain : isPlain c = false)
    (hblank : Text.isInlineBlank c = false) (hc : c ≠ '\\') (b l : Nat) (cs : List Char) :
    textReach b l (c :: cs) = l := by
  cases cs with
  | nil => simp [textReach, hplain]
  | cons d cs => simp [textReach, hplain, hblank, hc]

/-- What was seen before only counts: it never decides how far text reaches from here. -/
theorem textReach_eq : ∀ (cs : List Char) (b l : Nat),
    textReach b l cs = if textReach 0 0 cs = 0 then l else l + b + textReach 0 0 cs
  | [], b, l => by simp [textReach]
  | [c], b, l => by by_cases h : isPlain c = true <;> simp [textReach, h]
  | c :: d :: cs, b, l => by
    by_cases hblank : Text.isInlineBlank c = true
    · rw [textReach_blank hblank _ _ (by simp), textReach_blank hblank _ _ (by simp),
        textReach_eq (d :: cs) (b + 1), textReach_eq (d :: cs) (0 + 1)]
      -- text goes on behind the blank, or it had ended in front of it
      split <;> simp_all; omega
    · by_cases hc : c = '\\'
      · subst hc
        rw [textReach_escape, textReach_escape, textReach_eq cs, textReach_eq cs 0 (0 + 0 + 2)]
        split
        · simp
        · rw [if_neg (by omega)]; omega
      · by_cases hplain : isPlain c = true
        · rw [textReach_plain hplain, textReach_plain hplain, textReach_eq (d :: cs),
            textReach_eq (d :: cs) 0 (0 + 0 + 1)]
          split
          · simp
          · rw [if_neg (by omega)]; omega
        · rw [textReach_stop (by simpa using hplain) (by simpa using hblank) hc,
            textReach_stop (by simpa using hplain) (by simpa using hblank) hc]
          simp

theorem textReach_of_not_follows {rest : List Char} (h : textFollows rest = false) (b l : Nat) :
    textReach b l rest = l := by
  rw [textReach_eq, if_pos]
  simpa [textFollows] using h

/-! ## What stands behind a printed literal -/

/-- The characters behind a literal that is printed: none, the end of an argument, a group or a
line, or a blank with an operator behind it. -/
inductive Boundary : List Char → Prop where
  | nil : Boundary []
  | comma (cs : List Char) : Boundary (',' :: cs)
  | paren (cs : List Char) : Boundary (')' :: cs)
  | line (cs : List Char) : Boundary ('\n' :: cs)
  | operator {c : Char} (cs : List Char) (hc : isSpecial c = true) (hne : c ≠ '\\') :
      Boundary (' ' :: c :: cs)

theorem isInlineBlank_of_isSpecial {c : Char} (h : isSpecial c = true) :
    Text.isInlineBlank c = false := by
  cases hblank : Text.isInlineBlank c with
  | false => rfl
  | true =>
    simp only [Text.isInlineBlank, Bool.or_eq_true, beq_iff_eq] at hblank
    rcases hblank with rfl | rfl
    · exact absurd h (by decide)
    · exact absurd h (by decide)

variable {rest : List Char}

theorem Boundary.textFollows_eq (h : Boundary rest) : textFollows rest = false := by
  cases h with
  | nil => rfl
  | comma cs => simp [textFollows, textReach_stop (c := ',') (by decide) (by decide) (by decide)]
  | paren cs => simp [textFollows, textReach_stop (c := ')') (by decide) (by decide) (by decide)]
  | line cs => simp [textFollows, textReach_stop (c := '\n') (by decide) (by decide) (by decide)]
  | @operator c cs hc hne =>
    rw [textFollows, textReach_blank (by decide) _ _ (by simp), textReach_stop _ _ hne]
    · rfl
    · simp [isPlain, hc]
    · exact isInlineBlank_of_isSpecial hc

theorem Boundary.head (h : Boundary rest) {c : Char} (hc : c ∈ rest.head?) :
    c ∈ [' ', ',', ')', '\n'] := by
  cases h with
  | nil => cases hc
  | comma cs => cases hc; decide
  | paren cs => cases hc; decide
  | line cs => cases hc; decide
  | operator cs _ _ => cases hc; decide

end Token

/-! ## Escaped text -/

namespace Value

/-- Whether a character that has a number in a text gets a backslash, where `last` is the number of
the last one. -/
def getsBackslash (last i : Nat) (c : Char) : Bool :=
  isSensitive c || (Text.isBlank c && (i == 0 || i == last)) || c == '\n' || c == '\r'

theorem escapeFrom_cons (last i : Nat) (c : Char) (cs : List Char) :
    escapeFrom last i (c :: cs) =
      if getsBackslash last i c then '\\' :: c :: escapeFrom last (i + 1) cs
      else c :: escapeFrom last (i + 1) cs := by
  rw [escapeFrom]
  rfl

theorem isSensitive_eq_isSpecial (c : Char) : isSensitive c = Token.isSpecial c := by
  simp only [isSensitive, Token.isSpecial, List.contains_eq_mem]
  congr 1
  simp only [List.mem_cons, List.not_mem_nil, or_false, eq_iff_iff]
  grind

/-- A character without a backslash is plain, or a blank inside of the text. -/
theorem of_getsBackslash_eq_false {last i : Nat} {c : Char} (h : getsBackslash last i c = false) :
    Token.isPlain c = true ∨ Text.isInlineBlank c = true ∧ i ≠ last := by
  simp only [getsBackslash, Bool.or_eq_false_iff, beq_eq_false_iff_ne] at h
  obtain ⟨⟨⟨hsens, hedge⟩, hn⟩, hr⟩ := h
  rw [isSensitive_eq_isSpecial] at hsens
  by_cases hblank : Text.isInlineBlank c = true
  · refine .inr ⟨hblank, ?_⟩
    rintro rfl
    simp only [Text.isInlineBlank, Bool.or_eq_true, beq_iff_eq] at hblank
    rcases hblank with rfl | rfl
    · simp [show Text.isBlank ' ' = true from by decide] at hedge
    · simp [show Text.isBlank '\t' = true from by decide] at hedge
  · refine .inl (Token.isPlain_iff.2 ⟨hsens, ?_⟩)
    simp only [Text.isInlineBlank, Bool.or_eq_true, beq_iff_eq, not_or] at hblank
    simp [Text.isLayout, hblank, hn, hr]

/-- The lexer takes escaped text to its end: from the character number `i` on, with blanks in front
if there is any character left. -/
theorem textReach_escapeFrom {rest : List Char} (hrest : Token.textFollows rest = false) :
    ∀ (cs : List Char) (last i b l : Nat), i + cs.length = last + 1 → (cs = [] → b = 0) →
      Token.textReach b l (escapeFrom last i cs ++ rest) =
        l + b + (escapeFrom last i cs).length
  | [], last, i, b, l, _, hb => by
    rw [escapeFrom, List.nil_append, Token.textReach_of_not_follows hrest, hb rfl]
    rfl
  | c :: cs, last, i, b, l, hlen, _ => by
    rw [List.length_cons] at hlen
    rw [escapeFrom_cons]
    -- a backslash and its character reach on, as does a plain character
    split
    next =>
      rw [List.cons_append, List.cons_append, Token.textReach_escape,
        textReach_escapeFrom hrest cs last (i + 1) 0 _ (by omega) (fun _ => rfl)]
      simp only [List.length_cons]
      omega
    next hraw =>
      rcases of_getsBackslash_eq_false (by simpa using hraw) with hplain | ⟨hblank, hi⟩
      · rw [List.cons_append, Token.textReach_plain hplain,
          textReach_escapeFrom hrest cs last (i + 1) 0 _ (by omega) (fun _ => rfl)]
        simp only [List.length_cons]
        omega
      · -- a blank without a backslash is never the last character
        have hcs : cs ≠ [] := by rintro rfl; simp only [List.length_nil] at hlen; omega
        have hne : escapeFrom last (i + 1) cs ++ rest ≠ [] := by
          cases cs with
          | nil => exact absurd rfl hcs
          | cons d cs => rw [escapeFrom_cons]; split <;> simp
        rw [List.cons_append, Token.textReach_blank hblank _ _ hne,
          textReach_escapeFrom hrest cs last (i + 1) (b + 1) _ (by omega) (fun h => absurd h hcs)]
        simp only [List.length_cons]
        omega

theorem unescape_cons {c : Char} (hc : c ≠ '\\') (cs : List Char) :
    Token.unescape (c :: cs) = c :: Token.unescape cs := by
  rw [Token.unescape]
  · rintro rfl _; exact hc rfl
  · rintro _ _ rfl; exact absurd rfl hc

/-- Decoding the escapes gives the text. -/
theorem unescape_escapeFrom (last : Nat) : ∀ (cs : List Char) (i : Nat),
    Token.unescape (escapeFrom last i cs) = cs
  | [], i => rfl
  | c :: cs, i => by
    rw [escapeFrom_cons]
    split
    next => rw [Token.unescape, unescape_escapeFrom last cs]
    next hraw =>
      have hc : c ≠ '\\' := by
        rintro rfl
        exact hraw (by simp [getsBackslash, show isSensitive '\\' = true from by decide])
      rw [unescape_cons hc, unescape_escapeFrom last cs]

end Value

end FlagScript
