import FlagScript.Proofs.Peg.Pattern
import FlagScript.Proofs.Source.Text
import FlagScript.Proofs.Token.Lexeme

/-!
# Literals as patterns

Numbers, truth words, unquoted and quoted text as patterns of characters. Each of them takes as many
characters as the lexer counts for it, and does not fit where the lexer counts none
(`matches_numberBody`, `matches_truthWord`, `matches_textRun`, `matches_quotedRest`).
-/

namespace FlagScript

open Pattern

namespace Pattern

def digits : Pattern := plus (one Char.isDigit)

def mantissa : Pattern :=
  choice (seq digits (option (seq (char '.') (star (one Char.isDigit))))) (seq (char '.') digits)

def exponent : Pattern :=
  seq (one fun c => c == 'e' || c == 'E') (seq (option (char '-')) digits)

def numberBody : Pattern := seq mantissa (option exponent)

def truthWord : Pattern := choices (Token.truthWords.map (spelled Char.toLower))

/-- A character of unquoted text, or two if the first one is a backslash. -/
def textUnit : Pattern :=
  choice (seq (char '\\') any)
    (seq (notAhead (one fun c => Token.isSpecial c || Text.isLayout c)) any)

/-- Unquoted text that goes on, perhaps behind blanks. -/
def moreText : Pattern := seq (star (one Text.isInlineBlank)) textUnit

def textRun : Pattern := seq textUnit (star moreText)

/-- Something that is not the start of a longer text. -/
def alone (a : Pattern) : Pattern := seq a (notAhead moreText)

/-- A character between quotation marks, or two if the first one is a backslash. -/
def quotedUnit : Pattern :=
  choice (seq (char '\\') any) (seq (notAhead (one fun c => c == '@' || c == '\\')) any)

/-- What stands behind the first quotation mark. -/
def quotedRest : Pattern := seq (star quotedUnit) (char '@')

end Pattern

namespace Token

/-! ## Numbers -/

theorem matches_digits (cs : List Char) : Matches digits cs (found (digitCount cs)) :=
  matches_plus_one Char.isDigit cs

theorem matches_mantissa (cs : List Char) : Matches mantissa cs (found (mantissaLength cs)) := by
  have hwhole := matches_digits cs
  rcases mantissaLength_cases cs with ⟨fs, hfs, hlen⟩ | ⟨hpoint, hlen⟩
  · rw [hlen]
    have hchar : Matches (char '.') ('.' :: fs) (some 1) := .one rfl fs
    by_cases h0 : digitCount cs = 0
    · -- without digits in front of the point there have to be some behind it
      rw [h0] at hwhole hfs ⊢
      rw [List.drop_zero] at hfs
      subst hfs
      have hfraction := matches_behind hchar (matches_digits fs)
      simp only [true_and, Nat.zero_add]
      exact .choiceSecond (.seqNotFirst hwhole) hfraction
    · have hfraction : Matches (seq (char '.') (star (one Char.isDigit)))
          (cs.drop (digitCount cs)) (some (1 + digitCount fs)) := by
        rw [hfs]
        exact .seq hchar (matches_star_one Char.isDigit fs)
      rw [found_of_ne h0] at hwhole
      rw [if_neg (by omega), found_of_ne (by omega)]
      exact .choiceFirst (.seq hwhole (.choiceFirst hfraction))
  · rw [hlen]
    have hnone : Matches (seq (char '.') (star (one Char.isDigit)))
        (cs.drop (digitCount cs)) none :=
      .seqNotFirst (matches_char_none hpoint)
    by_cases h0 : digitCount cs = 0
    · rw [h0] at hwhole hpoint ⊢
      exact .choiceSecond (.seqNotFirst hwhole) (.seqNotFirst (matches_char_none hpoint))
    · rw [found_of_ne h0] at hwhole ⊢
      exact .choiceFirst (.seq hwhole (.choiceSecond hnone (.empty _)))

theorem matches_exponent (cs : List Char) : Matches exponent cs (found (exponentLength cs)) := by
  cases cs with
  | nil => exact .seqNotFirst (.noOne _)
  | cons e cs =>
    rw [exponentLength_cons]
    by_cases he : (e == 'e' || e == 'E') = true
    · have hmark : Matches (one fun c => c == 'e' || c == 'E') (e :: cs) (some 1) := .one he cs
      -- there may be a sign, which takes `n` characters
      have hbehind : ∀ {n : Nat}, Matches (option (char '-')) cs (some n) →
          Matches exponent (e :: cs) (found (if digitCount (cs.drop n) = 0 then 0
            else digitCount (cs.drop n) + n + 1)) := by
        intro n hsign
        have hdigits := matches_behind hsign (matches_digits (cs.drop n))
        by_cases h0 : digitCount (cs.drop n) = 0
        · rw [if_pos h0] at hdigits ⊢
          exact .seqNotSecond hmark hdigits
        · rw [if_neg h0, found_of_ne (by omega)] at hdigits
          rw [if_neg h0, found_of_ne (by omega),
            show digitCount (cs.drop n) + n + 1 = 1 + (n + digitCount (cs.drop n)) by omega]
          exact .seq hmark hdigits
      rw [if_pos he]
      by_cases hminus : cs.head? = some '-'
      · obtain ⟨ds, rfl⟩ := List.head?_eq_some_iff.1 hminus
        rw [if_pos hminus]
        exact hbehind (.choiceFirst (.one rfl ds))
      · rw [if_neg hminus]
        refine hbehind (.choiceSecond (matches_char_none ?_) (.empty cs))
        rintro d hd rfl
        exact hminus hd
    · rw [if_neg he]
      exact .seqNotFirst (.otherOne (by simpa using he) cs)

theorem matches_numberBody (cs : List Char) : Matches numberBody cs (found (numberLength cs)) := by
  have hnumber := matches_seq (matches_mantissa cs) fun _ =>
    matches_option (matches_exponent (cs.drop (mantissaLength cs)))
  unfold numberLength
  split
  next h0 => rwa [if_pos h0] at hnumber
  next hne => rwa [if_neg hne] at hnumber

/-! ## Truth words -/

theorem matches_truthWord (cs : List Char) : Matches truthWord cs (found (truthWordLength cs)) := by
  unfold truthWord truthWordLength
  have hne : ∀ w ∈ truthWords, w.length ≠ 0 := by decide
  generalize truthWords = ws at hne
  -- the words are tried one after the other
  induction ws with
  | nil => exact matches_never cs
  | cons w ws ih =>
    obtain ⟨hw, hws⟩ := List.forall_mem_cons.1 hne
    have hspelled := matches_spelled Char.toLower w cs
    rw [List.find?_cons]
    by_cases hfirst : (cs.take w.length).map Char.toLower = w
    · rw [if_pos hfirst] at hspelled
      rw [beq_iff_eq.2 hfirst]
      show Matches _ cs (found w.length)
      rw [found_of_ne hw]
      exact .choiceFirst hspelled
    · rw [if_neg hfirst] at hspelled
      rw [beq_eq_false_iff_ne.2 hfirst]
      exact .choiceSecond hspelled (ih hws)

/-! ## Text -/

/-- A pattern takes the part of a text up to the next place where the text could end. -/
def TakesUnit (a : Pattern) (cs : List Char) : Prop :=
  ∃ n, Matches a cs (found n) ∧
    textReach 0 0 cs = if n = 0 then 0 else n + textReach 0 0 (cs.drop n)

theorem eq_zero_of_nil {n : Nat}
    (h : textReach 0 0 [] = if n = 0 then 0 else n + textReach 0 0 (([] : List Char).drop n)) :
    n = 0 := by
  by_contra h0
  rw [if_neg h0] at h
  simp only [textReach, List.drop_nil] at h
  omega

theorem takesUnit_of_prefix {a : Pattern} {u rest : List Char} (hu : TextUnit u)
    (h : Matches a (u ++ rest) (some u.length)) : TakesUnit a (u ++ rest) := by
  have hne : u.length ≠ 0 := by simpa using hu.ne_nil
  refine ⟨u.length, by rwa [found_of_ne hne], ?_⟩
  rw [if_neg hne, List.drop_left, textReach_append (.unit hu)]
  split
  next h0 => rw [h0, Nat.add_zero]
  next => rfl

theorem isSpecial_or_isLayout (c : Char) : (isSpecial c || Text.isLayout c) = !isPlain c := by
  simp [isPlain]

theorem takesUnit_textUnit (cs : List Char) (h : ∀ c ∈ cs.head?, Text.isInlineBlank c = false) :
    TakesUnit textUnit cs := by
  cases cs with
  | nil =>
    have hnone : Matches textUnit [] none :=
      .choiceSecond (.seqNotFirst (.noOne _)) (.seqNotSecond (.notAhead (.noOne _)) (.noOne _))
    exact ⟨0, hnone, rfl⟩
  | cons c cs =>
    by_cases hback : c = '\\'
    · subst hback
      have hmark : Matches (char '\\') ('\\' :: cs) (some 1) := .one rfl cs
      cases cs with
      | nil =>
        -- there is nothing for the backslash to stand in front of
        have hnone : Matches textUnit ['\\'] none :=
          .choiceSecond (.seqNotSecond hmark (.noOne _)) (.seqNotFirst (.ahead (.one rfl [])))
        exact ⟨0, hnone, rfl⟩
      | cons d ds => exact takesUnit_of_prefix (.escape d) (.choiceFirst (.seq hmark (.one rfl ds)))
    · have hmark : Matches (seq (char '\\') any) (c :: cs) none :=
        .seqNotFirst (.otherOne (by simpa using hback) cs)
      cases hplain : isPlain c with
      | true =>
        have hother : (isSpecial c || Text.isLayout c) = false := by
          rw [isSpecial_or_isLayout, hplain]
          rfl
        have hunit : Matches textUnit (c :: cs) (some (0 + 1)) :=
          .choiceSecond hmark (.seq (.notAhead (.otherOne hother cs)) (.one rfl cs))
        exact takesUnit_of_prefix (.plain hplain) hunit
      | false =>
        have hset : (isSpecial c || Text.isLayout c) = true := by
          rw [isSpecial_or_isLayout, hplain]
          rfl
        have hnone : Matches textUnit (c :: cs) none :=
          .choiceSecond hmark (.seqNotFirst (.ahead (.one hset cs)))
        exact ⟨0, hnone, textReach_stop hplain (h c rfl) hback 0 0 cs⟩

theorem textReach_cons_blank {c : Char} (hc : Text.isInlineBlank c = true) (cs : List Char) :
    textReach 0 0 (c :: cs) = if textReach 0 0 cs = 0 then 0 else textReach 0 0 cs + 1 := by
  cases cs with
  | nil =>
    have hplain : isPlain c = false := by simp [isPlain, isLayout_of_isInlineBlank hc]
    simp [textReach, hplain]
  | cons d ds =>
    rw [textReach_blank hc 0 0 (List.cons_ne_nil d ds), textReach_eq]
    split
    next => rfl
    next => omega

/-- A blank in front of more text belongs to it. -/
theorem matches_moreText_blank {c : Char} {cs : List Char} {n : Nat}
    (hc : Text.isInlineBlank c = true) (h : Matches moreText cs (found n)) :
    Matches moreText (c :: cs) (found (if n = 0 then 0 else n + 1)) := by
  have hblank : Matches (one Text.isInlineBlank) (c :: cs) (some 1) := .one hc cs
  have hdrop : ∀ k, (c :: cs).drop (1 + k) = cs.drop k := fun k => by
    rw [Nat.add_comm, List.drop_succ_cons]
  cases n with
  | zero =>
    cases h with
    | seqNotFirst ha => cases ha
    | @seqNotSecond _ _ _ k ha hb => exact .seqNotSecond (.star hblank ha) (by rwa [hdrop k])
  | succ n =>
    generalize hr : found (n + 1) = r at h
    cases h with
    | @seq _ _ _ k m ha hb =>
      have hlen : n + 1 = k + m := Option.some.inj hr
      have hmore : Matches moreText (c :: cs) (some (1 + k + m)) :=
        .seq (.star hblank ha) (by rwa [hdrop k])
      rwa [if_neg (Nat.succ_ne_zero n), found_of_ne (by omega), hlen, Nat.add_comm (k + m) 1,
        ← Nat.add_assoc]
    | seqNotFirst _ | seqNotSecond _ _ => cases hr

theorem takesUnit_moreText (cs : List Char) : TakesUnit moreText cs := by
  have hhead : ∀ {cs : List Char}, (∀ c ∈ cs.head?, Text.isInlineBlank c = false) →
      TakesUnit moreText cs := by
    intro cs h
    obtain ⟨n, hunit, hreach⟩ := takesUnit_textUnit cs h
    exact ⟨n, matches_seq_of_zero (.starStop (matches_one_none h)) hunit, hreach⟩
  induction cs with
  | nil => exact hhead (by simp)
  | cons c cs ih =>
    cases hc : Text.isInlineBlank c with
    | false => exact hhead (by simpa using hc)
    | true =>
      obtain ⟨n, hmore, hreach⟩ := ih
      refine ⟨_, matches_moreText_blank hc hmore, ?_⟩
      rw [textReach_cons_blank hc, hreach]
      by_cases h0 : n = 0
      · simp [h0]
      · simp only [h0, if_false, Nat.add_eq_zero_iff, false_and, Nat.succ_ne_zero,
          List.drop_succ_cons]
        omega

/-- Text goes on to where the lexer sees it end. -/
theorem matches_star_moreText (cs : List Char) :
    Matches (star moreText) cs (some (textReach 0 0 cs)) := by
  induction hlen : cs.length using Nat.strongRecOn generalizing cs with
  | _ len ih =>
    obtain ⟨n, hmore, hreach⟩ := takesUnit_moreText cs
    by_cases h0 : n = 0
    · rw [h0] at hmore
      rw [hreach, if_pos h0]
      exact .starStop hmore
    · rw [found_of_ne h0] at hmore
      rw [hreach, if_neg h0]
      have hne : cs ≠ [] := by
        rintro rfl
        exact h0 (eq_zero_of_nil hreach)
      have hshort : (cs.drop n).length < len := by
        have hpos := List.length_pos_iff.2 hne
        rw [List.length_drop]
        omega
      exact .star hmore (ih _ hshort _ rfl)

theorem matches_textRun {c : Char} {cs : List Char} (hc : Text.isLayout c = false) :
    Matches textRun (c :: cs) (found (textReach 0 0 (c :: cs))) := by
  have hblank : Text.isInlineBlank c = false := by
    cases h : Text.isInlineBlank c with
    | false => rfl
    | true => rw [isLayout_of_isInlineBlank h] at hc; cases hc
  obtain ⟨n, hunit, hreach⟩ := takesUnit_textUnit (c :: cs) (by simpa using hblank)
  rw [hreach]
  exact matches_seq hunit fun _ => matches_star_moreText _

/-- What a text would go on from is no token of its own. -/
theorem matches_alone {a : Pattern} {cs : List Char} {n : Nat} (h : Matches a cs (found n)) :
    Matches (alone a) cs (found (if textFollows (cs.drop n) then 0 else n)) := by
  obtain ⟨m, hmore, hreach⟩ := takesUnit_moreText (cs.drop n)
  by_cases h0 : n = 0
  · rw [h0, ite_self]
    rw [h0] at h
    exact .seqNotFirst h
  · rw [found_of_ne h0] at h
    by_cases hm : m = 0
    · have hstop : textFollows (cs.drop n) = false := by simp [textFollows, hreach, hm]
      rw [hm] at hmore
      rw [hstop, if_neg Bool.false_ne_true, found_of_ne h0]
      exact .seq h (.notAhead hmore)
    · have hfollows : textFollows (cs.drop n) = true := by simp [textFollows, hreach, hm]
      rw [found_of_ne hm] at hmore
      rw [if_pos hfollows]
      exact .seqNotSecond h (.ahead hmore)

/-! ## Quoted text -/

theorem matches_quotedRest_of_unit {cs : List Char} {n : Nat} {r : Option Nat}
    (hunit : Matches quotedUnit cs (some n)) (h : Matches quotedRest (cs.drop n) r) :
    Matches quotedRest cs (r.map (n + ·)) := by
  cases h with
  | seq ha hb =>
    rw [List.drop_drop] at hb
    have hseq := Matches.seq (.star hunit ha) hb
    rwa [Nat.add_assoc] at hseq
  | seqNotFirst ha => cases ha
  | seqNotSecond ha hb =>
    rw [List.drop_drop] at hb
    exact .seqNotSecond (.star hunit ha) hb

/-- Quoted text is looked for as far as the lexer does. -/
theorem matches_quotedRest (n : Nat) (cs : List Char) :
    ∃ r, Matches quotedRest cs r ∧ quotedReach n cs = r.map (n + ·) := by
  have hstop : ∀ {cs : List Char}, Matches quotedUnit cs none → ∀ {r}, Matches (char '@') cs r →
      Matches quotedRest cs r := fun h _ hclose => matches_seq_of_zero (.starStop h) hclose
  fun_induction quotedReach n cs with
  | case1 n =>
    have hunit : Matches quotedUnit [] none :=
      .choiceSecond (.seqNotFirst (.noOne _)) (.seqNotSecond (.notAhead (.noOne _)) (.noOne _))
    exact ⟨none, hstop hunit (.noOne _), rfl⟩
  | case2 n cs =>
    have hunit : Matches quotedUnit ('@' :: cs) none :=
      .choiceSecond (.seqNotFirst (.otherOne rfl cs)) (.seqNotFirst (.ahead (.one rfl cs)))
    exact ⟨some 1, hstop hunit (.one rfl cs), rfl⟩
  | case3 n =>
    have hunit : Matches quotedUnit ['\\'] none :=
      .choiceSecond (.seqNotSecond (.one rfl []) (.noOne _)) (.seqNotFirst (.ahead (.one rfl [])))
    exact ⟨none, hstop hunit (.otherOne rfl []), rfl⟩
  | case4 n c cs ih =>
    obtain ⟨r, hr, hreach⟩ := ih
    have hunit : Matches quotedUnit ('\\' :: c :: cs) (some 2) :=
      .choiceFirst (.seq (.one rfl (c :: cs)) (.one rfl cs))
    refine ⟨r.map (2 + ·), matches_quotedRest_of_unit hunit hr, ?_⟩
    rw [hreach]
    cases r <;> simp [Nat.add_assoc]
  | case5 n c cs hat hlone hpair ih =>
    obtain ⟨r, hr, hreach⟩ := ih
    have hback : c ≠ '\\' := by
      rintro rfl
      cases cs with
      | nil => exact hlone rfl rfl
      | cons d ds => exact hpair d ds rfl rfl
    have hset : (c == '@' || c == '\\') = false := by simpa using ⟨hat, hback⟩
    have hunit : Matches quotedUnit (c :: cs) (some (0 + 1)) :=
      .choiceSecond (.seqNotFirst (.otherOne (by simpa using hback) cs))
        (.seq (.notAhead (.otherOne hset cs)) (.one rfl cs))
    refine ⟨r.map (1 + ·), matches_quotedRest_of_unit hunit hr, ?_⟩
    rw [hreach]
    cases r <;> simp [Nat.add_assoc]

end Token

end FlagScript
