import FlagScript.Proofs.Token.Munch
import FlagScript.Proofs.Token.Stream

/-!
# Tokens in front of a line break

No token goes on behind a line break, except that a backslash at the end of a line takes the break
into text. Such a backslash is no token where the source ends with it, so what was cut into tokens
up to its end is cut into the same ones in front of a line break (`Lexes.line`).
-/

namespace FlagScript

namespace Token

variable {c : Char} {cs u : List Char} {kind : TokenClass} {n : Nat}

/-! ## Text at the end of a line -/

/-- Nothing but a backslash is left, perhaps behind blanks. -/
inductive Dangling : List Char → Prop where
  | backslash : Dangling ['\\']
  | blank {c : Char} {cs : List Char} (hc : Text.isInlineBlank c = true) (h : Dangling cs) :
      Dangling (c :: cs)

theorem textReach_newline (b l : Nat) (rest : List Char) : textReach b l ('\n' :: rest) = l :=
  textReach_stop (by decide) (by decide) (by decide) b l rest

theorem textReach_unit_append (hu : TextUnit u) (cs : List Char) :
    textReach 0 0 (u ++ cs) = u.length + textReach 0 0 cs := by
  rw [textReach_append (.unit hu)]
  split <;> omega

theorem textReach_blank_cons (hc : Text.isInlineBlank c = true) (hcs : cs ≠ []) :
    textReach 0 0 (c :: cs) = if textReach 0 0 cs = 0 then 0 else textReach 0 0 cs + 1 := by
  rw [textReach_blank hc 0 0 hcs, textReach_eq cs (0 + 1)]
  split <;> omega

/-- Text reaches as far in front of a line break as at the end, unless a backslash is left. -/
def EndsAtLine (rest cs : List Char) : Prop :=
  textReach 0 0 (cs ++ '\n' :: rest) = textReach 0 0 cs ∨ Dangling (cs.drop (textReach 0 0 cs))

theorem EndsAtLine.unit {rest : List Char} (hu : TextUnit u) (h : EndsAtLine rest cs) :
    EndsAtLine rest (u ++ cs) := by
  unfold EndsAtLine
  rw [List.append_assoc, textReach_unit_append hu, textReach_unit_append hu,
    List.drop_length_add_append]
  exact h.imp_left fun heq => by rw [heq]

theorem endsAtLine (rest : List Char) : ∀ cs : List Char, EndsAtLine rest cs
  | [] => .inl (textReach_newline 0 0 rest)
  | c :: cs => by
    by_cases hplain : isPlain c = true
    · exact (endsAtLine rest cs).unit (.plain hplain)
    by_cases hback : c = '\\'
    · subst hback
      cases cs with
      | nil => exact .inr .backslash
      | cons d ds => exact (endsAtLine rest ds).unit (.escape d)
    by_cases hblank : Text.isInlineBlank c = true
    · have hline : textReach 0 0 (c :: (cs ++ '\n' :: rest)) = _ :=
        textReach_blank_cons hblank (by simp)
      cases hcs : cs with
      | nil =>
        subst hcs
        refine .inl ?_
        rw [List.cons_append, hline, List.nil_append, textReach_newline, if_pos rfl]
        simp [textReach, hplain]
      | cons d ds =>
        rw [← hcs]
        have hend : textReach 0 0 (c :: cs) = _ := textReach_blank_cons hblank (by simp [hcs])
        unfold EndsAtLine
        rw [List.cons_append, hline, hend]
        refine (endsAtLine rest cs).imp (fun heq => by rw [heq]) fun hleft => ?_
        -- blanks in front of the backslash are left with it
        split
        next h0 =>
          rw [h0] at hleft
          exact .blank hblank hleft
        next => exact hleft
    · refine .inl ?_
      rw [List.cons_append, textReach_stop (by simpa using hplain) (by simpa using hblank) hback,
        textReach_stop (by simpa using hplain) (by simpa using hblank) hback]

/-- Where text goes on it goes on whatever stands behind. -/
theorem textFollows_append (h : textFollows cs = true) (rest : List Char) :
    textFollows (cs ++ rest) = true := by
  have hreach : textReach 0 0 cs ≠ 0 := by simpa [textFollows] using h
  obtain ⟨blanks, run, hblanks, hrun, ⟨more, rfl⟩, hlen⟩ := runAhead_of_textReach cs hreach
  have hne : run ++ (more ++ rest) ≠ [] := by simp [hrun.ne_nil]
  have hpos := List.length_pos_iff.2 hrun.ne_nil
  rw [textFollows, List.append_assoc, List.append_assoc, textReach_blanks hblanks hne,
    textReach_run hrun, textReach_eq]
  have hgoes : ∀ m, (if m = 0 then 0 + (0 + blanks.length) + run.length
      else 0 + (0 + blanks.length) + run.length + 0 + m) ≠ 0 := by
    intro m
    split <;> omega
  simpa using hgoes _

/-- Where it does not go on it does not behind a line break, unless a backslash is left. -/
theorem textFollows_line (h : textFollows cs = false) (hleft : ¬ Dangling cs) (rest : List Char) :
    textFollows (cs ++ '\n' :: rest) = false := by
  have hreach : textReach 0 0 cs = 0 := by simpa [textFollows] using h
  rcases endsAtLine rest cs with heq | hdangling
  · rw [textFollows, heq, hreach]
    rfl
  · rw [hreach] at hdangling
    exact absurd hdangling hleft

/-! ## One token -/

theorem scanLiteral_line (h : scanLiteral cs = (kind, n)) (hleft : ¬ Dangling (cs.drop n))
    (rest : List Char) : scanLiteral (cs ++ '\n' :: rest) = (kind, n) := by
  unfold scanLiteral at h ⊢
  simp only [numberLength_append (.line rest), truthWordLength_append (.line rest),
    List.drop_append_of_le_length (numberLength_le cs),
    List.drop_append_of_le_length (truthWordLength_le cs), Bool.and_eq_true, bne_iff_ne,
    Bool.not_eq_true'] at h ⊢
  -- a class in front of the one found is passed over, for text goes on behind it here as well
  have hpassed : ∀ {m : Nat}, ¬ (m ≠ 0 ∧ textFollows (cs.drop m) = false) →
      ¬ (m ≠ 0 ∧ textFollows (cs.drop m ++ '\n' :: rest) = false) := by
    rintro m hno ⟨hm, hstop⟩
    have hgoes : textFollows (cs.drop m) = true := by
      rw [← Bool.not_eq_false]
      exact fun hfalse => hno ⟨hm, hfalse⟩
    rw [textFollows_append hgoes] at hstop
    cases hstop
  split at h
  next hnumber =>
    cases h
    rw [if_pos ⟨hnumber.1, textFollows_line hnumber.2 hleft rest⟩]
  next hnumber =>
    rw [if_neg (hpassed hnumber)]
    split at h
    next hword =>
      cases h
      rw [if_pos ⟨hword.1, textFollows_line hword.2 hleft rest⟩]
    next hword =>
      cases h
      rw [if_neg (hpassed hword), (endsAtLine rest cs).resolve_right hleft]

theorem length_symbol? {l : List Char} (h : kind.symbol? = some l) : l.length ≤ 2 := by
  cases kind <;> cases h <;> decide

/-- A mark is found by its own characters and the next one, which is no mark at a line break. -/
theorem scan_line_of_symbol (hkind : kind.symbol? = some (c :: cs.take n))
    (h : scan c cs = some (kind, n)) (hn : n ≤ cs.length) (rest : List Char) :
    scan c (cs ++ '\n' :: rest) = some (kind, n) := by
  cases cs with
  | nil =>
    obtain rfl := Nat.le_zero.1 hn
    cases kind <;> cases hkind <;> rfl
  | cons d ds =>
    match n with
    | 0 =>
      unfold scan at h ⊢
      cases kind <;> cases hkind <;> split at h <;> simp_all
    | 1 => exact scan_of_pair hkind _
    | n + 2 =>
      have hlen := length_symbol? hkind
      rw [List.length_cons, List.length_take] at hlen
      omega

/-- What the lexer finds it finds in front of a line break as well, unless a backslash is left. -/
theorem scan_line (hc : Text.isLayout c = false) (h : scan c cs = some (kind, n))
    (hleft : ¬ Dangling (cs.drop n)) (rest : List Char) :
    n ≤ cs.length ∧ scan c (cs ++ '\n' :: rest) = some (kind, n) := by
  by_cases hname : c = '$'
  · subst hname
    have hfront := (List.takeWhile_prefix isNameChar (l := cs)).length_le
    -- a name ends where the line does
    have hsame : (cs ++ '\n' :: rest).takeWhile isNameChar = cs.takeWhile isNameChar :=
      takeWhile_append_of_head (fun d hd => by cases hd; decide) cs
    rw [scan_dollar] at h ⊢
    rw [hsame]
    refine ⟨?_, h⟩
    split at h
    next => cases h
    next => cases h; exact hfront
  by_cases hquote : c = '@'
  · subst hquote
    rw [scan_at, Option.map_eq_some_iff] at h ⊢
    obtain ⟨m, hreach, heq⟩ := h
    obtain ⟨-, rfl⟩ := Prod.mk.inj heq
    obtain ⟨body, behind, rfl, hbody, rfl⟩ := body_of_quotedReach hreach
    refine ⟨by simp only [List.length_append, List.length_cons]; omega, _, ?_, heq⟩
    rw [List.append_assoc, List.cons_append, quotedReach_body hbody]
  by_cases hstart : startsLiteral c = true
  · rw [scan_of_startsLiteral hstart] at h ⊢
    split at h
    next => cases h
    next k m hlit =>
      cases h
      have hlen := (lexeme_of_scanLiteral hc hlit (Nat.succ_ne_zero n)).2.1
      have hline : scanLiteral (c :: (cs ++ '\n' :: rest)) = _ := scanLiteral_line hlit hleft rest
      rw [hline]
      exact ⟨Nat.le_of_succ_le_succ hlen, rfl⟩
  · obtain ⟨hkind, hn⟩ := symbol?_of_scan hc (by simpa using hstart) hname hquote h
    exact ⟨hn, scan_line_of_symbol hkind h hn rest⟩

/-! ## Tokens -/

/-- A backslash at the end is no token. -/
theorem Lexes.not_dangling {fs : List (TokenClass × List Char)} (h : Lexes cs fs) :
    ¬ Dangling cs := by
  intro hdangling
  induction hdangling generalizing fs with
  | backslash =>
    cases h with
    | layout hc _ => exact absurd hc (by decide)
    | token _ hscan _ =>
      have hnone : scan '\\' [] = none := by decide
      rw [hnone] at hscan
      cases hscan
  | blank hc _ ih =>
    cases h with
    | layout _ hrest => exact ih hrest
    | token hlayout _ _ =>
      rw [isLayout_of_isInlineBlank hc] at hlayout
      cases hlayout

/-- The tokens of two sources are those of the sources with a line break between them. -/
theorem Lexes.line {fs gs : List (TokenClass × List Char)} {rest : List Char} (h : Lexes cs fs)
    (hrest : Lexes rest gs) : Lexes (cs ++ '\n' :: rest) (fs ++ gs) := by
  induction h with
  | nil => exact .layout (by decide) hrest
  | layout hc _ ih => exact .layout hc ih
  | @token c cs fs kind n hc hscan h ih =>
    obtain ⟨hn, hline⟩ := scan_line hc hscan h.not_dangling rest
    rw [← List.drop_append_of_le_length hn] at ih
    have htoken := Lexes.token hc hline ih
    rwa [List.take_append_of_le_length hn] at htoken

end Token

end FlagScript
