import FlagScript.Proofs.Peg.Literal
import FlagScript.Proofs.Token.Munch

/-!
# Tokens as patterns

Every class of tokens is a pattern of characters. The lexer does not read these: it looks at a
character and decides. Here it is shown that it decides the same. Where it finds a token, the
pattern of its class takes just that token (`matches_of_scan`), and the other patterns do not fit
there (`matches_none_of_scan`), except that a number or a truth word could be taken for text as well.
-/

namespace FlagScript

open Pattern

namespace TokenClass

/-- Characters that make another operator of an operator, if they stand behind it. -/
def extensions : TokenClass → List Char
  | less | greater | set | not => ['=']
  | plus => ['+', '=']
  | minus => ['-', '=']
  | _ => []

/-- An operator or punctuation, unless it is another operator. -/
def markPattern (k : TokenClass) (cs : List Char) : Pattern :=
  .seq (spelled id cs) (.notAhead (.one k.extensions.contains))

/-- Whether the pattern of a class may fit where the lexer finds a token of another one: a number or
a truth word could be taken for text. -/
def fits (found k : TokenClass) : Bool :=
  found = k || (k = text && (found = number || found = boolean))

/-- How the tokens of a class are written. -/
def pattern : TokenClass → Pattern
  | identifier => .seq (char '$') (Pattern.plus (one Token.isNameChar))
  | boolean => alone truthWord
  | number => alone numberBody
  | quotedText => .seq (char '@') quotedRest
  | text => textRun
  | k => k.markPattern (k.symbol?.getD [])

theorem pattern_of_symbol? {k : TokenClass} {cs : List Char} (h : k.symbol? = some cs) :
    k.pattern = k.markPattern cs := by
  cases k <;> cases h <;> rfl

end TokenClass

namespace Token

/-! ## Operators and punctuation -/

/-- A mark stands in front, and nothing behind it makes another one of it. -/
def MarkAhead (k : TokenClass) (l cs : List Char) : Prop :=
  l <+: cs ∧ ∀ d ∈ (cs.drop l.length).head?, d ∉ k.extensions

theorem matches_mark {k : TokenClass} {l : List Char} (hk : k.symbol? = some l) {cs : List Char}
    (h : MarkAhead k l cs) : Matches k.pattern cs (some l.length) := by
  have hspelled := matches_spelled id l cs
  rw [List.map_id, if_pos (List.prefix_iff_eq_take.1 h.1).symm] at hspelled
  have hnone : Matches (one k.extensions.contains) (cs.drop l.length) none :=
    matches_one_none fun d hd => by simpa using h.2 d hd
  rw [TokenClass.pattern_of_symbol? hk]
  exact .seq hspelled (.notAhead hnone)

theorem matches_mark_none {k : TokenClass} {l : List Char} (hk : k.symbol? = some l)
    {cs : List Char} (h : ¬ MarkAhead k l cs) : Matches k.pattern cs none := by
  have hspelled := matches_spelled id l cs
  rw [List.map_id] at hspelled
  rw [TokenClass.pattern_of_symbol? hk]
  split at hspelled
  next htake =>
    -- the mark is there, so something behind it is in the way
    have hfront : l <+: cs := htake ▸ List.take_prefix _ cs
    cases hrest : cs.drop l.length with
    | nil => exact absurd ⟨hfront, by simp [hrest]⟩ h
    | cons d ds =>
      have hd : k.extensions.contains d = true := by
        by_contra hno
        exact h ⟨hfront, by simpa [hrest] using hno⟩
      refine .seqNotSecond hspelled ?_
      rw [hrest]
      exact .ahead (.one hd ds)
  next => exact .seqNotFirst hspelled

/-- What can extend a mark is another mark together with it. -/
theorem symbol?_of_mem_extensions {k : TokenClass} {l : List Char} (hk : k.symbol? = some l)
    {d : Char} (hd : d ∈ k.extensions) :
    l.length = 1 ∧ ∃ k', TokenClass.symbol? k' = some (l ++ [d]) := by
  have hall : ∀ k ∈ TokenClass.table, (k.extensions ≠ [] → (k.symbol?.getD []).length = 1) ∧
      ∀ longer ∈ k.extensions.map fun d => some (k.symbol?.getD [] ++ [d]),
        longer ∈ TokenClass.table.map TokenClass.symbol? := by decide
  obtain ⟨hlen, hlonger⟩ := hall k (mem_table k)
  rw [hk, Option.getD_some] at hlen hlonger
  obtain ⟨k', -, hk'⟩ := List.mem_map.1 (hlonger _ (List.mem_map_of_mem hd))
  exact ⟨hlen (List.ne_nil_of_mem hd), k', hk'⟩

/-- A mark that the lexer finds is not the beginning of another one. -/
theorem markAhead_of_scan {k : TokenClass} {c : Char} {cs : List Char} {n : Nat}
    (h : scan c cs = some (k, n)) (hn : n ≤ cs.length) (hk : k.symbol? = some (c :: cs.take n)) :
    MarkAhead k (c :: cs.take n) (c :: cs) := by
  refine ⟨(List.prefix_cons_inj c).2 (List.take_prefix n cs), fun d hd hmem => ?_⟩
  obtain ⟨hlen, k', hk'⟩ := symbol?_of_mem_extensions hk hmem
  have h0 : n = 0 := by
    rw [List.length_cons, List.length_take] at hlen
    omega
  subst h0
  obtain ⟨ds, rfl⟩ := List.head?_eq_some_iff.1 hd
  have hpair := scan_of_pair hk' ds
  rw [h] at hpair
  cases hpair

/-- The lexer finds a mark where it stands and is not the beginning of another one. -/
theorem scan_of_markAhead {k : TokenClass} {c : Char} {cs l : List Char}
    (hk : k.symbol? = some (c :: l)) (h : MarkAhead k (c :: l) (c :: cs)) :
    scan c cs = some (k, l.length) := by
  obtain ⟨hfront, hother⟩ := h
  obtain ⟨rest, rfl⟩ := (List.prefix_cons_inj c).1 hfront
  rcases symbol?_length hk with rfl | ⟨d, rfl⟩
  · rw [List.length_singleton, List.drop_one, List.tail_cons, List.nil_append] at hother
    unfold scan
    cases k <;> cases hk <;> split <;> first | rfl | simp_all [TokenClass.extensions]
  · exact scan_of_pair hk rest

/-! ## Names and literals -/

theorem matches_identifier (cs : List Char) :
    Matches TokenClass.identifier.pattern ('$' :: cs)
      ((found (cs.takeWhile isNameChar).length).map (· + 1)) := by
  have hmark : Matches (char '$') ('$' :: cs) (some 1) := .one rfl cs
  have hname := matches_plus_one isNameChar cs
  generalize found (cs.takeWhile isNameChar).length = r at hname
  cases r with
  | none => exact .seqNotSecond hmark hname
  | some n =>
    show Matches _ _ (some (n + 1))
    rw [Nat.add_comm]
    exact .seq hmark hname

theorem scan_dollar_eq (cs : List Char) :
    scan '$' cs = (found (cs.takeWhile isNameChar).length).map (TokenClass.identifier, ·) := by
  rw [scan_dollar]
  cases (cs.takeWhile isNameChar).length <;> rfl

theorem matches_quotedText (cs : List Char) :
    Matches TokenClass.quotedText.pattern ('@' :: cs) ((quotedReach 0 cs).map (· + 1)) := by
  have hmark : Matches (char '@') ('@' :: cs) (some 1) := .one rfl cs
  obtain ⟨r, hr, hreach⟩ := matches_quotedRest 0 cs
  rw [hreach]
  cases r with
  | none => exact .seqNotSecond hmark hr
  | some n =>
    show Matches _ _ (some (0 + n + 1))
    rw [Nat.zero_add, Nat.add_comm]
    exact .seq hmark hr

/-- How many characters a number, a truth word or text takes, if it stands alone. -/
def literalLength (k : TokenClass) (cs : List Char) : Nat :=
  match k with
  | .number => if textFollows (cs.drop (numberLength cs)) then 0 else numberLength cs
  | .boolean => if textFollows (cs.drop (truthWordLength cs)) then 0 else truthWordLength cs
  | _ => textReach 0 0 cs

theorem matches_literal {k : TokenClass} (hk : k = .number ∨ k = .boolean ∨ k = .text) {c : Char}
    (hc : Text.isLayout c = false) (cs : List Char) :
    Matches k.pattern (c :: cs) (found (literalLength k (c :: cs))) := by
  rcases hk with rfl | rfl | rfl
  · exact matches_alone (matches_numberBody _)
  · exact matches_alone (matches_truthWord _)
  · exact matches_textRun hc

/-- The lexer tries a number, a truth word and text in this order. -/
theorem scanLiteral_eq (cs : List Char) :
    scanLiteral cs =
      if literalLength .number cs ≠ 0 then (.number, literalLength .number cs)
      else if literalLength .boolean cs ≠ 0 then (.boolean, literalLength .boolean cs)
      else (.text, literalLength .text cs) := by
  unfold scanLiteral literalLength
  simp only [Bool.and_eq_true, bne_iff_ne, Bool.not_eq_true', ne_eq]
  cases textFollows (cs.drop (numberLength cs)) <;>
    cases textFollows (cs.drop (truthWordLength cs)) <;> simp

theorem lexeme_of_literalLength {k : TokenClass} (hk : k = .number ∨ k = .boolean ∨ k = .text)
    {c : Char} {cs : List Char} (hc : Text.isLayout c = false)
    (h : literalLength k (c :: cs) ≠ 0) :
    Lexeme k ((c :: cs).take (literalLength k (c :: cs))) := by
  unfold literalLength at h ⊢
  rcases hk with rfl | rfl | rfl
  · simp only at h ⊢
    split at h
    next => exact absurd rfl h
    next hno =>
      rw [if_neg hno]
      exact lexeme_take_numberLength h
  · simp only at h ⊢
    split at h
    next => exact absurd rfl h
    next hno =>
      rw [if_neg hno]
      exact lexeme_take_truthWordLength h
  · exact .text (textRun_take_textReach hc h).1

/-- A literal without quotation marks begins with a character of text. -/
theorem startsLiteral_of_literalLength {k : TokenClass}
    (hk : k = .number ∨ k = .boolean ∨ k = .text) {c : Char} {cs : List Char} (hc : Text.isLayout c = false)
    (h : literalLength k (c :: cs) ≠ 0) : startsLiteral c = true := by
  have hlexeme := lexeme_of_literalLength hk hc h
  obtain ⟨n, hn⟩ := Nat.exists_eq_succ_of_ne_zero h
  rw [hn, List.take_succ_cons] at hlexeme
  rcases hlexeme.of_cons with hmark | ⟨hid, -⟩ | ⟨hquoted, -⟩ | ⟨-, hstart⟩
  · rcases hk with rfl | rfl | rfl <;> cases hmark
  · rcases hk with rfl | rfl | rfl <;> cases hid
  · rcases hk with rfl | rfl | rfl <;> cases hquoted
  · exact hstart

/-! ## The lexer -/

/-- Where the lexer finds a token, the pattern of its class takes just that token. -/
theorem matches_of_scan {c : Char} {cs : List Char} {k : TokenClass} {n : Nat}
    (hc : Text.isLayout c = false) (h : scan c cs = some (k, n)) :
    Matches k.pattern (c :: cs) (some (n + 1)) := by
  -- the first character says what the lexer looks for
  by_cases hstart : startsLiteral c = true
  · rw [scan_of_startsLiteral hstart] at h
    split at h
    next => cases h
    next kind m hlit =>
      cases h
      obtain ⟨-, -, hk⟩ := lexeme_of_scanLiteral hc hlit (Nat.succ_ne_zero n)
      have hlen : literalLength k (c :: cs) = n + 1 := by
        rw [scanLiteral_eq] at hlit
        split_ifs at hlit
        all_goals
          obtain ⟨rfl, hlen⟩ := Prod.mk.inj hlit
          exact hlen
      have hmatches := matches_literal (k := k) (by tauto) hc cs
      rwa [hlen] at hmatches
  by_cases hname : c = '$'
  · subst hname
    have hmatches := matches_identifier cs
    rw [scan_dollar_eq] at h
    obtain ⟨m, hm, heq⟩ := Option.map_eq_some_iff.1 h
    cases heq
    rwa [hm] at hmatches
  by_cases hquote : c = '@'
  · subst hquote
    have hmatches := matches_quotedText cs
    rw [scan_at] at h
    obtain ⟨m, hm, heq⟩ := Option.map_eq_some_iff.1 h
    cases heq
    rwa [hm] at hmatches
  · obtain ⟨hk, hn⟩ := symbol?_of_scan hc (by simpa using hstart) hname hquote h
    have hmatches := matches_mark hk (markAhead_of_scan h hn hk)
    rwa [List.length_cons, List.length_take, Nat.min_eq_left hn] at hmatches

/-- What a literal takes, the lexer finds, though it may find it to be something else than text. -/
theorem exists_scan_of_literalLength {k : TokenClass} (hk : k = .number ∨ k = .boolean ∨ k = .text)
    {c : Char} {cs : List Char} (hc : Text.isLayout c = false)
    (h : literalLength k (c :: cs) ≠ 0) : ∃ j n, scan c cs = some (j, n) ∧ j.fits k = true := by
  have hscan := scan_of_startsLiteral (startsLiteral_of_literalLength hk hc h) cs
  have hboth : literalLength .number (c :: cs) ≠ 0 → literalLength .boolean (c :: cs) = 0 := by
    intro hnumber
    have hpos : numberLength (c :: cs) ≠ 0 := by
      intro h0
      simp [literalLength, h0] at hnumber
    simp [literalLength, truthWordLength_eq_zero hpos]
  rw [scanLiteral_eq] at hscan
  split_ifs at hscan with hnumber hboolean
  · obtain ⟨n, hn⟩ := Nat.exists_eq_succ_of_ne_zero hnumber
    rw [hn] at hscan
    refine ⟨_, n, hscan, ?_⟩
    rcases hk with rfl | rfl | rfl
    · rfl
    · exact absurd (hboth hnumber) h
    · rfl
  · obtain ⟨n, hn⟩ := Nat.exists_eq_succ_of_ne_zero hboolean
    rw [hn] at hscan
    refine ⟨_, n, hscan, ?_⟩
    rcases hk with rfl | rfl | rfl
    · exact absurd h hnumber
    · rfl
    · rfl
  · rcases hk with rfl | rfl | rfl
    · exact absurd h hnumber
    · exact absurd h hboolean
    · obtain ⟨n, hn⟩ := Nat.exists_eq_succ_of_ne_zero h
      rw [hn] at hscan
      exact ⟨_, n, hscan, rfl⟩

/-- Where the lexer finds no token of a class, the pattern of the class does not fit, but that text
could be taken where a number or a truth word stands. -/
theorem matches_none_of_scan {c : Char} {cs : List Char} {k : TokenClass}
    (hc : Text.isLayout c = false) (h : ∀ j n, scan c cs = some (j, n) → j.fits k = false) :
    Matches k.pattern (c :: cs) none := by
  have hsame : ∀ n, scan c cs ≠ some (k, n) := by
    intro n hscan
    have hno := h k n hscan
    simp [TokenClass.fits] at hno
  have hliteral : k = .number ∨ k = .boolean ∨ k = .text → Matches k.pattern (c :: cs) none := by
    intro hk
    have hmatches := matches_literal hk hc cs
    by_cases h0 : literalLength k (c :: cs) = 0
    · rwa [h0] at hmatches
    · obtain ⟨j, n, hscan, hfits⟩ := exists_scan_of_literalLength hk hc h0
      rw [h j n hscan] at hfits
      cases hfits
  -- whatever the first character is, the class says which pattern has to fail
  cases hk : k.symbol? with
  | some l =>
    refine matches_mark_none hk fun hahead => ?_
    cases l with
    | nil => cases k <;> cases hk
    | cons d l =>
      obtain ⟨rfl, -⟩ := List.cons_prefix_cons.1 hahead.1
      exact hsame _ (scan_of_markAhead hk hahead)
  | none =>
    cases k with
    | number | boolean | text => exact hliteral (by simp)
    | identifier =>
      by_cases hname : c = '$'
      · subst hname
        have hmatches := matches_identifier cs
        rw [scan_dollar_eq] at hsame
        cases hr : found (cs.takeWhile isNameChar).length with
        | none => rwa [hr] at hmatches
        | some n => exact absurd (by rw [hr]; rfl) (hsame n)
      · exact .seqNotFirst (matches_char_none (by simpa using hname))
    | quotedText =>
      by_cases hquote : c = '@'
      · subst hquote
        have hmatches := matches_quotedText cs
        rw [scan_at] at hsame
        cases hr : quotedReach 0 cs with
        | none => rwa [hr] at hmatches
        | some n => exact absurd (by rw [hr]; rfl) (hsame n)
      · exact .seqNotFirst (matches_char_none (by simpa using hquote))
    | _ => cases hk

/-- No token is nothing. -/
theorem matches_nil (k : TokenClass) : Matches k.pattern [] none := by
  cases hk : k.symbol? with
  | some l =>
    refine matches_mark_none hk fun hahead => ?_
    obtain rfl := List.prefix_nil.1 hahead.1
    cases k <;> cases hk
  | none =>
    cases k with
    | number => exact matches_alone (matches_numberBody [])
    | boolean => exact matches_alone (matches_truthWord [])
    | text =>
      obtain ⟨n, hunit, hreach⟩ := takesUnit_textUnit [] (by simp)
      rw [eq_zero_of_nil hreach] at hunit
      exact .seqNotFirst hunit
    | identifier | quotedText => exact .seqNotFirst (.noOne _)
    | _ => cases hk

end Token

end FlagScript
