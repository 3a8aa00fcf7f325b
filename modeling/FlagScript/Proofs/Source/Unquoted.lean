import FlagScript.Proofs.Source.Scan
import FlagScript.Proofs.Token.Stream

/-!
# Unquoted text reads back

The printer puts a backslash in front of a text that would read as a number or a truth value. It
finds this out by cutting the escaped text on its own, and the lexer finds the same in front of any
boundary (`scan_escape`): so what is printed is cut as one token of class text.
-/

namespace FlagScript

namespace Token

/-! ## Where literals begin -/

/-- A literal begins here, and not an operator, punctuation, a name or quoted text. -/
def startsLiteral (c : Char) : Bool := isPlain c || c == '\\'

theorem isLayout_of_startsLiteral {c : Char} (h : startsLiteral c = true) :
    Text.isLayout c = false := by
  rcases (by simpa [startsLiteral] using h : isPlain c = true ∨ c = '\\') with h | rfl
  · exact (isPlain_iff.1 h).2
  · decide

theorem scan_of_startsLiteral {c : Char} (h : startsLiteral c = true) (cs : List Char) :
    scan c cs =
      match scanLiteral (c :: cs) with
      | (_, 0) => none
      | (kind, n + 1) => some (kind, n) := by
  -- every other character that `scan` knows is special
  unfold scan
  split <;> first | rfl | exact absurd h (by decide)

end Token

namespace Value

variable {rest : List Char}

/-! ## Escaped text -/

/-- A text with the backslashes that it has in a script. -/
def escape (cs : List Char) : List Char := escapeFrom (cs.length - 1) 0 cs

theorem toList_escaped (v : Value) : v.escaped.toList = escape v.toText.toList := by
  rw [escaped, String.toList_ofList]
  rfl

theorem textReach_escape {cs : List Char} (hcs : cs ≠ [])
    (hrest : Token.textFollows rest = false) :
    Token.textReach 0 0 (escape cs ++ rest) = (escape cs).length := by
  have hpos : 0 < cs.length := List.length_pos_iff.2 hcs
  rw [escape, textReach_escapeFrom hrest cs _ 0 0 0 (by omega) (fun h => absurd h hcs)]
  omega

/-- The first character of a text is plain if it has no backslash, for a blank there has one. -/
theorem isPlain_of_getsBackslash {last : Nat} {c : Char} (h : getsBackslash last 0 c = false) :
    Token.isPlain c = true := by
  rcases of_getsBackslash_eq_false h with hplain | ⟨hblank, _⟩
  · exact hplain
  · simp only [Text.isInlineBlank, Bool.or_eq_true, beq_iff_eq] at hblank
    rcases hblank with rfl | rfl
    · exact absurd h (by simp [getsBackslash, show Text.isBlank ' ' = true from by decide])
    · exact absurd h (by simp [getsBackslash, show Text.isBlank '\t' = true from by decide])

theorem escape_eq_cons {cs : List Char} (hcs : cs ≠ []) :
    ∃ d ds, escape cs = d :: ds ∧ Token.startsLiteral d = true := by
  obtain ⟨c, cs, rfl⟩ := List.exists_cons_of_ne_nil hcs
  rw [escape, escapeFrom_cons]
  split
  next => exact ⟨'\\', _, rfl, by decide⟩
  next hraw =>
    refine ⟨c, _, rfl, ?_⟩
    rw [Token.startsLiteral, isPlain_of_getsBackslash (by simpa using hraw), Bool.true_or]

/-- Characters without a backslash stand for themselves, so what follows them is what follows them
in the text, escaped. -/
theorem drop_escapeFrom (last : Nat) : ∀ (n i : Nat) (cs : List Char),
    (∀ c ∈ (escapeFrom last i cs).take n, c ≠ '\\') →
      (escapeFrom last i cs).drop n = escapeFrom last (i + n) (cs.drop n)
  | 0, i, cs, _ => rfl
  | n + 1, i, [], _ => rfl
  | n + 1, i, c :: cs, h => by
    rw [escapeFrom_cons] at h ⊢
    split at h
    next => exact absurd rfl (h '\\' (by simp))
    next hraw =>
      rw [if_neg hraw, List.drop_succ_cons, List.drop_succ_cons,
        drop_escapeFrom last n (i + 1) cs fun d hd => h d (by simp [hd]),
        show i + 1 + n = i + (n + 1) by omega]

/-- Text goes on behind every part of an escaped text but all of it. -/
theorem textFollows_drop_escape {cs : List Char} {n : Nat} (hn : n ≤ (escape cs).length)
    (h : ∀ c ∈ (escape cs).take n, c ≠ '\\') (hrest : Token.textFollows rest = false) :
    Token.textFollows ((escape cs ++ rest).drop n) = (n != (escape cs).length) := by
  rw [List.drop_append_of_le_length hn]
  -- behind all of the text nothing follows, and any other part of it goes on to its end
  by_cases hall : n = (escape cs).length
  · rw [List.drop_of_length_le (by omega), List.nil_append, hrest, hall, bne_self_eq_false]
  · have hlen : ((escape cs).drop n).length ≠ 0 := by rw [List.length_drop]; omega
    rw [escape] at h hlen ⊢
    rw [drop_escapeFrom _ _ _ _ h, Nat.zero_add] at hlen ⊢
    have hdrop : (cs.drop n).length ≠ 0 := by
      intro hnil
      rw [List.length_eq_zero_iff.1 hnil, escapeFrom] at hlen
      exact hlen rfl
    rw [Token.textFollows, textReach_escapeFrom hrest _ _ n 0 0
      (by rw [List.length_drop] at hdrop ⊢; omega) (fun _ => rfl), Nat.zero_add]
    exact (bne_iff_ne.2 hlen).trans (bne_iff_ne.2 hall).symm

/-- The class of literals as which an escaped text reads. -/
def escapedKind (cs : List Char) : TokenClass :=
  if Token.numberLength (escape cs) = (escape cs).length then .number
  else if Token.truthWordLength (escape cs) = (escape cs).length then .boolean
  else .text

/-- What the lexer finds where an escaped text begins depends on the text alone, and is as long. -/
theorem scanLiteral_escape {cs : List Char} (hcs : cs ≠ []) (hrest : Token.Boundary rest) :
    Token.scanLiteral (escape cs ++ rest) = (escapedKind cs, (escape cs).length) := by
  obtain ⟨d, ds, hcons, _⟩ := escape_eq_cons hcs
  have hlen : (escape cs).length ≠ 0 := by rw [hcons, List.length_cons]; omega
  have hfollows := hrest.textFollows_eq
  have hnumber := textFollows_drop_escape (Token.numberLength_le (escape cs))
    (fun c hc => Token.not_backslash_of_mem_number hc) hfollows
  have hword := textFollows_drop_escape (Token.truthWordLength_le (escape cs))
    (fun c hc => Token.not_backslash_of_mem_truthWord hc) hfollows
  rw [Token.scanLiteral, Token.numberLength_append hrest, Token.truthWordLength_append hrest]
  simp only [hnumber, hword, textReach_escape hcs hfollows, escapedKind]
  by_cases hn : Token.numberLength (escape cs) = (escape cs).length
  · simp [hn, hlen]
  · by_cases hw : Token.truthWordLength (escape cs) = (escape cs).length
    · simp [hn, hw, hlen]
    · simp [hn, hw]

theorem scan_escape {cs : List Char} (hcs : cs ≠ []) (hrest : Token.Boundary rest) :
    ∃ d ds, escape cs = d :: ds ∧ Token.startsLiteral d = true ∧
      Token.scan d (ds ++ rest) = some (escapedKind cs, ds.length) := by
  obtain ⟨d, ds, hcons, hd⟩ := escape_eq_cons hcs
  refine ⟨d, ds, hcons, hd, ?_⟩
  rw [Token.scan_of_startsLiteral hd, ← List.cons_append, ← hcons, scanLiteral_escape hcs hrest,
    hcons, List.length_cons]

/-! ## The printed text -/

/-- The printer looks at the text on its own, with nothing behind it. -/
theorem readsAsOtherLiteral_escape {cs : List Char} (hcs : cs ≠ []) :
    readsAsOtherLiteral (escape cs) = (escapedKind cs != .text) := by
  obtain ⟨d, ds, hcons, hd, hscan⟩ := scan_escape hcs .nil
  have hlexes := Token.lexes_append (Token.isLayout_of_startsLiteral hd) hscan .nil
  rw [List.append_nil, ← hcons] at hlexes
  obtain ⟨ts, hts, hforms⟩ := Token.lex_of_lexes hlexes
  obtain ⟨t, rfl, ht⟩ := List.map_eq_singleton_iff.1 hforms
  have hkind : t.kind = escapedKind cs := congrArg Prod.fst ht
  rw [readsAsOtherLiteral, hts]
  simp only [hkind, escapedKind]
  split
  · rfl
  · split <;> rfl

/-- Unquoted text as it is printed. -/
def unquoted (cs : List Char) : List Char :=
  if readsAsOtherLiteral (escape cs) then '\\' :: escape cs else escape cs

theorem toList_unquotedSource (v : Value) :
    v.unquotedSource.toList = unquoted v.toText.toList := by
  rw [unquotedSource, String.toList_ofList, toList_escaped]
  rfl

/-- A text that reads as a number or a truth value begins with a character of its own, so that it
may get a backslash. -/
theorem isPlain_of_readsAsOtherLiteral {cs : List Char} (hcs : cs ≠ [])
    (h : readsAsOtherLiteral (escape cs) = true) :
    ∃ d ds, escape cs = d :: ds ∧ Token.isPlain d = true := by
  obtain ⟨d, ds, hcons, hd⟩ := escape_eq_cons hcs
  refine ⟨d, ds, hcons, ?_⟩
  have hne : d ≠ '\\' := by
    have hmem : d ∈ (escape cs).take (escape cs).length := by rw [List.take_length, hcons]; simp
    rw [readsAsOtherLiteral_escape hcs, escapedKind] at h
    split at h
    next hn => rw [← hn] at hmem; exact Token.not_backslash_of_mem_number hmem
    next =>
      split at h
      next hw => rw [← hw] at hmem; exact Token.not_backslash_of_mem_truthWord hmem
      next => exact absurd h (by decide)
  simpa [Token.startsLiteral, hne] using hd

theorem unescape_unquoted {cs : List Char} (hcs : cs ≠ []) :
    Token.unescape (unquoted cs) = cs := by
  have hplain : Token.unescape (escape cs) = cs := unescape_escapeFrom _ cs 0
  rw [unquoted]
  split
  next hother =>
    obtain ⟨d, ds, hcons, hd⟩ := isPlain_of_readsAsOtherLiteral hcs hother
    rw [hcons, unescape_cons (Token.ne_backslash_of_isPlain hd)] at hplain
    rw [hcons, Token.unescape, hplain]
  next => exact hplain

/-- A text behind a backslash is neither a number nor a truth word. -/
theorem scanLiteral_backslash (cs : List Char) :
    Token.scanLiteral ('\\' :: cs) = (.text, Token.textReach 0 0 ('\\' :: cs)) := by
  have hnumber : Token.numberLength ('\\' :: cs) = 0 := by
    simp [Token.numberLength, Token.mantissaLength, Token.digitCount,
      show ('\\').isDigit = false from by decide]
  have hword : Token.truthWordLength ('\\' :: cs) = 0 := by
    simp [Token.truthWordLength, Token.truthWords, show ('\\').toLower = '\\' from by decide]
  simp [Token.scanLiteral, hnumber, hword]

/-- What is printed is cut as text, all of it, in front of a boundary. -/
theorem scan_unquoted {cs : List Char} (hcs : cs ≠ []) (hrest : Token.Boundary rest) :
    ∃ d ds, unquoted cs = d :: ds ∧ Token.startsLiteral d = true ∧
      Token.scan d (ds ++ rest) = some (.text, ds.length) := by
  rw [unquoted]
  split
  next hother =>
    obtain ⟨d, ds, hcons, hd⟩ := isPlain_of_readsAsOtherLiteral hcs hother
    refine ⟨'\\', d :: ds, by rw [hcons], by decide, ?_⟩
    -- the backslash takes the first character with it, and the rest reaches as far as before
    have hreach := textReach_escape hcs hrest.textFollows_eq
    rw [hcons, List.cons_append, Token.textReach_plain hd, Token.textReach_eq,
      List.length_cons] at hreach
    have hbehind : Token.textReach 0 2 (ds ++ rest) = ds.length + 2 := by
      rw [Token.textReach_eq]
      split at hreach
      next h0 => rw [if_pos h0]; omega
      next h0 => rw [if_neg h0]; omega
    rw [Token.scan_of_startsLiteral (by decide), List.cons_append, scanLiteral_backslash,
      Token.textReach_escape, hbehind]
    rfl
  next hother =>
    have hkind : escapedKind cs = .text := by
      rw [readsAsOtherLiteral_escape hcs] at hother
      simpa using hother
    rw [← hkind]
    exact scan_escape hcs hrest

end Value

end FlagScript
