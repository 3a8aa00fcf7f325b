import FlagScript.Proofs.Source.Literal
import FlagScript.Proofs.Token.Lexeme
import Mathlib.Data.List.Basic

/-!
# Maximal munch

A tokenizer by maximal munch takes, behind layout, the longest lexeme of any class that stands in
front, and of two classes that fit it the first one; where no lexeme begins it stops. The lexer is
that tokenizer but for one thing: a number with a minus sign in its exponent is not taken if text
goes on behind it (`splitsNumber`), although the text that is taken in its place ends at the minus
sign (`lex_iff_munches`).
-/

namespace FlagScript

namespace Token

/-! ## The tokenizer -/

/-- The lexeme in front that is longest, and its class, which is the first one that fits it. -/
structure IsMunch (cs : List Char) (kind : TokenClass) (l : List Char) : Prop where
  isPrefix : l <+: cs
  lexeme : Lexeme kind l
  longest : ∀ k l', l' <+: cs → Lexeme k l' → l'.length ≤ l.length
  earliest : ∀ k, Lexeme k l → kind.rank ≤ k.rank

/-- What maximal munch makes of the characters from a place on: the tokens, or the first place where
no lexeme begins. -/
inductive Munches : Position → List Char → Except Position (List Token) → Prop where
  | nil (p : Position) : Munches p [] (.ok [])
  | layout {p : Position} {c : Char} {cs : List Char} {r : Except Position (List Token)}
      (hc : Text.isLayout c = true) (rest : Munches (p.after c) cs r) : Munches p (c :: cs) r
  | token {p : Position} {c : Char} {cs l rest : List Char} {kind : TokenClass}
      {r : Except Position (List Token)} (hc : Text.isLayout c = false) (hcs : c :: cs = l ++ rest)
      (hl : IsMunch (c :: cs) kind l) (more : Munches (p.advance l) rest r) :
      Munches p (c :: cs) (r.map (⟨kind, l, p⟩ :: ·))
  | stuck {p : Position} {c : Char} {cs : List Char} (hc : Text.isLayout c = false)
      (h : ∀ k l, l <+: c :: cs → ¬ Lexeme k l) : Munches p (c :: cs) (.error p)

/-- A number with a minus sign in front of text that goes on behind it. -/
def splitsNumber (cs : List Char) : Bool :=
  (cs.take (numberLength cs)).contains '-' && textFollows (cs.drop (numberLength cs))

/-- What stands from each place on where the lexer looks for a token. -/
def tokenPlaces : List Char → List (List Char)
  | [] => []
  | c :: cs =>
    if Text.isLayout c then tokenPlaces cs
    else
      (c :: cs) ::
        match scan c cs with
        | none => []
        | some (_, n) => tokenPlaces (cs.drop n)
  termination_by cs => cs.length

/-! ## Literals -/

theorem Lexeme.ne_nil {k : TokenClass} {l : List Char} (h : Lexeme k l) : l ≠ [] := by
  cases h with
  | mark h =>
    rintro rfl
    cases k <;> cases h
  | identifier _ _ => exact List.cons_ne_nil _ _
  | boolean h => exact ne_nil_of_mem_truthWords h
  | number hm _ => simpa using fun h0 => absurd (congrArg List.length h0) hm.length_pos
  | quotedText _ => exact List.cons_ne_nil _ _
  | text h => exact h.ne_nil

/-- All of a number is text as well, but for the minus sign of its exponent. -/
theorem isPlain_of_number {m x : List Char} (hm : Mantissa m) (hx : Exponent x) :
    ∀ c ∈ m ++ x, c ≠ '-' → isPlain c = true := by
  have hdigits : ∀ {ds : List Char}, (∀ c ∈ ds, c.isDigit = true) →
      ∀ c ∈ ds, c ≠ '-' → isPlain c = true := fun h c hc _ => isPlain_of_isDigit (h c hc)
  have hmark : ∀ {e : Char}, e = 'e' ∨ e = 'E' → isPlain e = true := by
    rintro e (rfl | rfl) <;> decide
  have hmantissa : ∀ c ∈ m, c ≠ '-' → isPlain c = true := by
    cases hm with
    | whole hds => exact hdigits hds.digits
    | pointed hds hfs =>
      exact List.forall_mem_append.2 ⟨hdigits hds.digits,
        List.forall_mem_cons.2 ⟨fun _ => by decide, hdigits hfs⟩⟩
    | fraction hfs => exact List.forall_mem_cons.2 ⟨fun _ => by decide, hdigits hfs.digits⟩
  refine List.forall_mem_append.2 ⟨hmantissa, ?_⟩
  cases hx with
  | none => simp
  | plain he hds => exact List.forall_mem_cons.2 ⟨fun _ => hmark he, hdigits hds.digits⟩
  | minus he hds =>
    exact List.forall_mem_cons.2 ⟨fun _ => hmark he,
      List.forall_mem_cons.2 ⟨fun h => absurd rfl h, hdigits hds.digits⟩⟩

/-- Text does not reach over a minus sign. -/
theorem textReach_minus {l : List Char} (hplain : ∀ c ∈ l, c ≠ '-' → isPlain c = true)
    (hminus : '-' ∈ l) (rest : List Char) : textReach 0 0 (l ++ rest) < l.length := by
  obtain ⟨front, behind, rfl, hfront⟩ := List.eq_append_cons_of_mem hminus
  have hstop : ∀ b n, textReach b n ('-' :: (behind ++ rest)) = n := fun b n =>
    textReach_stop (by decide) (by decide) (by decide) b n _
  rw [List.append_assoc, List.cons_append]
  by_cases hnone : front = []
  · subst hnone
    rw [List.nil_append, hstop]
    simp
  · have hrun : TextRun front := textRun_of_plain hnone fun c hc =>
      hplain c (by simp [hc]) (by rintro rfl; exact hfront hc)
    rw [textReach_append hrun, hstop, if_pos rfl]
    simp

/-- How far text reaches where a number stands that it does not split. -/
theorem textReach_of_number {cs : List Char} (h : numberLength cs ≠ 0) :
    (textFollows (cs.drop (numberLength cs)) = false → textReach 0 0 cs ≤ numberLength cs) ∧
      (textFollows (cs.drop (numberLength cs)) = true → splitsNumber cs = false →
        numberLength cs < textReach 0 0 cs) ∧
      (splitsNumber cs = true → textReach 0 0 cs < numberLength cs) := by
  have hlexeme := lexeme_take_numberLength h
  have hlen : (cs.take (numberLength cs)).length = numberLength cs := by
    rw [List.length_take]
    exact Nat.min_eq_left (numberLength_le cs)
  have hsplit := List.take_append_drop (numberLength cs) cs
  generalize hl : cs.take (numberLength cs) = l at *
  have hplain : ∀ c ∈ l, c ≠ '-' → isPlain c = true := by
    cases hlexeme with
    | mark h => cases h
    | number hm hx => exact isPlain_of_number hm hx
  unfold splitsNumber textFollows
  rw [hl]
  -- a sign inside the number ends plain text, every other number is a run of it
  by_cases hminus : '-' ∈ l
  · have hreach := textReach_minus hplain hminus (cs.drop (numberLength cs))
    rw [hsplit, hlen] at hreach
    refine ⟨fun _ => by omega, fun hfollows hno => ?_, fun _ => hreach⟩
    simp [hminus, hfollows] at hno
  · have hrun : TextRun l := textRun_of_plain hlexeme.ne_nil fun c hc =>
      hplain c hc (by rintro rfl; exact hminus hc)
    have hreach := textReach_append hrun (cs.drop (numberLength cs))
    rw [hsplit, hlen] at hreach
    refine ⟨fun hstop => ?_, fun hfollows _ => ?_, fun hyes => ?_⟩
    · rw [hreach, if_pos (by simpa using hstop)]
    · have hpos : textReach 0 0 (cs.drop (numberLength cs)) ≠ 0 := by simpa using hfollows
      rw [hreach, if_neg hpos]
      omega
    · simp [hminus] at hyes

theorem textReach_of_truthWord {cs : List Char} (h : truthWordLength cs ≠ 0) :
    (textFollows (cs.drop (truthWordLength cs)) = false →
        textReach 0 0 cs = truthWordLength cs) ∧
      (textFollows (cs.drop (truthWordLength cs)) = true →
        truthWordLength cs < textReach 0 0 cs) := by
  have hlexeme := lexeme_take_truthWordLength h
  have hlen : (cs.take (truthWordLength cs)).length = truthWordLength cs := by
    rw [List.length_take]
    exact Nat.min_eq_left (truthWordLength_le cs)
  have hsplit := List.take_append_drop (truthWordLength cs) cs
  generalize hl : cs.take (truthWordLength cs) = l at *
  have hrun : TextRun l := by
    cases hlexeme with
    | mark h => cases h
    | boolean hword =>
      exact textRun_of_plain (ne_nil_of_mem_truthWords hword) fun c hc =>
        (of_mem_truthWord hword hc).1
  have hreach := textReach_append hrun (cs.drop (truthWordLength cs))
  rw [hsplit, hlen] at hreach
  unfold textFollows
  refine ⟨fun hstop => ?_, fun hfollows => ?_⟩
  · rw [hreach, if_pos (by simpa using hstop)]
  · have hpos : textReach 0 0 (cs.drop (truthWordLength cs)) ≠ 0 := by simpa using hfollows
    rw [hreach, if_neg hpos]
    omega

theorem Mantissa.exists_cons {m : List Char} (hm : Mantissa m) :
    ∃ c cs, m = c :: cs ∧ (c.isDigit = true ∨ c = '.') := by
  have hdigits : ∀ {ds : List Char}, IsDigits ds → ∃ c cs, ds = c :: cs ∧ c.isDigit = true := by
    intro ds hds
    obtain ⟨c, cs, rfl⟩ := List.exists_cons_of_ne_nil hds.ne_nil
    exact ⟨c, cs, rfl, hds.digits c (by simp)⟩
  cases hm with
  | whole hds =>
    obtain ⟨c, cs, rfl, hc⟩ := hdigits hds
    exact ⟨c, cs, rfl, .inl hc⟩
  | @pointed ds fs hds _ =>
    obtain ⟨c, cs, rfl, hc⟩ := hdigits hds
    exact ⟨c, cs ++ '.' :: fs, rfl, .inl hc⟩
  | @fraction fs _ => exact ⟨'.', fs, rfl, .inr rfl⟩

theorem TextRun.exists_cons {run : List Char} (h : TextRun run) :
    ∃ c cs, run = c :: cs ∧ startsLiteral c = true := by
  have hunit : ∀ {u : List Char}, TextUnit u → ∃ c cs, u = c :: cs ∧ startsLiteral c = true := by
    intro u hu
    cases hu with
    | plain hc => exact ⟨_, _, rfl, by rw [startsLiteral, hc, Bool.true_or]⟩
    | escape c => exact ⟨_, _, rfl, by decide⟩
  cases h with
  | unit hu => exact hunit hu
  | more hu _ _ =>
    obtain ⟨c, cs, rfl, hc⟩ := hunit hu
    exact ⟨c, _, rfl, hc⟩

/-- What begins with a number does not begin with a truth word. -/
theorem truthWordLength_eq_zero {cs : List Char} (h : numberLength cs ≠ 0) :
    truthWordLength cs = 0 := by
  by_contra hword
  have hhead : ∀ c ∈ cs.head?, c.isDigit = false ∧ c ≠ '.' := by
    intro c hc
    obtain ⟨cs, rfl⟩ := List.head?_eq_some_iff.1 hc
    cases lexeme_take_truthWordLength hword with
    | mark hmark => cases hmark
    | boolean hmem =>
      refine (of_mem_truthWord hmem ?_).2
      obtain ⟨n, hn⟩ := Nat.exists_eq_succ_of_ne_zero hword
      rw [hn, List.take_succ_cons]
      exact List.mem_cons_self
  -- but a number begins with a digit or a point
  have hlexeme := lexeme_take_numberLength h
  generalize hl : cs.take (numberLength cs) = l at hlexeme
  cases hlexeme with
  | mark hmark => cases hmark
  | number hm _ =>
    obtain ⟨c, ds, rfl, hc⟩ := hm.exists_cons
    have hcs : cs.head? = some c := by
      rw [← List.take_append_drop (numberLength cs) cs, hl]
      rfl
    obtain ⟨hdigit, hpoint⟩ := hhead c hcs
    rcases hc with hc | hc
    · rw [hc] at hdigit
      cases hdigit
    · exact hpoint hc

/-! ## How the lexemes of a class begin -/

theorem symbol?_head {k : TokenClass} {c : Char} {cs : List Char}
    (h : k.symbol? = some (c :: cs)) : startsLiteral c = false ∧ c ≠ '$' ∧ c ≠ '@' := by
  cases k <;> cases h <;> decide

/-- The first character of a lexeme tells whether it is a mark, a name, quoted text or another
literal. -/
theorem Lexeme.of_cons {k : TokenClass} {c : Char} {cs : List Char} (h : Lexeme k (c :: cs)) :
    k.symbol? = some (c :: cs) ∨ (k = .identifier ∧ c = '$') ∨ (k = .quotedText ∧ c = '@') ∨
      ((k = .boolean ∨ k = .number ∨ k = .text) ∧ startsLiteral c = true) := by
  generalize hl : c :: cs = l at h
  cases h with
  | mark h => exact .inl h
  | identifier _ _ => exact .inr (.inl ⟨rfl, (List.cons.inj hl).1⟩)
  | quotedText _ => exact .inr (.inr (.inl ⟨rfl, (List.cons.inj hl).1⟩))
  | boolean hmem =>
    subst hl
    have hplain := (of_mem_truthWord hmem (c := c) (by simp)).1
    exact .inr (.inr (.inr ⟨.inl rfl, by rw [startsLiteral, hplain, Bool.true_or]⟩))
  | number hm _ =>
    obtain ⟨d, ds, rfl, hd⟩ := hm.exists_cons
    have hc : c = d := (List.cons.inj hl).1
    subst hc
    have hplain : isPlain c = true := by
      rcases hd with hd | rfl
      · exact isPlain_of_isDigit hd
      · decide
    exact .inr (.inr (.inr ⟨.inr (.inl rfl), by rw [startsLiteral, hplain, Bool.true_or]⟩))
  | text hrun =>
    obtain ⟨d, ds, rfl, hd⟩ := hrun.exists_cons
    cases hl
    exact .inr (.inr (.inr ⟨.inr (.inr rfl), hd⟩))

/-! ## The lexer's token -/

theorem mem_table (k : TokenClass) : k ∈ TokenClass.table := by
  cases k <;> decide

theorem rank_injective {k k' : TokenClass} (h : k.rank = k'.rank) : k = k' :=
  (List.idxOf_inj (mem_table k)).1 h

theorem symbol?_injective {k k' : TokenClass} {cs : List Char} (h : k.symbol? = some cs)
    (h' : k'.symbol? = some cs) : k = k' := by
  have hall : ∀ k ∈ TokenClass.table, ∀ k' ∈ TokenClass.table,
      k.symbol?.isSome = true → k.symbol? = k'.symbol? → k = k' := by decide
  exact hall k (mem_table k) k' (mem_table k') (by rw [h]; rfl) (h.trans h'.symm)

/-- A lexeme is what maximal munch takes if it is as long as every other one in front, and no class
in front of its own fits it. -/
theorem isMunch_of_forall {c : Char} {cs : List Char} {kind : TokenClass} {n : Nat}
    (hlexeme : Lexeme kind (c :: cs.take n)) (hn : n ≤ cs.length)
    (hothers : ∀ k l, c :: l <+: c :: cs → Lexeme k (c :: l) →
      l.length ≤ n ∧ (l.length = n → kind.rank ≤ k.rank)) :
    IsMunch (c :: cs) kind (c :: cs.take n) where
  isPrefix := (List.prefix_cons_inj c).2 (List.take_prefix n cs)
  lexeme := hlexeme
  longest k l' hl' h := by
    obtain ⟨d, l, rfl⟩ := List.exists_cons_of_ne_nil h.ne_nil
    obtain ⟨rfl, _⟩ := List.cons_prefix_cons.1 hl'
    have hlen := (hothers k l hl' h).1
    rw [List.length_cons, List.length_cons, List.length_take]
    omega
  earliest k h := by
    refine (hothers k _ ((List.prefix_cons_inj c).2 (List.take_prefix n cs)) h).2 ?_
    rw [List.length_take]
    omega

/-- The lexer takes the token in front as maximal munch does. -/
structure ScansMunch (c : Char) (cs : List Char) : Prop where
  some : ∀ kind n, scan c cs = some (kind, n) → IsMunch (c :: cs) kind (c :: cs.take n)
  none : scan c cs = none → ∀ k l, c :: l <+: c :: cs → ¬ Lexeme k (c :: l)

theorem scan_dollar (cs : List Char) :
    scan '$' cs =
      match (cs.takeWhile isNameChar).length with
      | 0 => none
      | n => some (.identifier, n) := by
  rfl

theorem scan_at (cs : List Char) : scan '@' cs = (quotedReach 0 cs).map (.quotedText, ·) := by
  rfl

theorem scan_of_pair {k : TokenClass} {c d : Char} (h : k.symbol? = some [c, d])
    (cs : List Char) : scan c (d :: cs) = some (k, 1) := by
  cases k <;> cases h <;> rfl

theorem scan_of_single {k : TokenClass} {c : Char} (h : k.symbol? = some [c])
    (cs : List Char) : (scan c cs).isSome = true := by
  unfold scan
  cases k <;> cases h <;> split <;> first | rfl | simp_all

/-- A mark is one character or two. -/
theorem symbol?_length {k : TokenClass} {c : Char} {l : List Char}
    (hk : k.symbol? = some (c :: l)) : l = [] ∨ ∃ d, l = [d] := by
  cases k <;> cases hk
  all_goals first | exact .inl rfl | exact .inr ⟨_, rfl⟩

/-- An operator or punctuation in front is found unless a longer one stands there. -/
theorem scan_of_symbol {k : TokenClass} {c : Char} {cs l : List Char}
    (hk : k.symbol? = some (c :: l)) (hl : c :: l <+: c :: cs) :
    ∃ k' n, scan c cs = some (k', n) ∧ l.length ≤ n := by
  rcases symbol?_length hk with rfl | ⟨d, rfl⟩
  · obtain ⟨⟨k', n⟩, h⟩ := Option.isSome_iff_exists.1 (scan_of_single hk cs)
    exact ⟨k', n, h, Nat.zero_le n⟩
  · obtain ⟨cs, rfl⟩ := (List.prefix_cons_inj c).1 hl
    exact ⟨k, 1, scan_of_pair hk cs, Nat.le_refl 1⟩

/-- A literal that the lexer finds is a lexeme of its class. -/
theorem lexeme_of_scanLiteral {c : Char} {cs : List Char} {kind : TokenClass} {m : Nat}
    (hc : Text.isLayout c = false) (h : scanLiteral (c :: cs) = (kind, m)) (hm : m ≠ 0) :
    Lexeme kind ((c :: cs).take m) ∧ m ≤ (c :: cs).length ∧
      (kind = .boolean ∨ kind = .number ∨ kind = .text) := by
  unfold scanLiteral at h
  simp only at h
  split at h
  next hnumber =>
    cases h
    exact ⟨lexeme_take_numberLength hm, numberLength_le _, .inr (.inl rfl)⟩
  next =>
    split at h
    next =>
      cases h
      exact ⟨lexeme_take_truthWordLength hm, truthWordLength_le _, .inl rfl⟩
    next =>
      cases h
      obtain ⟨hrun, hlen⟩ := textRun_take_textReach hc hm
      exact ⟨.text hrun, hlen, .inr (.inr rfl)⟩

/-- Literals other than quoted text are found only where they begin. -/
theorem scanLiteral_eq_zero {c : Char} (hc : Text.isLayout c = false)
    (hstart : startsLiteral c = false) (cs : List Char) : (scanLiteral (c :: cs)).2 = 0 := by
  rcases hlit : scanLiteral (c :: cs) with ⟨k, m⟩
  by_contra hm
  obtain ⟨hlexeme, -, hk⟩ := lexeme_of_scanLiteral hc hlit hm
  obtain ⟨m, rfl⟩ := Nat.exists_eq_succ_of_ne_zero hm
  rw [List.take_succ_cons] at hlexeme
  rcases hlexeme.of_cons with hmark | ⟨rfl, -⟩ | ⟨rfl, -⟩ | ⟨-, hyes⟩
  · rcases hk with rfl | rfl | rfl <;> cases hmark
  · simp at hk
  · simp at hk
  · rw [hyes] at hstart
    cases hstart

/-- What the lexer finds of an operator or punctuation is written so. -/
theorem symbol?_of_scan {c : Char} {cs : List Char} {kind : TokenClass} {n : Nat}
    (hc : Text.isLayout c = false) (hstart : startsLiteral c = false) (hname : c ≠ '$')
    (hquote : c ≠ '@') (h : scan c cs = some (kind, n)) :
    kind.symbol? = some (c :: cs.take n) ∧ n ≤ cs.length := by
  have hnone := scanLiteral_eq_zero hc hstart cs
  unfold scan at h
  split at h
  all_goals first | (cases h; exact ⟨rfl, by simp⟩) | skip
  · exact absurd rfl hname
  · exact absurd rfl hquote
  · split at h
    next => cases h
    next k m hlit =>
      rw [hlit] at hnone
      cases hnone

theorem munch_mark {c : Char} {cs : List Char} (hc : Text.isLayout c = false)
    (hstart : startsLiteral c = false) (hname : c ≠ '$') (hquote : c ≠ '@') :
    ScansMunch c cs := by
  -- every lexeme that begins with this character is a mark
  have honly : ∀ {k l}, Lexeme k (c :: l) → k.symbol? = some (c :: l) := by
    intro k l h
    rcases h.of_cons with hmark | ⟨-, hc⟩ | ⟨-, hc⟩ | ⟨-, hyes⟩
    · exact hmark
    · exact absurd hc hname
    · exact absurd hc hquote
    · rw [hyes] at hstart
      cases hstart
  constructor
  · intro kind n h
    obtain ⟨hkind, hn⟩ := symbol?_of_scan hc hstart hname hquote h
    refine isMunch_of_forall (.mark hkind) hn fun k l hl hlexeme => ?_
    obtain ⟨k', n', h', hlen⟩ := scan_of_symbol (honly hlexeme) hl
    rw [h] at h'
    cases h'
    refine ⟨hlen, fun heq => ?_⟩
    have hsame : l = cs.take n := by
      rw [← heq]
      exact List.prefix_iff_eq_take.1 ((List.prefix_cons_inj c).1 hl)
    rw [hsame] at hlexeme
    rw [symbol?_injective hkind (honly hlexeme)]
  · intro h k l hl hlexeme
    obtain ⟨k', n', h', -⟩ := scan_of_symbol (honly hlexeme) hl
    rw [h] at h'
    cases h'

theorem munch_name (cs : List Char) : ScansMunch '$' cs := by
  -- every lexeme that begins with the sign of names is one, and no longer than the one scanned
  have honly : ∀ {k l}, '$' :: l <+: '$' :: cs → Lexeme k ('$' :: l) →
      k = .identifier ∧ l ≠ [] ∧ l.length ≤ (cs.takeWhile isNameChar).length := by
    intro k l hl h
    rcases h.of_cons with hmark | ⟨rfl, -⟩ | ⟨-, hc⟩ | ⟨-, hyes⟩
    · exact absurd rfl (symbol?_head hmark).2.1
    · cases h with
      | mark h => cases h
      | identifier hne hname =>
        obtain ⟨rest, rfl⟩ := (List.prefix_cons_inj '$').1 hl
        rw [List.takeWhile_append_of_pos hname, List.length_append]
        exact ⟨rfl, hne, Nat.le_add_right _ _⟩
    · cases hc
    · exact absurd hyes (by decide)
  have hfront := List.takeWhile_prefix isNameChar (l := cs)
  have hscan := scan_dollar cs
  constructor
  · intro kind n h
    rw [hscan] at h
    split at h
    next => cases h
    next hn =>
      cases h
      have htake := List.prefix_iff_eq_take.1 hfront
      refine isMunch_of_forall ?_ hfront.length_le fun k l hl hlexeme => ?_
      · rw [← htake]
        exact .identifier (fun hnil => hn (by rw [hnil]; rfl))
          fun c hc => List.all_eq_true.1 List.all_takeWhile c hc
      · obtain ⟨rfl, -, hlen⟩ := honly hl hlexeme
        exact ⟨hlen, fun _ => Nat.le_refl _⟩
  · intro h k l hl hlexeme
    rw [hscan] at h
    split at h
    next hnone =>
      obtain ⟨-, hne, hlen⟩ := honly hl hlexeme
      rw [hnone, Nat.le_zero, List.length_eq_zero_iff] at hlen
      exact hne hlen
    next => cases h

theorem munch_quotedText (cs : List Char) : ScansMunch '@' cs := by
  -- every lexeme that begins with a quotation mark is one, up to the next one not escaped
  have honly : ∀ {k l}, '@' :: l <+: '@' :: cs → Lexeme k ('@' :: l) →
      k = .quotedText ∧ quotedReach 0 cs = some l.length := by
    intro k l hl h
    rcases h.of_cons with hmark | ⟨-, hc⟩ | ⟨rfl, -⟩ | ⟨-, hyes⟩
    · exact absurd rfl (symbol?_head hmark).2.2
    · cases hc
    · cases h with
      | mark h => cases h
      | @quotedText body hbody =>
        obtain ⟨rest, rfl⟩ := (List.prefix_cons_inj '@').1 hl
        rw [List.append_assoc, List.singleton_append, quotedReach_body hbody, Nat.zero_add,
          List.length_append, List.length_singleton]
        exact ⟨rfl, rfl⟩
    · exact absurd hyes (by decide)
  have hscan := scan_at cs
  constructor
  · intro kind n h
    rw [hscan] at h
    obtain ⟨m, hreach, heq⟩ := Option.map_eq_some_iff.1 h
    cases heq
    obtain ⟨body, rest, rfl, hbody, hm⟩ := body_of_quotedReach hreach
    have hlexeme : Lexeme .quotedText ('@' :: (body ++ '@' :: rest).take n) := by
      rw [hm, Nat.zero_add, List.take_length_add_append, List.take_succ_cons, List.take_zero]
      exact .quotedText hbody
    refine isMunch_of_forall hlexeme ?_ fun k l hl hlexeme => ?_
    · rw [hm, List.length_append, List.length_cons]
      omega
    · obtain ⟨rfl, hlen⟩ := honly hl hlexeme
      rw [hreach] at hlen
      cases hlen
      exact ⟨Nat.le_refl _, fun _ => Nat.le_refl _⟩
  · intro h k l hl hlexeme
    rw [hscan, Option.map_eq_none_iff] at h
    rw [(honly hl hlexeme).2] at h
    cases h

/-- The literal that the lexer finds reaches as far as any of the three classes does. -/
theorem scanLiteral_longest {cs : List Char} (h : splitsNumber cs = false) :
    (scanLiteral cs = (.number, numberLength cs) ∧ numberLength cs ≠ 0 ∧
        truthWordLength cs = 0 ∧ textReach 0 0 cs ≤ numberLength cs) ∨
      (scanLiteral cs = (.boolean, truthWordLength cs) ∧ truthWordLength cs ≠ 0 ∧
        numberLength cs = 0 ∧ textReach 0 0 cs = truthWordLength cs) ∨
      (scanLiteral cs = (.text, textReach 0 0 cs) ∧
        (numberLength cs = 0 ∨ numberLength cs < textReach 0 0 cs) ∧
        (truthWordLength cs = 0 ∨ truthWordLength cs < textReach 0 0 cs)) := by
  unfold scanLiteral
  simp only [Bool.and_eq_true, bne_iff_ne, Bool.not_eq_true']
  -- a number comes before a truth value, and both give way to a longer text
  by_cases hn : numberLength cs = 0
  · rw [if_neg (fun h => h.1 hn)]
    by_cases hw : truthWordLength cs = 0
    · rw [if_neg (fun h => h.1 hw)]
      exact .inr (.inr ⟨rfl, .inl hn, .inl hw⟩)
    · obtain ⟨hstop, hgoes⟩ := textReach_of_truthWord hw
      cases hfollows : textFollows (cs.drop (truthWordLength cs)) with
      | false => exact .inr (.inl ⟨by simp [hw], hw, hn, hstop hfollows⟩)
      | true => exact .inr (.inr ⟨by simp, .inl hn, .inr (hgoes hfollows)⟩)
  · obtain ⟨hstop, hgoes, -⟩ := textReach_of_number hn
    have hw := truthWordLength_eq_zero hn
    cases hfollows : textFollows (cs.drop (numberLength cs)) with
    | false => exact .inl ⟨by simp [hn], hn, hw, hstop hfollows⟩
    | true => exact .inr (.inr ⟨by simp [hw], .inr (hgoes hfollows h), .inl hw⟩)

/-- How far the literals of each class reach. -/
theorem length_of_literal {k : TokenClass} {l cs : List Char}
    (hk : k = .boolean ∨ k = .number ∨ k = .text) (h : Lexeme k l) (hl : l <+: cs) :
    (k = .boolean ∧ l.length = truthWordLength cs) ∨ (k = .number ∧ l.length ≤ numberLength cs) ∨
      (k = .text ∧ l.length ≤ textReach 0 0 cs) := by
  obtain ⟨rest, rfl⟩ := hl
  cases h with
  | mark h => rcases hk with rfl | rfl | rfl <;> cases h
  | identifier _ _ => simp at hk
  | quotedText _ => simp at hk
  | boolean h => exact .inl ⟨rfl, (length_eq_truthWordLength h rest).symm⟩
  | number hm hx => exact .inr (.inl ⟨rfl, length_le_numberLength hm hx rest⟩)
  | text h => exact .inr (.inr ⟨rfl, length_le_textReach h (List.prefix_append l rest)⟩)

theorem munch_literal {c : Char} {cs : List Char} (hstart : startsLiteral c = true)
    (hno : splitsNumber (c :: cs) = false) : ScansMunch c cs := by
  have hlayout := isLayout_of_startsLiteral hstart
  have honly : ∀ {k l}, Lexeme k (c :: l) → k = .boolean ∨ k = .number ∨ k = .text := by
    intro k l h
    rcases h.of_cons with hmark | ⟨-, rfl⟩ | ⟨-, rfl⟩ | ⟨hk, -⟩
    · rw [(symbol?_head hmark).1] at hstart
      cases hstart
    · exact absurd hstart (by decide)
    · exact absurd hstart (by decide)
    · exact hk
  have hscan := scan_of_startsLiteral hstart cs
  have hlongest := scanLiteral_longest hno
  constructor
  · intro kind n h
    rw [hscan] at h
    split at h
    next => cases h
    next k m hlit =>
      cases h
      obtain ⟨hlexeme, hlen, -⟩ := lexeme_of_scanLiteral hlayout hlit (Nat.succ_ne_zero n)
      rw [List.length_cons] at hlen
      rw [List.take_succ_cons] at hlexeme
      refine isMunch_of_forall hlexeme (by omega) fun k l hl hk => ?_
      have hreach := length_of_literal (honly hk) hk hl
      rw [List.length_cons] at hreach
      rw [hlit] at hlongest
      -- a class in front of the one found would have to be longer or absent
      rcases hlongest with ⟨heq, _, _, _⟩ | ⟨heq, _, _, _⟩ | ⟨heq, _, _⟩
      all_goals
        obtain ⟨rfl, hm⟩ := Prod.mk.inj heq
        rcases hreach with ⟨rfl, _⟩ | ⟨rfl, _⟩ | ⟨rfl, _⟩
        all_goals exact ⟨by omega, fun _ => by first | omega | decide⟩
  · intro h k l hl hk
    rw [hscan] at h
    split at h
    next kind hlit =>
      have hreach := length_of_literal (honly hk) hk hl
      rw [List.length_cons] at hreach
      rw [hlit] at hlongest
      simp only [Prod.mk.injEq] at hlongest
      omega
    next => cases h

theorem munch_scan {c : Char} {cs : List Char} (hc : Text.isLayout c = false)
    (hno : splitsNumber (c :: cs) = false) : ScansMunch c cs := by
  by_cases hstart : startsLiteral c = true
  · exact munch_literal hstart hno
  by_cases hname : c = '$'
  · subst hname
    exact munch_name cs
  by_cases hquote : c = '@'
  · subst hquote
    exact munch_quotedText cs
  · exact munch_mark hc (by simpa using hstart) hname hquote

/-- Of a number that is split the lexer takes less than the number. -/
theorem not_isMunch_of_splits {c : Char} {cs l : List Char} {kind k : TokenClass} {n : Nat}
    (hsplits : splitsNumber (c :: cs) = true) (h : scan c cs = some (kind, n))
    (hl : l.length ≤ n + 1) : ¬ IsMunch (c :: cs) k l := by
  intro hmunch
  have hpos : numberLength (c :: cs) ≠ 0 := by
    intro h0
    rw [splitsNumber, h0] at hsplits
    simp at hsplits
  have hnumber := lexeme_take_numberLength hpos
  have hlongest := hmunch.longest _ _ (List.take_prefix _ _) hnumber
  rw [List.length_take, Nat.min_eq_left (numberLength_le _)] at hlongest
  have hreach := (textReach_of_number hpos).2.2 hsplits
  -- the number goes on as text, so the lexer takes the text in front of its minus sign
  have hlit : scanLiteral (c :: cs) = (.text, textReach 0 0 (c :: cs)) := by
    have hfollows : textFollows ((c :: cs).drop (numberLength (c :: cs))) = true := by
      rw [splitsNumber, Bool.and_eq_true] at hsplits
      exact hsplits.2
    unfold scanLiteral
    simp [hfollows, truthWordLength_eq_zero hpos]
  have hstart : startsLiteral c = true := by
    obtain ⟨m, hm⟩ := Nat.exists_eq_succ_of_ne_zero hpos
    rw [hm, List.take_succ_cons] at hnumber
    rcases hnumber.of_cons with hmark | ⟨hk, -⟩ | ⟨hk, -⟩ | ⟨-, hyes⟩
    · cases hmark
    · cases hk
    · cases hk
    · exact hyes
  rw [scan_of_startsLiteral hstart, hlit] at h
  split at h
  next => cases h
  next heq =>
    cases h
    have hlen := (Prod.mk.inj heq).2
    omega

/-! ## The lexer -/

theorem isMunch_unique {cs l l' : List Char} {k k' : TokenClass} (h : IsMunch cs k l)
    (h' : IsMunch cs k' l') : k = k' ∧ l = l' := by
  have hlen : l.length = l'.length :=
    Nat.le_antisymm (h'.longest k l h.isPrefix h.lexeme) (h.longest k' l' h'.isPrefix h'.lexeme)
  have hsame : l = l' := by
    rw [List.prefix_iff_eq_take.1 h.isPrefix, List.prefix_iff_eq_take.1 h'.isPrefix, hlen]
  subst hsame
  exact ⟨rank_injective (Nat.le_antisymm (h.earliest k' h'.lexeme) (h'.earliest k h.lexeme)), rfl⟩

theorem Munches.unique {p : Position} {cs : List Char} {r r' : Except Position (List Token)}
    (h : Munches p cs r) (h' : Munches p cs r') : r = r' := by
  induction h generalizing r' with
  | nil p =>
    cases h'
    rfl
  | layout hc _ ih =>
    cases h' with
    | layout _ rest => exact ih rest
    | token hc' _ _ _ => rw [hc] at hc'; cases hc'
    | stuck hc' _ => rw [hc] at hc'; cases hc'
  | @token p c cs l rest kind r hc hcs hl _ ih =>
    cases h' with
    | layout hc' _ => rw [hc] at hc'; cases hc'
    | token _ hcs' hl' more =>
      -- there is only one longest lexeme, so both go on behind the same one
      obtain ⟨rfl, rfl⟩ := isMunch_unique hl hl'
      obtain rfl := List.append_cancel_left (hcs.symm.trans hcs')
      rw [ih more]
    | stuck _ hnone => exact absurd hl.lexeme (hnone _ _ hl.isPrefix)
  | stuck hc hnone =>
    cases h' with
    | layout hc' _ => rw [hc] at hc'; cases hc'
    | token _ _ hl _ => exact absurd hl.lexeme (hnone _ _ hl.isPrefix)
    | stuck _ _ => rfl

/-- Where no number is split, the lexer adds what maximal munch finds to the tokens done. -/
theorem munches_of_lexFrom (done : List Token) (p : Position) (cs : List Char)
    (h : ∀ s ∈ tokenPlaces cs, splitsNumber s = false) :
    ∃ r, lexFrom done p cs = r.map (done.reverse ++ ·) ∧ Munches p cs r := by
  -- one case for the end, layout, a place where nothing begins, and a token
  fun_induction lexFrom done p cs with
  | case1 done p => exact ⟨.ok [], by simp [Except.map], .nil p⟩
  | case2 done p c cs hc ih =>
    rw [tokenPlaces, if_pos hc] at h
    obtain ⟨r, hr, hmunches⟩ := ih h
    exact ⟨r, hr, .layout hc hmunches⟩
  | case3 done p c cs hc hscan =>
    rw [tokenPlaces, if_neg hc] at h
    have hlayout : Text.isLayout c = false := by simpa using hc
    have hmunch := munch_scan hlayout (List.forall_mem_cons.1 h).1
    refine ⟨.error p, rfl, .stuck hlayout fun k l hl hlexeme => ?_⟩
    obtain ⟨d, l, rfl⟩ := List.exists_cons_of_ne_nil hlexeme.ne_nil
    obtain ⟨rfl, -⟩ := List.cons_prefix_cons.1 hl
    exact hmunch.none hscan k l hl hlexeme
  | case4 done p c cs hc kind n hscan ih =>
    rw [tokenPlaces, if_neg hc, List.forall_mem_cons, hscan] at h
    have hlayout : Text.isLayout c = false := by simpa using hc
    have hmunch := munch_scan hlayout h.1
    obtain ⟨r, hr, hmunches⟩ := ih h.2
    refine ⟨r.map (⟨kind, c :: cs.take n, p⟩ :: ·), ?_, ?_⟩
    · rw [hr]
      cases r <;> simp [Except.map]
    · exact .token hlayout (by simp) (hmunch.some kind n hscan) hmunches

theorem Munches.of_layout {p : Position} {c : Char} {cs : List Char}
    {r : Except Position (List Token)} (hc : Text.isLayout c = true)
    (h : Munches p (c :: cs) r) : Munches (p.after c) cs r := by
  cases h with
  | layout _ rest => exact rest
  | token hc' _ _ _ => rw [hc] at hc'; cases hc'
  | stuck hc' _ => rw [hc] at hc'; cases hc'

theorem Munches.of_token {p : Position} {c : Char} {cs : List Char} {ts : List Token}
    (hc : Text.isLayout c = false) (h : Munches p (c :: cs) (.ok ts)) :
    ∃ kind l rest ts', c :: cs = l ++ rest ∧ IsMunch (c :: cs) kind l ∧
      ts = ⟨kind, l, p⟩ :: ts' ∧ Munches (p.advance l) rest (.ok ts') := by
  generalize hr : (Except.ok ts : Except Position (List Token)) = r at h
  cases h with
  | layout hc' _ => rw [hc] at hc'; cases hc'
  | @token _ _ _ l rest kind r' _ hcs hl more =>
    cases r' with
    | error _ => cases hr
    | ok ts' =>
      cases hr
      exact ⟨kind, l, rest, ts', hcs, hl, rfl, more⟩
  | stuck _ _ => cases hr

/-- Where the lexer finds the same tokens as maximal munch, no number is split. -/
theorem splitsNumber_of_munches (done : List Token) {ts : List Token} {p : Position}
    {cs : List Char} (hlex : lexFrom done p cs = .ok (done.reverse ++ ts))
    (h : Munches p cs (.ok ts)) : ∀ s ∈ tokenPlaces cs, splitsNumber s = false := by
  fun_induction lexFrom done p cs generalizing ts with
  | case1 => simp [tokenPlaces]
  | case2 done p c cs hc ih =>
    rw [tokenPlaces, if_pos hc]
    exact ih hlex (h.of_layout hc)
  | case3 => cases hlex
  | case4 done p c cs hc kind n hscan ih =>
    rw [tokenPlaces, if_neg hc, List.forall_mem_cons, hscan]
    obtain ⟨kind', l, rest, ts', hcs, hl, rfl, more⟩ := h.of_token (by simpa using hc)
    -- the first of the new tokens is the one that both take
    obtain ⟨new, heq, -⟩ := lexes_of_lexFrom hlex
    rw [List.reverse_cons, List.append_assoc, List.append_cancel_left_eq] at heq
    obtain ⟨htoken, rfl⟩ := List.cons.inj heq
    obtain ⟨rfl, rfl, -⟩ := Token.mk.inj htoken
    obtain rfl : cs.drop n = rest := by
      rw [List.cons_append] at hcs
      have htail := (List.cons.inj hcs).2
      exact List.append_cancel_left ((List.take_append_drop n cs).trans htail)
    refine ⟨?_, ih (by simpa using hlex) more⟩
    by_contra hsplits
    exact not_isMunch_of_splits (by simpa using hsplits) hscan (by simp) hl

/-- The tokens of a source are those of maximal munch if no number is split, and a source with
tokens has those of maximal munch only then. -/
theorem lex_iff_munches (source : List Char) :
    ((∀ s ∈ tokenPlaces source, splitsNumber s = false) →
        ∀ r, Munches .start source r ↔ lex source = r) ∧
      ∀ ts, lex source = .ok ts → Munches .start source (.ok ts) →
        ∀ s ∈ tokenPlaces source, splitsNumber s = false := by
  refine ⟨fun h r => ?_, fun ts hlex h => splitsNumber_of_munches [] hlex h⟩
  obtain ⟨r', hr', hmunches⟩ := munches_of_lexFrom [] .start source h
  have hlex : lex source = r' := by
    rw [lex, hr']
    cases r' <;> rfl
  constructor
  · intro hr
    rw [hlex, hmunches.unique hr]
  · intro hr
    rwa [← hr, hlex]

theorem lex_iff_munches_of_blank :
    Munches .start "1e-5 + x".toList
      (.ok [⟨.number, ['1', 'e', '-', '5'], ⟨1, 1⟩⟩, ⟨.plus, ['+'], ⟨1, 6⟩⟩,
        ⟨.text, ['x'], ⟨1, 8⟩⟩]) :=
  ((lex_iff_munches "1e-5 + x".toList).1 (by decide +kernel) _).2 (by decide +kernel)

/-- Text behind a number takes the number apart. -/
theorem lex_splits_number :
    lex "1e-5x".toList = .ok [⟨.text, ['1', 'e'], ⟨1, 1⟩⟩, ⟨.minus, ['-'], ⟨1, 3⟩⟩,
      ⟨.text, ['5', 'x'], ⟨1, 4⟩⟩] ∧
    ¬ Munches .start "1e-5x".toList (lex "1e-5x".toList) := by
  have hlex : lex "1e-5x".toList = .ok [⟨.text, ['1', 'e'], ⟨1, 1⟩⟩, ⟨.minus, ['-'], ⟨1, 3⟩⟩,
      ⟨.text, ['5', 'x'], ⟨1, 4⟩⟩] := by decide +kernel
  refine ⟨hlex, fun h => ?_⟩
  rw [hlex] at h
  have hnone := splitsNumber_of_munches [] hlex h
  exact absurd hnone (by decide +kernel)

end Token

end FlagScript
