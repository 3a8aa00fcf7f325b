import FlagScript.Proofs.Source.Scan

/-!
# Lexemes

What the tokens of each class look like, without regard to what stands behind them. `Lexeme kind l`
says it by a rule for each class. For the classes whose length the lexer has to find out, numbers,
truth words and text, it finds the length of the longest lexeme that stands in front
(`length_le_numberLength`, `length_eq_truthWordLength`, `length_le_textReach`), and what it finds is
a lexeme.
-/

namespace FlagScript

namespace TokenClass

/-- How operators and punctuation are written. -/
def symbol? : TokenClass → Option (List Char)
  | set => some ['=']
  | equal => some ['=', '=']
  | notEqual => some ['!', '=']
  | less => some ['<']
  | lessOrEqual => some ['<', '=']
  | greater => some ['>']
  | greaterOrEqual => some ['>', '=']
  | plus => some ['+']
  | minus => some ['-']
  | star => some ['*']
  | slash => some ['/']
  | incrementBy => some ['+', '=']
  | decrementBy => some ['-', '=']
  | increment => some ['+', '+']
  | decrement => some ['-', '-']
  | not => some ['!']
  | and => some ['&', '&']
  | or => some ['|', '|']
  | comma => some [',']
  | leftParen => some ['(']
  | rightParen => some [')']
  | identifier | boolean | number | quotedText | text => none

/-- The classes from the one that goes first to the one that goes last, where two of them fit. -/
def table : List TokenClass := [
  set, equal, notEqual, less, lessOrEqual, greater, greaterOrEqual, plus, minus, star, slash,
  incrementBy, decrementBy, increment, decrement, not, and, or, comma, leftParen, rightParen,
  identifier, boolean, number, quotedText, text]

/-- The place of a class among all classes. -/
def rank (k : TokenClass) : Nat := table.idxOf k

end TokenClass

namespace Token

/-! ## One rule for each class -/

structure IsDigits (ds : List Char) : Prop where
  ne_nil : ds ≠ []
  digits : ∀ c ∈ ds, c.isDigit = true

/-- The digits of a number and its point: digits, perhaps with a point among or behind them, or
digits behind a point. -/
inductive Mantissa : List Char → Prop where
  | whole {ds : List Char} (hds : IsDigits ds) : Mantissa ds
  | pointed {ds fs : List Char} (hds : IsDigits ds) (hfs : ∀ c ∈ fs, c.isDigit = true) :
      Mantissa (ds ++ '.' :: fs)
  | fraction {fs : List Char} (hfs : IsDigits fs) : Mantissa ('.' :: fs)

inductive Exponent : List Char → Prop where
  | none : Exponent []
  | plain {e : Char} {ds : List Char} (he : e = 'e' ∨ e = 'E') (hds : IsDigits ds) :
      Exponent (e :: ds)
  | minus {e : Char} {ds : List Char} (he : e = 'e' ∨ e = 'E') (hds : IsDigits ds) :
      Exponent (e :: '-' :: ds)

/-- What stands between the two `@`: a backslash takes the next character with it. -/
inductive QuotedBody : List Char → Prop where
  | nil : QuotedBody []
  | escape (c : Char) {cs : List Char} (rest : QuotedBody cs) : QuotedBody ('\\' :: c :: cs)
  | plain {c : Char} {cs : List Char} (hat : c ≠ '@') (hc : c ≠ '\\') (rest : QuotedBody cs) :
      QuotedBody (c :: cs)

/-- A character of unquoted text, with the backslash in front of it if it has one. -/
inductive TextUnit : List Char → Prop where
  | plain {c : Char} (hc : isPlain c = true) : TextUnit [c]
  | escape (c : Char) : TextUnit ['\\', c]

/-- Unquoted text: blanks stand only between characters of it. -/
inductive TextRun : List Char → Prop where
  | unit {u : List Char} (hu : TextUnit u) : TextRun u
  | more {u blanks run : List Char} (hu : TextUnit u)
      (hblanks : ∀ c ∈ blanks, Text.isInlineBlank c = true) (hrun : TextRun run) :
      TextRun (u ++ (blanks ++ run))

/-- What the tokens of a class look like. -/
inductive Lexeme : TokenClass → List Char → Prop where
  | mark {kind : TokenClass} {cs : List Char} (h : kind.symbol? = some cs) : Lexeme kind cs
  | identifier {name : List Char} (hne : name ≠ []) (hname : ∀ c ∈ name, isNameChar c = true) :
      Lexeme .identifier ('$' :: name)
  | boolean {cs : List Char} (h : cs.map Char.toLower ∈ truthWords) : Lexeme .boolean cs
  | number {m x : List Char} (hm : Mantissa m) (hx : Exponent x) : Lexeme .number (m ++ x)
  | quotedText {body : List Char} (hbody : QuotedBody body) :
      Lexeme .quotedText ('@' :: (body ++ ['@']))
  | text {cs : List Char} (h : TextRun cs) : Lexeme .text cs

/-! ## Text -/

theorem textReach_unit {u : List Char} (hu : TextUnit u) (b l : Nat) (rest : List Char) :
    textReach b l (u ++ rest) = textReach 0 (l + b + u.length) rest := by
  cases hu with
  | plain hc => exact textReach_plain hc b l rest
  | escape c => exact textReach_escape c b l rest

theorem textReach_blanks {blanks rest : List Char}
    (h : ∀ c ∈ blanks, Text.isInlineBlank c = true) (hrest : rest ≠ []) (b l : Nat) :
    textReach b l (blanks ++ rest) = textReach (b + blanks.length) l rest := by
  induction blanks generalizing b with
  | nil => rfl
  | cons c cs ih =>
    rw [List.cons_append, textReach_blank (h c (by simp)) b l (by simp [hrest]),
      ih (fun d hd => h d (by simp [hd])), List.length_cons]
    congr 1
    omega

theorem TextUnit.ne_nil {u : List Char} (hu : TextUnit u) : u ≠ [] := by
  cases hu <;> exact List.cons_ne_nil _ _

theorem TextRun.ne_nil {run : List Char} (h : TextRun run) : run ≠ [] := by
  cases h with
  | unit hu => exact hu.ne_nil
  | more hu _ _ => simp [hu.ne_nil]

/-- Text reaches over every run in front of it. -/
theorem textReach_run {run : List Char} (h : TextRun run) (b l : Nat) (rest : List Char) :
    textReach b l (run ++ rest) = textReach 0 (l + b + run.length) rest := by
  induction h generalizing b l with
  | unit hu => exact textReach_unit hu b l rest
  | @more u blanks run hu hblanks hrun ih =>
    rw [List.append_assoc, textReach_unit hu, List.append_assoc,
      textReach_blanks hblanks (by simp [hrun.ne_nil]), ih]
    congr 1
    simp only [List.length_append]
    omega

/-- A run in front of other characters is all of the text there, or text goes on behind it. -/
theorem textReach_append {run : List Char} (h : TextRun run) (rest : List Char) :
    textReach 0 0 (run ++ rest) =
      if textReach 0 0 rest = 0 then run.length else run.length + textReach 0 0 rest := by
  rw [textReach_run h, textReach_eq]
  simp

theorem length_le_textReach {run cs : List Char} (h : TextRun run) (hcs : run <+: cs) :
    run.length ≤ textReach 0 0 cs := by
  obtain ⟨rest, rfl⟩ := hcs
  rw [textReach_append h]
  split <;> omega

/-- Characters that are all plain are a run. -/
theorem textRun_of_plain {cs : List Char} (hne : cs ≠ []) (h : ∀ c ∈ cs, isPlain c = true) :
    TextRun cs := by
  induction cs with
  | nil => exact absurd rfl hne
  | cons c cs ih =>
    have hunit : TextUnit [c] := .plain (h c (by simp))
    cases cs with
    | nil => exact .unit hunit
    | cons d ds =>
      have hrun := ih (List.cons_ne_nil d ds) fun x hx => h x (by simp [hx])
      have hmore : TextRun ([c] ++ ([] ++ d :: ds)) := .more hunit (by simp) hrun
      exact hmore

/-- As far as text reaches there is a run, perhaps behind blanks. -/
def RunAhead (cs : List Char) : Prop :=
  ∃ blanks run, (∀ c ∈ blanks, Text.isInlineBlank c = true) ∧ TextRun run ∧
    blanks ++ run <+: cs ∧ textReach 0 0 cs = blanks.length + run.length

/-- Text behind a character of text is part of the same run. -/
theorem RunAhead.unit {u rest : List Char} (hu : TextUnit u)
    (h : textReach 0 0 rest ≠ 0 → RunAhead rest) : RunAhead (u ++ rest) := by
  by_cases hstop : textReach 0 0 rest = 0
  · refine ⟨[], u, by simp, .unit hu, List.prefix_append u rest, ?_⟩
    rw [textReach_append (.unit hu), if_pos hstop, List.length_nil, Nat.zero_add]
  · obtain ⟨blanks, run, hblanks, hrun, hfront, hreach⟩ := h hstop
    refine ⟨[], u ++ (blanks ++ run), by simp, .more hu hblanks hrun, ?_, ?_⟩
    · exact (List.prefix_append_right_inj u).2 hfront
    · rw [textReach_append (.unit hu), if_neg hstop, hreach]
      simp

theorem runAhead_of_textReach : ∀ cs : List Char, textReach 0 0 cs ≠ 0 → RunAhead cs
  | [], h => absurd rfl h
  | c :: cs, h => by
    by_cases hplain : isPlain c = true
    · exact RunAhead.unit (.plain hplain) (runAhead_of_textReach cs)
    by_cases hback : c = '\\'
    · subst hback
      cases cs with
      | nil => exact absurd (by decide : textReach 0 0 ['\\'] = 0) h
      | cons d ds => exact RunAhead.unit (.escape d) (runAhead_of_textReach ds)
    by_cases hblank : Text.isInlineBlank c = true
    · have hcs : cs ≠ [] := by
        rintro rfl
        exact h (by simp [textReach, hplain])
      have hreach := textReach_blank hblank 0 0 hcs
      rw [textReach_eq cs] at hreach
      -- text has to go on behind the blank
      by_cases hstop : textReach 0 0 cs = 0
      · rw [if_pos hstop] at hreach
        exact absurd hreach h
      · obtain ⟨blanks, run, hblanks, hrun, hfront, hlen⟩ := runAhead_of_textReach cs hstop
        refine ⟨c :: blanks, run, List.forall_mem_cons.2 ⟨hblank, hblanks⟩, hrun, ?_, ?_⟩
        · exact (List.prefix_cons_inj c).2 hfront
        · rw [if_neg hstop, hlen] at hreach
          rw [hreach, List.length_cons]
          omega
    · exact absurd (textReach_stop (by simpa using hplain) (by simpa using hblank) hback 0 0 cs) h

theorem isLayout_of_isInlineBlank {c : Char} (h : Text.isInlineBlank c = true) :
    Text.isLayout c = true := by
  simp only [Text.isInlineBlank, Bool.or_eq_true, beq_iff_eq] at h
  rcases h with rfl | rfl <;> rfl

/-- Where no layout stands in front, text reaches over a run. -/
theorem textRun_take_textReach {c : Char} {cs : List Char} (hc : Text.isLayout c = false)
    (h : textReach 0 0 (c :: cs) ≠ 0) :
    TextRun ((c :: cs).take (textReach 0 0 (c :: cs))) ∧
      textReach 0 0 (c :: cs) ≤ (c :: cs).length := by
  obtain ⟨blanks, run, hblanks, hrun, hfront, hlen⟩ := runAhead_of_textReach (c :: cs) h
  cases blanks with
  | nil =>
    rw [List.nil_append] at hfront
    rw [List.length_nil, Nat.zero_add] at hlen
    rw [hlen, ← List.prefix_iff_eq_take.1 hfront]
    exact ⟨hrun, hfront.length_le⟩
  | cons b blanks =>
    -- a blank in front would be layout
    have hb := isLayout_of_isInlineBlank (hblanks b (by simp))
    rw [List.cons_append, List.cons_prefix_cons] at hfront
    rw [hfront.1, hc] at hb
    cases hb

/-! ## Numbers -/

theorem digitCount_append_of_digits {ds : List Char} (h : ∀ c ∈ ds, c.isDigit = true)
    (rest : List Char) : digitCount (ds ++ rest) = ds.length + digitCount rest := by
  rw [digitCount, List.takeWhile_append_of_pos h, List.length_append]
  rfl

theorem takeWhile_digits (cs : List Char) :
    cs.takeWhile Char.isDigit = cs.take (digitCount cs) :=
  List.prefix_iff_eq_take.1 (List.takeWhile_prefix _)

theorem isDigits_take_digitCount {cs : List Char} (h : digitCount cs ≠ 0) :
    IsDigits (cs.take (digitCount cs)) := by
  rw [← takeWhile_digits]
  refine ⟨?_, fun c hc => List.all_eq_true.1 List.all_takeWhile c hc⟩
  intro hnil
  exact h (by rw [digitCount, hnil]; rfl)

theorem digits_take_digitCount (cs : List Char) :
    ∀ c ∈ cs.take (digitCount cs), c.isDigit = true := by
  rw [← takeWhile_digits]
  exact fun c hc => List.all_eq_true.1 List.all_takeWhile c hc

/-- Digits behind which no digit stands are the run of digits that the lexer sees. -/
theorem digitCount_of_head {ds rest : List Char} (h : ∀ c ∈ ds, c.isDigit = true)
    (hrest : ∀ c ∈ rest.head?, c.isDigit = false) : digitCount (ds ++ rest) = ds.length := by
  rw [digitCount_append_of_digits h]
  cases rest with
  | nil => rfl
  | cons c cs => simp [digitCount, hrest c rfl]

theorem mantissaLength_of_point {ds : List Char} (hds : ∀ c ∈ ds, c.isDigit = true)
    (cs : List Char) :
    mantissaLength (ds ++ '.' :: cs) =
      if ds.length = 0 ∧ digitCount cs = 0 then 0 else ds.length + 1 + digitCount cs := by
  have hwhole : digitCount (ds ++ '.' :: cs) = ds.length :=
    digitCount_of_head hds (by simp)
  unfold mantissaLength
  simp only [hwhole, List.drop_left, Bool.and_eq_true, decide_eq_true_eq]

/-- The digits and the point that the lexer sees are as long as every mantissa in front. -/
theorem length_le_mantissaLength {m : List Char} (hm : Mantissa m) (rest : List Char) :
    m.length ≤ mantissaLength (m ++ rest) := by
  cases hm with
  | whole hds =>
    have hwhole := digitCount_append_of_digits hds.digits rest
    have hpos : m.length ≠ 0 := by simpa using hds.ne_nil
    unfold mantissaLength
    simp only
    split
    next fs _ =>
      -- what follows may have a point, which only makes the mantissa longer
      rw [if_neg (by simp; omega)]
      omega
    next => omega
  | @pointed ds fs hds hfs =>
    have hpos : ds.length ≠ 0 := by simpa using hds.ne_nil
    rw [List.append_assoc, List.cons_append, mantissaLength_of_point hds.digits, if_neg (by omega),
      digitCount_append_of_digits hfs]
    simp only [List.length_append, List.length_cons]
    omega
  | @fraction fs hfs =>
    have hpos : fs.length ≠ 0 := by simpa using hfs.ne_nil
    rw [List.cons_append, ← List.nil_append ('.' :: (fs ++ rest)),
      mantissaLength_of_point (by simp), digitCount_append_of_digits hfs.digits,
      if_neg (by omega)]
    simp only [List.length_nil, List.length_cons]
    omega

/-- A mantissa behind which neither a digit nor a point stands is the one that the lexer sees. -/
theorem mantissaLength_of_head {m rest : List Char} (hm : Mantissa m)
    (hdigit : ∀ c ∈ rest.head?, c.isDigit = false) (hpoint : ∀ c ∈ rest.head?, c ≠ '.') :
    mantissaLength (m ++ rest) = m.length := by
  cases hm with
  | whole hds =>
    have hwhole := digitCount_of_head hds.digits hdigit
    unfold mantissaLength
    simp only [hwhole, List.drop_left]
    split
    next fs => exact absurd rfl (hpoint '.' rfl)
    next => rfl
  | @pointed ds fs hds hfs =>
    have hpos : ds.length ≠ 0 := by simpa using hds.ne_nil
    rw [List.append_assoc, List.cons_append, mantissaLength_of_point hds.digits, if_neg (by omega),
      digitCount_of_head hfs hdigit, List.length_append, List.length_cons]
    omega
  | @fraction fs hfs =>
    have hpos : fs.length ≠ 0 := by simpa using hfs.ne_nil
    rw [List.cons_append, ← List.nil_append ('.' :: (fs ++ rest)),
      mantissaLength_of_point (by simp), digitCount_of_head hfs.digits hdigit, if_neg (by omega),
      List.length_nil, List.length_cons]
    omega

/-- What stands behind the digits in front tells whether they are all of a mantissa. -/
theorem mantissaLength_cases (cs : List Char) :
    (∃ fs, cs.drop (digitCount cs) = '.' :: fs ∧ mantissaLength cs =
        if digitCount cs = 0 ∧ digitCount fs = 0 then 0 else digitCount cs + (1 + digitCount fs)) ∨
      (∀ c ∈ (cs.drop (digitCount cs)).head?, c ≠ '.') ∧ mantissaLength cs = digitCount cs := by
  unfold mantissaLength
  simp only
  split
  next fs hfs =>
    refine .inl ⟨fs, hfs, ?_⟩
    simp [Nat.add_assoc]
  next hnone =>
    refine .inr ⟨?_, rfl⟩
    rintro c hc rfl
    obtain ⟨fs, hfs⟩ := List.head?_eq_some_iff.1 hc
    exact hnone fs hfs

theorem mantissa_take_mantissaLength {cs : List Char} (h : mantissaLength cs ≠ 0) :
    Mantissa (cs.take (mantissaLength cs)) := by
  rcases mantissaLength_cases cs with ⟨fs, hfs, hlen⟩ | ⟨-, hlen⟩
  · rw [hlen] at h ⊢
    split at h
    next => exact absurd rfl h
    next hsome =>
      rw [if_neg hsome, List.take_add, hfs, Nat.add_comm 1, List.take_succ_cons]
      by_cases hwhole : digitCount cs = 0
      · rw [hwhole, List.take_zero, List.nil_append]
        exact .fraction (isDigits_take_digitCount fun h0 => hsome ⟨hwhole, h0⟩)
      · exact .pointed (isDigits_take_digitCount hwhole) (digits_take_digitCount fs)
  · -- without a point there are only the digits
    rw [hlen] at h ⊢
    exact .whole (isDigits_take_digitCount h)

theorem exponent_take_exponentLength : ∀ cs : List Char, Exponent (cs.take (exponentLength cs))
  | [] => .none
  | e :: cs => by
    rw [exponentLength_cons]
    split
    next he =>
      have he' : e = 'e' ∨ e = 'E' := by simpa using he
      split
      next hminus =>
        obtain ⟨ds, rfl⟩ := List.head?_eq_some_iff.1 hminus
        rw [List.tail_cons]
        split
        next => exact .none
        next hds => exact .minus he' (isDigits_take_digitCount hds)
      next =>
        split
        next => exact .none
        next hds => exact .plain he' (isDigits_take_digitCount hds)
    next => exact .none

theorem length_le_exponentLength {x : List Char} (hx : Exponent x) (rest : List Char) :
    x.length ≤ exponentLength (x ++ rest) := by
  cases hx with
  | none => exact Nat.zero_le _
  | @plain e ds he hds =>
    obtain ⟨d, ds', rfl⟩ := List.exists_cons_of_ne_nil hds.ne_nil
    have hminus : d ≠ '-' := by
      rintro rfl
      exact absurd (hds.digits '-' (by simp)) (by decide)
    rw [List.cons_append, exponentLength_cons, if_pos (by simpa using he),
      if_neg (by simpa using hminus), digitCount_append_of_digits hds.digits]
    simp only [List.length_cons]
    rw [if_neg (by omega)]
    omega
  | @minus e ds he hds =>
    have hpos : ds.length ≠ 0 := by simpa using hds.ne_nil
    rw [List.cons_append, List.cons_append, exponentLength_cons, if_pos (by simpa using he),
      if_pos List.head?_cons, List.tail_cons, digitCount_append_of_digits hds.digits,
      if_neg (by omega)]
    simp only [List.length_cons]
    omega

theorem Mantissa.length_pos {m : List Char} (hm : Mantissa m) : m.length ≠ 0 := by
  cases hm with
  | whole hds => simpa using hds.ne_nil
  | pointed _ _ => simp
  | fraction _ => simp

/-- A number in front is no longer than the one that the lexer sees. -/
theorem length_le_numberLength {m x : List Char} (hm : Mantissa m) (hx : Exponent x)
    (rest : List Char) : (m ++ x).length ≤ numberLength (m ++ x ++ rest) := by
  have hpos := hm.length_pos
  have hmantissa := length_le_mantissaLength hm (x ++ rest)
  rw [List.append_assoc]
  by_cases hnone : x = []
  · subst hnone
    rw [List.append_nil]
    unfold numberLength
    split
    next h0 => omega
    next => omega
  · -- the letter of the exponent ends the digits
    obtain ⟨e, es, rfl, he⟩ : ∃ e es, x = e :: es ∧ (e = 'e' ∨ e = 'E') := by
      cases hx with
      | none => exact absurd rfl hnone
      | plain he _ => exact ⟨_, _, rfl, he⟩
      | minus he _ => exact ⟨_, _, rfl, he⟩
    have hlen : mantissaLength (m ++ (e :: es ++ rest)) = m.length := by
      apply mantissaLength_of_head hm
      · rintro c ⟨⟩
        rcases he with rfl | rfl <;> decide
      · rintro c ⟨⟩
        rcases he with rfl | rfl <;> decide
    have hexponent := length_le_exponentLength hx rest
    unfold numberLength
    rw [hlen, List.length_append]
    split
    next h0 => omega
    next => rw [List.drop_left]; omega

theorem lexeme_take_numberLength {cs : List Char} (h : numberLength cs ≠ 0) :
    Lexeme .number (cs.take (numberLength cs)) := by
  unfold numberLength at h ⊢
  split
  next h0 => rw [h0] at h; exact absurd rfl h
  next hpos =>
    rw [List.take_add]
    exact .number (mantissa_take_mantissaLength fun h0 => hpos h0)
      (exponent_take_exponentLength _)

/-! ## Truth words -/

/-- The letters of truth words are characters of text and not of numbers. -/
theorem of_mem_truthWord {l : List Char} (h : l.map Char.toLower ∈ truthWords) {c : Char}
    (hc : c ∈ l) : isPlain c = true ∧ c.isDigit = false ∧ c ≠ '.' := by
  have hmem : c.toLower ∈ l.map Char.toLower := List.mem_map_of_mem hc
  have hnot : ∀ {d : Char}, (truthWords.all fun w => !w.contains d.toLower) = true → c ≠ d := by
    rintro d hd rfl
    have hword := List.all_eq_true.1 hd _ h
    simp [hmem] at hword
  refine ⟨?_, ?_, hnot (by decide)⟩
  · -- the characters that are not plain are few enough to look at each
    have hall : (['+', '-', '<', '>', '!', '=', '*', '/', '&', '|', '(', ')', ',', '@', '$', '\\',
        ' ', '\t', '\r', '\n'].all fun d => truthWords.all fun w => !w.contains d.toLower) =
        true := by decide
    have hother := fun d hd => hnot (List.all_eq_true.1 hall d hd)
    simp only [List.mem_cons, List.not_mem_nil, or_false, forall_eq_or_imp, forall_eq] at hother
    simp [isPlain, isSpecial, Text.isLayout, hother]
  · -- digits are their own lower case
    cases hdigit : c.isDigit with
    | false => rfl
    | true =>
      have hlower : c.toLower = c := by
        unfold Char.toLower
        grind [Char.isDigit]
      rw [hlower] at hmem
      have hnone : (truthWords.all fun w => w.all fun d => !d.isDigit) = true := by decide
      have hword := List.all_eq_true.1 (List.all_eq_true.1 hnone _ h) c hmem
      rw [hdigit] at hword
      cases hword

theorem ne_nil_of_mem_truthWords {l : List Char} (h : l.map Char.toLower ∈ truthWords) :
    l ≠ [] := by
  rintro rfl
  exact absurd h (by decide)

/-- No truth word begins another one, so there is only one in front. -/
theorem length_eq_truthWordLength {l : List Char} (h : l.map Char.toLower ∈ truthWords)
    (rest : List Char) : truthWordLength (l ++ rest) = l.length := by
  have hfound : ((truthWords.find? fun w => ((l ++ rest).take w.length).map Char.toLower == w)
      |>.isSome) = true := by
    rw [List.find?_isSome]
    exact ⟨_, h, by simp⟩
  obtain ⟨w, hw⟩ := Option.isSome_iff_exists.1 hfound
  have hmem := List.mem_of_find?_eq_some hw
  have heq : ((l ++ rest).take w.length).map Char.toLower = w := by
    simpa using List.find?_some hw
  have hfront : w <+: (l ++ rest).map Char.toLower := by
    rw [← heq]
    exact (List.take_prefix _ _).map _
  have hfront' : l.map Char.toLower <+: (l ++ rest).map Char.toLower :=
    (List.prefix_append l rest).map _
  have hsame : w = l.map Char.toLower := by
    have hwords : ∀ w ∈ truthWords, ∀ w' ∈ truthWords, w <+: w' → w = w' := by decide
    rcases List.prefix_or_prefix_of_prefix hfront hfront' with hle | hle
    · exact hwords _ hmem _ h hle
    · exact (hwords _ h _ hmem hle).symm
  unfold truthWordLength
  rw [hw, hsame]
  simp

theorem lexeme_take_truthWordLength {cs : List Char} (h : truthWordLength cs ≠ 0) :
    Lexeme .boolean (cs.take (truthWordLength cs)) := by
  unfold truthWordLength at h ⊢
  split
  next w hw =>
    have heq : (cs.take w.length).map Char.toLower = w := by simpa using List.find?_some hw
    refine .boolean ?_
    rw [heq]
    exact List.mem_of_find?_eq_some hw
  next hnone =>
    rw [hnone] at h
    exact absurd rfl h

/-! ## Quoted text -/

/-- Quoted text reaches to the first `@` without a backslash. -/
theorem quotedReach_body {body : List Char} (h : QuotedBody body) (n : Nat) (rest : List Char) :
    quotedReach n (body ++ '@' :: rest) = some (n + body.length + 1) := by
  induction h generalizing n with
  | nil => rfl
  | escape c _ ih =>
    rw [List.cons_append, List.cons_append, quotedReach, ih]
    · simp only [List.length_cons]
      congr 1
      omega
  | @plain c cs hat hc _ ih =>
    rw [List.cons_append, quotedReach, ih]
    · simp only [List.length_cons]
      congr 1
      omega
    · exact hat
    · intro h0
      exact absurd h0 hc
    · intro _ _ h0
      exact absurd h0 hc

theorem body_of_quotedReach : ∀ {cs : List Char} {n m : Nat}, quotedReach n cs = some m →
    ∃ body rest, cs = body ++ '@' :: rest ∧ QuotedBody body ∧ m = n + body.length + 1
  | [], _, _, h => by cases h
  | c :: cs, n, m, h => by
    by_cases hat : c = '@'
    · subst hat
      rw [quotedReach] at h
      cases h
      exact ⟨[], cs, rfl, .nil, rfl⟩
    by_cases hback : c = '\\'
    · subst hback
      cases cs with
      | nil => cases h
      | cons d ds =>
        rw [quotedReach] at h
        obtain ⟨body, rest, rfl, hbody, rfl⟩ := body_of_quotedReach h
        exact ⟨'\\' :: d :: body, rest, rfl, .escape d hbody, by simp; omega⟩
    · rw [quotedReach] at h
      · obtain ⟨body, rest, rfl, hbody, rfl⟩ := body_of_quotedReach h
        exact ⟨c :: body, rest, rfl, .plain hat hback hbody, by simp; omega⟩
      · exact hat
      · intro h0
        exact absurd h0 hback
      · intro _ _ h0
        exact absurd h0 hback

end Token

end FlagScript
