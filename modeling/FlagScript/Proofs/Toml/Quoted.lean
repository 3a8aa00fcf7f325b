import FlagScript.Proofs.Source.Scan
import FlagScript.Toml.Quoted

/-!
# Quoted texts read back

Whatever text is written between quote marks is read back, in each style that may be chosen for it.
Within a long text the marks are what matters: a text in which no more than two stand in a row
without an escape is `Spelled`, and the three that close it are then found at the right place.
-/

namespace FlagScript.Toml

/-! ## Long texts -/

variable {mark : Char} {R : List Char → List Char → Option (List Char × List Char)} {q : Nat}
  {cs out rest : List Char}

/-- The text `cs` written as `out` behind `q` marks, for the reader `R`: a mark stands for itself if
there were fewer than two in front, and everything else is read without regard to what follows. -/
inductive Spelled (R : List Char → List Char → Option (List Char × List Char)) (mark : Char) :
    Nat → List Char → List Char → Prop where
  | nil {q : Nat} : Spelled R mark q [] []
  | mark {q : Nat} {cs out : List Char} (hq : q < 2) (h : Spelled R mark (q + 1) cs out) :
      Spelled R mark q (mark :: cs) (mark :: out)
  | other {q : Nat} {c : Char} {w cs out : List Char} (hw : w ≠ []) (hhead : w.head? ≠ some mark)
      (hread : ∀ done rest, R done (w ++ rest) = R (c :: done) rest)
      (h : Spelled R mark 0 cs out) : Spelled R mark q (c :: cs) (w ++ out)

theorem head?_append_ne {xs : List Char} (hne : xs ≠ []) (h : xs.head? ≠ some mark)
    (ys : List Char) : (xs ++ ys).head? ≠ some mark := by
  obtain ⟨x, xs, rfl⟩ := List.exists_cons_of_ne_nil hne
  exact h

/-- A spelled text begins with a run of at most two marks. -/
theorem Spelled.exists_run (h : Spelled R mark q cs out) : ∃ j out',
    out = List.replicate j mark ++ out' ∧ out'.head? ≠ some mark ∧ j ≤ 2 - q ∧
      (out' = [] → cs = List.replicate j mark) := by
  induction h with
  | nil => exact ⟨0, [], rfl, by simp, by omega, fun _ => rfl⟩
  | mark hq h ih =>
    obtain ⟨j, out', rfl, hhead, hj, hnil⟩ := ih
    refine ⟨j + 1, out', rfl, hhead, by omega, fun hout => ?_⟩
    rw [hnil hout, List.replicate_succ]
  | @other q c w cs out hw hhead hread h ih =>
    refine ⟨0, w ++ out, rfl, head?_append_ne hw hhead out, by omega, fun hout => ?_⟩
    exact absurd (List.append_eq_nil_iff.1 hout).1 hw

theorem closeLong?_replicate (j : Nat) (hrest : rest.head? ≠ some mark) :
    closeLong? mark (List.replicate j mark ++ rest) =
      if j < 3 then none
      else some (List.replicate (min (j - 3) 2) mark,
        (List.replicate j mark ++ rest).drop (min (j - 3) 2 + 3)) := by
  have htake : ((List.replicate j mark ++ rest).takeWhile (· == mark)).length = j := by
    have hend : ∀ c ∈ rest.head?, (c == mark) = false := by
      intro c hc
      rw [beq_eq_false_iff_ne]
      rintro rfl
      exact hrest hc
    rw [Token.takeWhile_append_of_head hend]
    simp
  simp only [closeLong?, htake]

/-- The three marks behind a text close it, if no fourth follows. -/
theorem closeLong?_end {j : Nat} (hj : j ≤ 2) (hrest : rest.head? ≠ some mark) :
    closeLong? mark (List.replicate (j + 3) mark ++ rest) = some (List.replicate j mark, rest) := by
  rw [closeLong?_replicate _ hrest, if_neg (by omega), show min (j + 3 - 3) 2 = j by omega,
    List.drop_left' (by simp)]

theorem read_of_spelled (hmark : ∀ done cs, R done (mark :: cs) =
      match closeLong? mark (mark :: cs) with
      | some (own, rest) => some (done.reverse ++ own, rest)
      | none => R (mark :: done) cs)
    (h : Spelled R mark q cs out) (hrest : rest.head? ≠ some mark) (done : List Char) :
    R done (out ++ (List.replicate 3 mark ++ rest)) = some (done.reverse ++ cs, rest) := by
  induction h generalizing done with
  | nil =>
    have hclose := closeLong?_end (j := 0) (by omega) hrest
    rw [List.nil_append, List.replicate_succ, List.cons_append, hmark]
    rw [show 0 + 3 = 2 + 1 from rfl, List.replicate_succ, List.cons_append] at hclose
    rw [hclose]
    rfl
  | @mark q cs out hq h ih =>
    obtain ⟨j, out', hout, hhead, hj, hnil⟩ := h.exists_run
    rw [List.cons_append, hmark]
    by_cases hend : out' = []
    · -- the marks at the end of the text are followed by those that close it
      have hclose := closeLong?_end (j := j + 1) (by omega) hrest
      have hsplit : mark :: (out ++ (List.replicate 3 mark ++ rest)) =
          List.replicate (j + 1 + 3) mark ++ rest := by
        rw [hout, hend, List.append_nil, ← List.append_assoc, List.replicate_append_replicate,
          ← List.cons_append, ← List.replicate_succ, show j + 3 + 1 = j + 1 + 3 by omega]
      rw [hsplit, hclose, hnil hend, List.replicate_succ]
    · have hinside : closeLong? mark (mark :: (out ++ (List.replicate 3 mark ++ rest))) = none := by
        have hsplit : mark :: (out ++ (List.replicate 3 mark ++ rest)) =
            List.replicate (j + 1) mark ++ (out' ++ (List.replicate 3 mark ++ rest)) := by
          rw [hout, List.append_assoc]
          rfl
        rw [hsplit, closeLong?_replicate _ (head?_append_ne hend hhead _), if_pos (by omega)]
      rw [hinside]
      simp only
      rw [ih]
      simp
  | @other q c w cs out hw hhead hread h ih =>
    rw [List.append_assoc, hread, ih]
    simp

/-! ## Escapes -/

variable {long : Bool} {c : Char} {done : List Char}

theorem readEscaped?_letter {l : Char} (h : charOfLetter? l = some c) :
    readEscaped? long false done ('\\' :: l :: cs) = readEscaped? long false (c :: done) cs := by
  unfold charOfLetter? at h
  split at h
  all_goals
    cases h
    try cases long <;> rfl

theorem readEscaped?_hex {l₁ l₂ l₃ l₄ : Char} (h : charOfHex? [l₁, l₂, l₃, l₄] = some c) :
    readEscaped? long false done ('\\' :: 'u' :: l₁ :: l₂ :: l₃ :: l₄ :: cs) =
      readEscaped? long false (c :: done) cs := by
  have hline : endsLine ('u' :: l₁ :: l₂ :: l₃ :: l₄ :: cs) = false := rfl
  rw [readEscaped?, hline, Bool.and_false, if_neg Bool.false_ne_true]
  simp only [h]

theorem readEscaped?_newline :
    readEscaped? true false done ('\n' :: cs) = readEscaped? true false ('\n' :: done) cs := rfl

/-- Every character but a line end is printable or written as an escape. -/
theorem isPrintable_of_not_isControl (hn : c ≠ '\n') (h : isControl c = false) :
    isPrintable c = true ∧ c ≠ '\r' := by
  constructor
  · simp only [isControl, Bool.or_eq_false_iff, Bool.and_eq_false_iff, decide_eq_false_iff_not,
      bne_eq_false_iff_eq, beq_eq_false_iff_ne] at h
    obtain ⟨(h | rfl) | rfl, hdel⟩ := h
    · have hle : 32 ≤ c.toNat := by omega
      simp [isPrintable, hle, hdel]
    · rfl
    · exact absurd rfl hn
  · rintro rfl
    exact absurd h (by decide)

theorem readEscaped?_plain (hquote : c ≠ '"') (hback : c ≠ '\\') (hn : c ≠ '\n')
    (hcontrol : isControl c = false) :
    readEscaped? long false done (c :: cs) = readEscaped? long false (c :: done) cs := by
  obtain ⟨hprint, hr⟩ := isPrintable_of_not_isControl hn hcontrol
  rw [readEscaped?.eq_def]
  split <;> simp_all

theorem charOfHex?_hexDigits (h : c.toNat < 128) :
    charOfHex? ['0', '0', hexDigit (c.toNat / 16), hexDigit (c.toNat % 16)] = some c := by
  have hall : ∀ n : Fin 128, charOfHex? ['0', '0', hexDigit (n.val / 16), hexDigit (n.val % 16)] =
      some (Char.ofNat n.val) := by decide +kernel
  have hc := hall ⟨c.toNat, h⟩
  rwa [Char.ofNat_toNat] at hc

/-- Characters that are written as escapes. -/
def IsEscaped (c : Char) : Prop :=
  isControl c = true ∨ c = '\t' ∨ c = '\n' ∨ c = '"' ∨ c = '\\'

theorem readEscaped?_escapeChar (h : IsEscaped c) :
    readEscaped? long false done (escapeChar c ++ cs) = readEscaped? long false (c :: done) cs := by
  have hascii : c.toNat < 128 := by
    rcases h with h | rfl | rfl | rfl | rfl
    · simp only [isControl, Bool.or_eq_true, Bool.and_eq_true, decide_eq_true_eq,
        beq_iff_eq] at h
      rcases h with ⟨⟨h, _⟩, _⟩ | rfl
      · omega
      · decide
    · decide
    · decide
    · decide
    · decide
  unfold escapeChar
  split
  case h_8 => exact readEscaped?_hex (charOfHex?_hexDigits hascii)
  all_goals exact readEscaped?_letter rfl

theorem escapeChar_eq_cons (c : Char) : ∃ w, escapeChar c = '\\' :: w := by
  unfold escapeChar
  split <;> exact ⟨_, rfl⟩

/-- What stands for a character in a text with escapes, is no quote mark, and is read without regard
to what follows. It begins with a line end only if the character is one. -/
structure StandsFor (long : Bool) (w : List Char) (c : Char) : Prop where
  ne_nil : w ≠ []
  head : w.head? ≠ some '"'
  lineEnd : w.head? ≠ some '\r' ∧ (w.head? = some '\n' → c = '\n')
  read : ∀ done rest, readEscaped? long false done (w ++ rest) =
    readEscaped? long false (c :: done) rest

theorem standsFor_escapeChar (h : IsEscaped c) : StandsFor long (escapeChar c) c := by
  obtain ⟨w, hw⟩ := escapeChar_eq_cons c
  exact ⟨by simp [hw], by simp [hw], by simp [hw], fun _ _ => readEscaped?_escapeChar h⟩

theorem standsFor_plain (h : ¬IsEscaped c) : StandsFor long [c] c := by
  simp only [IsEscaped, not_or, Bool.not_eq_true] at h
  obtain ⟨hcontrol, _, hn, hquote, hback⟩ := h
  have hr := (isPrintable_of_not_isControl hn hcontrol).2
  exact ⟨by simp, by simpa using hquote, by simpa using hr,
    fun _ _ => readEscaped?_plain hquote hback hn hcontrol⟩

theorem standsFor_newline : StandsFor true ['\n'] '\n' :=
  ⟨by simp, by simp, by simp, fun _ _ => readEscaped?_newline⟩

/-- A text with escapes goes on with a quote mark that stands as it is, or with something that
stands for the first character. -/
theorem escapeText_cons (long : Bool) (q : Nat) (c : Char) (cs : List Char) :
    (c = '"' ∧ long = true ∧ q < 2 ∧
      escapeText long q (c :: cs) = '"' :: escapeText long (q + 1) cs) ∨
    ∃ w, StandsFor long w c ∧ escapeText long q (c :: cs) = w ++ escapeText long 0 cs := by
  rw [escapeText]
  split
  next hquote =>
    split
    next hraw =>
      -- in long text, up to two marks in a row stand as they are
      simp only [Bool.and_eq_true, decide_eq_true_eq] at hraw
      exact .inl ⟨hquote, hraw.1, hraw.2, by rw [hquote]⟩
    next => exact .inr ⟨_, standsFor_escapeChar (by simp [IsEscaped, hquote]), rfl⟩
  next hquote =>
    right
    split
    next hraw =>
      simp only [Bool.and_eq_true, decide_eq_true_eq] at hraw
      obtain ⟨rfl, rfl⟩ := hraw
      exact ⟨_, standsFor_newline, rfl⟩
    next =>
      split
      next hescape =>
        have hc : IsEscaped c := by
          simp only [Bool.or_eq_true, decide_eq_true_eq] at hescape
          grind [IsEscaped]
        exact ⟨_, standsFor_escapeChar hc, rfl⟩
      next hplain =>
        have hc : ¬IsEscaped c := by
          simp only [Bool.or_eq_true, decide_eq_true_eq] at hplain
          grind [IsEscaped]
        exact ⟨_, standsFor_plain hc, rfl⟩

/-- A text with escapes is spelled, whatever it is. -/
theorem spelled_escapeText (q : Nat) (cs : List Char) :
    Spelled (readEscaped? true false) '"' q cs (escapeText true q cs) := by
  induction cs generalizing q with
  | nil => exact .nil
  | cons c cs ih =>
    rcases escapeText_cons true q c cs with ⟨rfl, _, hq, heq⟩ | ⟨w, hw, heq⟩
    · rw [heq]
      exact .mark hq (ih _)
    · rw [heq]
      exact .other hw.ne_nil hw.head hw.read (ih 0)

theorem readEscaped?_short (cs : List Char) (q : Nat) (done rest : List Char) :
    readEscaped? false false done (escapeText false q cs ++ '"' :: rest) =
      some (done.reverse ++ cs, rest) := by
  induction cs generalizing q done with
  | nil => simp [escapeText, readEscaped?]
  | cons c cs ih =>
    rcases escapeText_cons false q c cs with ⟨_, hlong, _⟩ | ⟨w, hw, heq⟩
    · cases hlong
    · rw [heq, List.append_assoc, hw.read, ih]
      simp

theorem readEscaped?_long (hrest : rest.head? ≠ some '"') :
    readEscaped? true false [] (escapeText true 0 cs ++ (List.replicate 3 '"' ++ rest)) =
      some (cs, rest) := by
  have hmark : ∀ done cs, readEscaped? true false done ('"' :: cs) =
      match closeLong? '"' ('"' :: cs) with
      | some (own, rest) => some (done.reverse ++ own, rest)
      | none => readEscaped? true false ('"' :: done) cs := fun _ _ => rfl
  exact read_of_spelled hmark (spelled_escapeText 0 cs) hrest []

/-! ## Literal texts -/

theorem readLiteral?_plain (hquote : c ≠ '\x27') (hn : c ≠ '\n') (hcontrol : isControl c = false) :
    readLiteral? long done (c :: cs) = readLiteral? long (c :: done) cs := by
  obtain ⟨hprint, hr⟩ := isPrintable_of_not_isControl hn hcontrol
  rw [readLiteral?.eq_def]
  split <;> simp_all

theorem readLiteral?_short (hcontrol : ∀ c ∈ cs, isControl c = false) (hn : '\n' ∉ cs)
    (hquote : '\x27' ∉ cs) (done rest : List Char) :
    readLiteral? false done (cs ++ '\x27' :: rest) = some (done.reverse ++ cs, rest) := by
  induction cs generalizing done with
  | nil => simp [readLiteral?]
  | cons c cs ih =>
    rw [List.mem_cons, not_or] at hn hquote
    rw [List.forall_mem_cons] at hcontrol
    rw [List.cons_append, readLiteral?_plain (Ne.symm hquote.1) (Ne.symm hn.1) hcontrol.1,
      ih hcontrol.2 hn.2 hquote.2]
    simp

/-- One step of looking for the longest run. -/
def countRun (mark : Char) (s : Nat × Nat) (c : Char) : Nat × Nat :=
  let now := if c = mark then s.2 + 1 else 0
  (max s.1 now, now)

theorem le_foldl_countRun (mark : Char) (cs : List Char) (s : Nat × Nat) :
    s.1 ≤ (cs.foldl (countRun mark) s).1 := by
  induction cs generalizing s with
  | nil => exact Nat.le_refl _
  | cons c cs ih =>
    calc s.1 ≤ (countRun mark s c).1 := Nat.le_max_left _ _
      _ ≤ _ := ih _

theorem spelled_of_run (hcontrol : ∀ c ∈ cs, isControl c = false) (longest : Nat)
    (hrun : (cs.foldl (countRun '\x27') (longest, q)).1 ≤ 2) :
    Spelled (readLiteral? true) '\x27' q cs cs := by
  induction cs generalizing q longest with
  | nil => exact .nil
  | cons c cs ih =>
    rw [List.forall_mem_cons] at hcontrol
    rw [List.foldl_cons] at hrun
    have hnow := le_foldl_countRun '\x27' cs (countRun '\x27' (longest, q) c)
    by_cases hquote : c = '\x27'
    · subst hquote
      simp only [countRun, if_true] at hrun hnow
      exact .mark (by omega) (ih hcontrol.2 _ hrun)
    · simp only [countRun, hquote, if_false] at hrun
      have hread : ∀ done rest, readLiteral? true done ([c] ++ rest) =
          readLiteral? true (c :: done) rest := by
        intro done rest
        by_cases hn : c = '\n'
        · rw [hn]; rfl
        · exact readLiteral?_plain hquote hn hcontrol.1
      exact .other (by simp) (by simpa using hquote) hread (ih hcontrol.2 _ hrun)

theorem readLiteral?_long (hcontrol : ∀ c ∈ cs, isControl c = false)
    (hrun : longestRun '\x27' cs ≤ 2) (hrest : rest.head? ≠ some '\x27') :
    readLiteral? true [] (cs ++ (List.replicate 3 '\x27' ++ rest)) = some (cs, rest) := by
  have hmark : ∀ done cs, readLiteral? true done ('\x27' :: cs) =
      match closeLong? '\x27' ('\x27' :: cs) with
      | some (own, rest) => some (done.reverse ++ own, rest)
      | none => readLiteral? true ('\x27' :: done) cs := fun _ _ => rfl
  exact read_of_spelled hmark (spelled_of_run hcontrol 0 hrun) hrest []

/-! ## Styles -/

theorem dropLineEnd_eq (hn : cs.head? ≠ some '\n') (hr : cs.head? ≠ some '\r') :
    dropLineEnd cs = cs := by
  unfold dropLineEnd
  split <;> simp_all

/-- A text with escapes does not begin with a line end if it has none. -/
theorem head_escapeText (hn : '\n' ∉ cs) (rest : List Char) :
    (escapeText true q cs ++ '"' :: rest).head? ≠ some '\n' ∧
      (escapeText true q cs ++ '"' :: rest).head? ≠ some '\r' := by
  cases cs with
  | nil => simp [escapeText]
  | cons c cs =>
    rw [List.mem_cons, not_or] at hn
    rcases escapeText_cons true q c cs with ⟨_, _, _, heq⟩ | ⟨w, hw, heq⟩
    · simp [heq]
    · have hhead : w.head? ≠ some '\n' := fun h => hn.1 (hw.lineEnd.2 h).symm
      rw [heq, List.append_assoc]
      exact ⟨head?_append_ne hw.ne_nil hhead _, head?_append_ne hw.ne_nil hw.lineEnd.1 _⟩

/-- The text of a style between its marks. -/
def QuoteStyle.inside (style : QuoteStyle) (cs : List Char) : List Char :=
  (if style.long && cs.contains '\n' then ['\n'] else []) ++
    (if style.escapes then escapeText style.long 0 cs else cs)

/-- A text that is read back in a style: with escapes any. -/
def QuoteStyle.Fits (style : QuoteStyle) (cs : List Char) : Prop :=
  style.escapes = true ∨ style.suits cs = true

/-- The line end at the start of a long text is dropped, and there is no other. -/
theorem dropLineEnd_inside {body : List Char} (hn : '\n' ∉ cs → body.head? ≠ some '\n')
    (hr : '\n' ∉ cs → body.head? ≠ some '\r') :
    dropLineEnd ((if cs.contains '\n' then ['\n'] else []) ++ body) = body := by
  split
  next => rfl
  next hnot =>
    rw [List.contains_eq_mem, decide_eq_true_eq] at hnot
    exact dropLineEnd_eq (hn hnot) (hr hnot)

theorem read?_inside {style : QuoteStyle} (h : style.Fits cs)
    (hrest : rest.head? ≠ some style.mark) :
    style.read? (style.inside cs ++ (style.fence ++ rest)) = some (cs, rest) := by
  -- there is one reader for each kind of quotation
  obtain ⟨escapes, long⟩ := style
  cases escapes with
  | true =>
    cases long with
    | false =>
      show readEscaped? false false [] (escapeText false 0 cs ++ '"' :: rest) = _
      exact readEscaped?_short cs 0 [] rest
    | true =>
      have hhead (hn : '\n' ∉ cs) := head_escapeText (q := 0) hn ('"' :: '"' :: rest)
      show readEscaped? true false [] (dropLineEnd ((if cs.contains '\n' then ['\n'] else []) ++
        escapeText true 0 cs ++ '"' :: '"' :: '"' :: rest)) = _
      rw [List.append_assoc, dropLineEnd_inside (fun hn => (hhead hn).1) (fun hn => (hhead hn).2)]
      exact readEscaped?_long hrest
  | false =>
    have hsuits := h.resolve_left Bool.false_ne_true
    simp only [QuoteStyle.suits, Bool.false_and, Bool.not_false, Bool.and_true,
      Bool.and_eq_true, Bool.not_eq_true', List.any_eq_false] at hsuits
    obtain ⟨hcontrol, hstyle⟩ := hsuits
    have hcontrol : ∀ c ∈ cs, isControl c = false := by simpa using hcontrol
    cases long with
    | false =>
      simp only [Bool.false_eq_true, if_false, Bool.and_eq_true, Bool.not_eq_true',
        List.contains_eq_mem, decide_eq_false_iff_not] at hstyle
      show readLiteral? false [] (cs ++ '\x27' :: rest) = _
      exact readLiteral?_short hcontrol hstyle.1 hstyle.2 [] rest
    | true =>
      simp only [if_true, decide_eq_true_eq] at hstyle
      have hhead : '\n' ∉ cs → (cs ++ '\x27' :: '\x27' :: '\x27' :: rest).head? ≠ some '\n' ∧
          (cs ++ '\x27' :: '\x27' :: '\x27' :: rest).head? ≠ some '\r' := by
        intro hn
        cases cs with
        | nil => simp
        | cons c cs =>
          rw [List.mem_cons, not_or] at hn
          have hr := isPrintable_of_not_isControl (Ne.symm hn.1) (hcontrol c (by simp))
          simp [Ne.symm hn.1, hr.2]
      show readLiteral? true [] (dropLineEnd ((if cs.contains '\n' then ['\n'] else []) ++
        cs ++ '\x27' :: '\x27' :: '\x27' :: rest)) = _
      rw [List.append_assoc, dropLineEnd_inside (fun hn => (hhead hn).1) (fun hn => (hhead hn).2)]
      exact readLiteral?_long hcontrol hstyle hrest

/-! ## Reading what was written -/

theorem write_eq (style : QuoteStyle) (cs : List Char) :
    style.write cs = style.fence ++ (style.inside cs ++ style.fence) := by
  simp [QuoteStyle.write, QuoteStyle.inside]

/-- One mark opens a text of one line, unless two more follow. -/
theorem readText?_of_one {style : QuoteStyle} {t : List Char} (hlong : style.long = false)
    (h : ¬[style.mark, style.mark] <+: t) : readText? (style.mark :: t) = style.read? t := by
  have hthree : ∀ rest, t ≠ style.mark :: style.mark :: rest := by
    rintro rest rfl
    exact h (List.prefix_append _ _)
  obtain ⟨escapes, long⟩ := style
  cases hlong
  cases escapes <;>
    (unfold readText?
     split
     next heq => first | exact absurd (List.cons.inj heq).2 (hthree _) | cases heq
     next heq => first | exact absurd (List.cons.inj heq).2 (hthree _) | cases heq
     next => rfl)

/-- A text of one line does not begin with the mark that closes it. -/
theorem head_inside {style : QuoteStyle} (hlong : style.long = false) (h : style.Fits cs)
    (hne : style.inside cs ≠ []) : (style.inside cs).head? ≠ some style.mark := by
  obtain ⟨escapes, long⟩ := style
  cases hlong
  cases cs with
  | nil => cases escapes <;> exact absurd rfl hne
  | cons c cs =>
    cases escapes with
    | true =>
      show (escapeText false 0 (c :: cs)).head? ≠ some '"'
      rcases escapeText_cons false 0 c cs with ⟨_, hlong, _⟩ | ⟨w, hw, heq⟩
      · cases hlong
      · rw [heq]
        exact head?_append_ne hw.ne_nil hw.head _
    | false =>
      have hsuits := h.resolve_left Bool.false_ne_true
      rintro hhead
      obtain rfl : c = '\x27' := Option.some.inj hhead
      simp [QuoteStyle.suits, QuoteStyle.mark] at hsuits

theorem readText?_write {style : QuoteStyle} (h : style.Fits cs)
    (hrest : rest.head? ≠ some style.mark) :
    readText? (style.write cs ++ rest) = some (cs, rest) := by
  have hread := read?_inside h hrest
  rw [write_eq, List.append_assoc, List.append_assoc]
  cases hlong : style.long with
  | true =>
    obtain ⟨escapes, long⟩ := style
    cases hlong
    cases escapes <;> exact hread
  | false =>
    have hfence : style.fence = [style.mark] := by rw [QuoteStyle.fence, hlong]; rfl
    rw [hfence] at hread ⊢
    -- a short text does not begin like a long one
    have hone : ¬[style.mark, style.mark] <+: style.inside cs ++ ([style.mark] ++ rest) := by
      rintro ⟨behind, hbehind⟩
      by_cases hne : style.inside cs = []
      · rw [hne, List.nil_append] at hbehind
        have hbehind : [style.mark] ++ behind = rest := (List.cons.inj hbehind).2
        apply hrest
        rw [← hbehind]
        rfl
      · apply head?_append_ne hne (head_inside hlong h hne) ([style.mark] ++ rest)
        rw [← hbehind]
        rfl
    exact (readText?_of_one hlong hone).trans hread

/-- The same for a key, which stands on one line. -/
theorem readLine?_write {style : QuoteStyle} (h : style.Fits cs) (hlong : style.long = false)
    (hrest : rest.head? ≠ some style.mark) :
    readLine? (style.write cs ++ rest) = some (cs, rest) := by
  have hread := read?_inside h hrest
  rw [write_eq, List.append_assoc, List.append_assoc]
  obtain ⟨escapes, long⟩ := style
  cases hlong
  cases escapes <;> exact hread

/-- A text is written in a style in which it is read back. -/
theorem fits_forText (cs : List Char) : (QuoteStyle.forText cs).Fits cs := by
  unfold QuoteStyle.forText
  cases hfind : QuoteStyle.preferred.find? (·.suits cs) with
  | none => exact .inl rfl
  | some style =>
    have hsuits := List.find?_some hfind
    exact .inr hsuits

theorem fits_forKey (cs : List Char) :
    (QuoteStyle.forKey cs).Fits cs ∧ (QuoteStyle.forKey cs).long = false := by
  unfold QuoteStyle.forKey
  cases hfind : (QuoteStyle.preferred.filter (!·.long)).find? (·.suits cs) with
  | none => exact ⟨.inl rfl, rfl⟩
  | some style =>
    have hsuits := List.find?_some hfind
    have hmem := (List.mem_filter.1 (List.mem_of_find?_eq_some hfind)).2
    exact ⟨.inr hsuits, by simpa using hmem⟩

end FlagScript.Toml
