import FlagScript.Proofs.Grammar.Agreement
import FlagScript.Proofs.Source.Printable
import FlagScript.Proofs.Token.Lexeme

/-!
# Scripts read back as they are printed

Every word has one printed form (`Word.form`). The source of an expression is cut into the forms of
its words, whatever boundary stands behind it (`lexes_source`), and so is the source of a script.
Forms of words that read back say those words (`reads_source`). Tokens that say the same words are
read as the same script, so a script that was read is read again from its own source
(`parse_source`). Even where a float does not read back, the classes of the tokens do
(`lex_source`).
-/

namespace FlagScript

open Token (Boundary Lexes Reads)

/-! ## Words as they are printed -/

namespace Word

/-- The class and the characters of a word that is printed. -/
def form : Word → TokenClass × List Char
  | .mark kind => (kind, kind.symbol?.getD [])
  | .name s => (.identifier, '$' :: s.toList)
  | .literal kind v => (kind, (v.literalSource (kind == .quotedText)).toList)

theorem form_fst (w : Word) : w.form.1 = w.kind := by cases w <;> rfl

@[simp] theorem form_name (s : String) : (name s).form = (.identifier, '$' :: s.toList) := rfl

@[simp] theorem form_leftParen : (mark .leftParen).form = (.leftParen, ['(']) := rfl

@[simp] theorem form_rightParen : (mark .rightParen).form = (.rightParen, [')']) := rfl

@[simp] theorem form_comma : (mark .comma).form = (.comma, [',']) := rfl

theorem form_literal (v : Value) (quoted : Bool) :
    (literal (v.tokenKind quoted) v).form =
      (v.tokenKind quoted, (v.literalSource quoted).toList) := by
  cases v <;> cases quoted <;> rfl

@[simp] theorem form_binaryOp (op : BinaryOp) :
    (mark op.kind).form = (op.kind, op.symbol.toList) := by
  cases op <;> rfl

@[simp] theorem form_assignOp (op : AssignOp) :
    (mark op.kind).form = (op.kind, op.symbol.toList) := by
  cases op <;> rfl

@[simp] theorem form_unaryOp (op : UnaryOp) :
    (mark op.kind).form = (op.kind, op.symbol.toList) := by
  cases op <;> rfl

theorem Printable.isName {name : String} (h : (Word.name name).Printable) :
    Token.IsName name := by
  cases h with
  | name h => exact h

theorem Spelled.isName {name : String} (h : (Word.name name).Spelled) : Token.IsName name := by
  cases h with
  | name h => exact h

/-- The printed form of a word that reads back says the word. -/
theorem word?_form {w : Word} (h : w.Printable) (hmark : ∀ k, w = .mark k → k.isMark = true) :
    Token.word? ⟨w.form.1, w.form.2, .start⟩ = some w := by
  have hliteral : ∀ (v : Value) (quoted : Bool), (literal (v.tokenKind quoted) v).Printable →
      Token.word? ⟨(literal (v.tokenKind quoted) v).form.1, (literal (v.tokenKind quoted) v).form.2,
        .start⟩ = some (literal (v.tokenKind quoted) v) := by
    intro v quoted hv
    rw [form_literal]
    exact (Token.cut_literalSource hv .nil).word?_eq
  cases h with
  | mark kind => exact Token.word?_of_mark rfl (hmark kind rfl)
  | @name s hname =>
    have hcut : Token.Cut ('$' :: s.toList) [] (name s) := Token.cut_name hname (by simp)
    exact hcut.word?_eq
  | int hi => exact hliteral (.int _) false (.int hi)
  | float hback => exact hliteral (.float _) false (.float hback)
  | bool b => exact hliteral (.bool b) false (.bool b)
  | quotedText s => exact hliteral (.text s) true (.quotedText s)
  | text hs => exact hliteral (.text _) false (.text hs)

end Word

/-! ## How expressions begin -/

theorem Value.startsExpression_tokenKind (v : Value) (quoted : Bool) :
    (v.tokenKind quoted).startsExpression = true := by
  cases v <;> cases quoted <;> rfl

/-- The first word of an expression. -/
theorem Expr.words_eq_cons (e : Expr) :
    ∃ w ws, e.words = w :: ws ∧ w.kind.startsExpression = true := by
  cases e with
  | literal v quoted => exact ⟨_, _, rfl, v.startsExpression_tokenKind quoted⟩
  | flag _ => exact ⟨_, _, rfl, rfl⟩
  | assign _ _ _ => exact ⟨_, _, rfl, rfl⟩
  | step _ _ => exact ⟨_, _, rfl, rfl⟩
  | call _ _ => exact ⟨_, _, rfl, rfl⟩
  | group _ => exact ⟨_, _, rfl, rfl⟩
  | binary op left right =>
    -- the leftmost operand begins a chain of operators
    obtain ⟨w, ws, hleft, hw⟩ := words_eq_cons left
    exact ⟨w, ws ++ .mark op.kind :: right.words, by rw [words, hleft, List.cons_append], hw⟩
  | unary op _ => cases op <;> exact ⟨_, _, rfl, rfl⟩

/-- What begins an expression is not written with an equals sign in front. -/
theorem Token.Lexes.head_ne_equals {cs : List Char} {f : TokenClass × List Char}
    {fs : List (TokenClass × List Char)} (h : Lexes cs (f :: fs))
    (hf : f.1.startsExpression = true) : cs.head? ≠ some '=' := by
  intro hhead
  obtain ⟨cs, rfl⟩ := List.head?_eq_some_iff.1 hhead
  cases h with
  | layout hc => cases hc
  | @token _ _ _ kind n _ hscan _ =>
    have hkind : kind = .equal ∨ kind = .set := by
      unfold Token.scan at hscan
      split at hscan <;> simp_all
    rcases hkind with rfl | rfl <;> cases hf

/-! ## Expressions -/

theorem Token.boundary_binaryOp (op : BinaryOp) (cs : List Char) :
    Boundary (' ' :: (op.symbol.toList ++ cs)) := by
  cases op <;> exact .operator _ (by decide) (by decide)

theorem Token.head_assignOp (op : AssignOp) (cs : List Char) :
    ∀ c ∈ (op.symbol.toList ++ cs).head?, isNameChar c = false := by
  cases op <;> (intro c hc; cases hc; decide)

namespace Expr

attribute [local simp] Word.kind

mutual

theorem lexes_source : ∀ (e : Expr), e.Fits → (∀ w ∈ e.words, w.Spelled) → ∀ {rest fs},
    Boundary rest → Lexes rest fs → Lexes (e.source.toList ++ rest) (e.words.map Word.form ++ fs)
  | .literal v quoted, _, hp, rest, fs, hb, hr => by
    rw [source, words, List.map_singleton, Word.form_literal]
    exact (Token.cutsOff_literalSource (hp _ (by simp [words])) hb).lexes hr
  | .flag name, _, hp, rest, fs, hb, hr => by
    have hname := (hp (.name name) (by simp [words])).isName
    have hlex := (Token.cut_name hname fun c hc => (hb.head_ne hc).1).cutsOff.lexes hr
    simpa [source, words] using hlex
  | .step name op, hf, hp, rest, fs, hb, hr => by
    have hname := (hp (.name name) (by simp [words])).isName
    have hop := (Token.cut_stepOp hf).cutsOff.lexes hr
    have hlex := (Token.cut_name hname (Token.head_assignOp op rest)).cutsOff.lexes hop
    simpa [source, words] using hlex
  | .assign name op value, hf, hp, rest, fs, hb, hr => by
    have hname := (hp (.name name) (by simp [words])).isName
    -- read from behind: the value, then the operator in front of it, then the name
    have hvalue := lexes_source value hf.2 (fun w hw => hp w (by simp [words, hw])) hb hr
    have hop := (Token.cut_assignOp op).cutsOff.lexes (.layout (c := ' ') (by decide) hvalue)
    have hlex := (Token.cut_name hname (by simp; decide)).cutsOff.lexes
      (.layout (c := ' ') (by decide) hop)
    simpa [source, words] using hlex
  | .call name args, hf, hp, rest, fs, hb, hr => by
    have hname := (hp (.name name) (by simp [words])).isName
    have hclose := Token.cut_rightParen.cutsOff.lexes hr
    have hargs := lexes_sources args hf (fun w hw => hp w (by simp [words, hw])) hclose
    have hopen := Token.cut_leftParen.cutsOff.lexes hargs
    have hlex := (Token.cut_name hname (by simp; decide)).cutsOff.lexes hopen
    simpa [source, words] using hlex
  | .group inner, hf, hp, rest, fs, hb, hr => by
    have hclose := Token.cut_rightParen.cutsOff.lexes hr
    have hinner := lexes_source inner hf (fun w hw => hp w (by simp [words, hw])) (.paren _) hclose
    have hlex := Token.cut_leftParen.cutsOff.lexes hinner
    simpa [source, words] using hlex
  | .binary op left right, hf, hp, rest, fs, hb, hr => by
    obtain ⟨_, _, hfl, hfr⟩ := hf
    have hright := lexes_source right hfr (fun w hw => hp w (by simp [words, hw])) hb hr
    have hop := (Token.cut_binaryOp op).cutsOff.lexes (.layout (c := ' ') (by decide) hright)
    -- a blank and an operator end whatever literal the left operand ends with
    have hlex := lexes_source left hfl (fun w hw => hp w (by simp [words, hw]))
      (Token.boundary_binaryOp op _) (.layout (c := ' ') (by decide) hop)
    simpa [source, words] using hlex
  | .unary op operand, hf, hp, rest, fs, hb, hr => by
    have hoperand := lexes_source operand hf.2 (fun w hw => hp w (by simp [words, hw])) hb hr
    rw [source]
    split
    next =>
      have hlex := (Token.cut_unaryOp op (by simp) (by simp)).cutsOff.lexes
        (.layout (c := ' ') (by decide) hoperand)
      simpa [words] using hlex
    next hsigns =>
      -- without a blank the operator must not read as a longer one
      have hset : (operand.source.toList ++ rest).head? ≠ some '=' := by
        obtain ⟨w, ws', hwords, hw⟩ := operand.words_eq_cons
        rw [hwords] at hoperand
        exact hoperand.head_ne_equals (by rwa [Word.form_fst])
      have hneg : op = .neg → (operand.source.toList ++ rest).head? ≠ some '-' := by
        intro hop hhead
        rw [List.head?_append] at hhead
        cases hs : operand.source.toList.head? with
        | none =>
          rw [hs] at hhead
          exact (hb.head_ne hhead).2.2.2.1 rfl
        | some c =>
          rw [hs] at hhead
          cases hhead
          exact hsigns (by simp [hop, hs])
      have hlex := (Token.cut_unaryOp op hset hneg).cutsOff.lexes hoperand
      simpa [words] using hlex

/-- Arguments and the parenthesis that closes them. -/
theorem lexes_sources : ∀ (es : List Expr), AllFit es → (∀ w ∈ argumentWords es, w.Spelled) →
    ∀ {rest fs}, Lexes (')' :: rest) fs →
      Lexes ((joinWith ", " (sources es)).toList ++ ')' :: rest)
        ((argumentWords es).map Word.form ++ fs)
  | [], _, _, rest, fs, hr => hr
  | [e], hf, hp, rest, fs, hr => lexes_source e hf.1 hp (.paren _) hr
  | e :: e' :: es, hf, hp, rest, fs, hr => by
    have hmore := lexes_sources (e' :: es) hf.2
      (fun w hw => hp w (by simp [argumentWords, hw])) hr
    have hcomma := Token.cut_comma.cutsOff.lexes (.layout (c := ' ') (by decide) hmore)
    have hlex := lexes_source e hf.1 (fun w hw => hp w (by simp [argumentWords, hw]))
      (.comma _) hcomma
    simpa [sources, joinWith, argumentWords] using hlex

end

mutual

/-- The marks among the words of an expression are operators and punctuation. -/
theorem isMark_of_mem_words : ∀ {e : Expr} {k : TokenClass}, .mark k ∈ e.words → k.isMark = true
  | .literal _ _, _, h => by simp [words] at h
  | .flag _, _, h => by simp [words] at h
  | .step _ op, _, h => by
    simp only [words, List.mem_cons, reduceCtorEq, Word.mark.injEq, List.not_mem_nil, or_false,
      false_or] at h
    rw [h]
    exact op.isMark_kind
  | .assign _ op value, _, h => by
    simp only [words, List.mem_cons, reduceCtorEq, Word.mark.injEq, false_or] at h
    rcases h with rfl | h
    · exact op.isMark_kind
    · exact isMark_of_mem_words h
  | .call _ args, _, h => by
    simp only [words, List.mem_cons, List.mem_append, reduceCtorEq, Word.mark.injEq,
      List.not_mem_nil, or_false, false_or] at h
    rcases h with rfl | h | rfl
    · rfl
    · exact isMark_of_mem_argumentWords h
    · rfl
  | .group inner, _, h => by
    simp only [words, List.mem_cons, List.mem_append, Word.mark.injEq, List.not_mem_nil,
      or_false] at h
    rcases h with rfl | h | rfl
    · rfl
    · exact isMark_of_mem_words h
    · rfl
  | .binary op left right, _, h => by
    simp only [words, List.mem_cons, List.mem_append, Word.mark.injEq] at h
    rcases h with h | rfl | h
    · exact isMark_of_mem_words h
    · exact op.isMark_kind
    · exact isMark_of_mem_words h
  | .unary op operand, _, h => by
    simp only [words, List.mem_cons, Word.mark.injEq] at h
    rcases h with rfl | h
    · exact op.isMark_kind
    · exact isMark_of_mem_words h

theorem isMark_of_mem_argumentWords : ∀ {es : List Expr} {k : TokenClass},
    .mark k ∈ argumentWords es → k.isMark = true
  | [], _, h => by cases h
  | [_], _, h => isMark_of_mem_words h
  | _ :: e' :: es, _, h => by
    simp only [argumentWords, List.mem_cons, List.mem_append, Word.mark.injEq] at h
    rcases h with h | rfl | h
    · exact isMark_of_mem_words h
    · rfl
    · exact isMark_of_mem_argumentWords h

end

end Expr

/-! ## Scripts -/

namespace Script

/-- The source of a script is cut into its words, for a line end is a boundary. -/
theorem lexes_source : ∀ (script : Script), (∀ e ∈ script, e.Fits) →
    (∀ w ∈ script.words, w.Spelled) → Lexes script.source.toList (script.words.map Word.form)
  | [], _, _ => .nil
  | [e], hf, hp => by
    have hlex := e.lexes_source (hf e (by simp)) (fun w hw => hp w (by simp [words, hw])) .nil .nil
    simpa [source, Expr.joinWith, words] using hlex
  | e :: e' :: es, hf, hp => by
    have hmore := lexes_source (e' :: es) (fun x hx => hf x (by simp [hx]))
      (fun w hw => hp w (by
        rw [words, List.flatMap_cons, List.mem_append]
        exact .inr hw))
    have hlex := e.lexes_source (hf e (by simp)) (fun w hw => hp w (by simp [words, hw]))
      (.line _) (.layout (c := '\n') (by decide) hmore)
    simpa [source, Expr.joinWith, words] using hlex

theorem isMark_of_mem_words {script : Script} {k : TokenClass} (h : .mark k ∈ script.words) :
    k.isMark = true := by
  obtain ⟨e, _, he⟩ := List.mem_flatMap.1 h
  exact Expr.isMark_of_mem_words he

/-- Where all words read back, the source says them. -/
theorem reads_source (script : Script) (hf : ∀ e ∈ script, e.Fits)
    (hp : ∀ w ∈ script.words, w.Printable) : Reads script.source.toList script.words := by
  have hmark : ∀ w ∈ script.words, ∀ k, w = .mark k → k.isMark = true := by
    rintro w hw k rfl
    exact isMark_of_mem_words hw
  refine ⟨_, lexes_source script hf fun w hw => (hp w hw).spelled (hmark w hw), ?_⟩
  rw [List.map_map]
  exact List.map_congr_left fun w hw => Word.word?_form (hp w hw) (hmark w hw)

theorem fits_of_parse {source : String} {script : Script} (h : parse source = .ok script) :
    ∀ e ∈ script, e.Fits := by
  obtain ⟨_, _, _, _, hps, hes⟩ := parse_eq_ok_iff.1 h
  exact Expr.allFit_iff.1 (Phrase.statements_spells hps hes).2

theorem reads_source_of_parse {source : String} {script : Script}
    (h : parse source = .ok script) (hback : ∀ w ∈ script.words, w.ReadsBack) :
    Reads script.source.toList script.words :=
  reads_source script (fits_of_parse h) fun w hw => printable_of_parse h hw (hback w hw)

/-- Sources that say the same words are read as the same script. -/
theorem parse_of_reads {source source' : String} {script : Script}
    (h : parse source = .ok script) (hreads : Reads source'.toList script.words) :
    parse source' = .ok script := by
  obtain ⟨ts, ps, hlex, _, hps, hes⟩ := parse_eq_ok_iff.1 h
  obtain ⟨hwords, _⟩ := Phrase.statements_spells hps hes
  obtain ⟨us, hus, huswords⟩ := hreads.lex
  -- both lists of tokens say the words of the script
  have hagree : List.Forall₂ Token.Agrees ts us := Token.agree_of_words hwords.symm huswords
  have hts : ofTokens source.toList ts = .ok script := by
    rw [parse] at h
    simpa only [hlex] using h
  rw [parse]
  simp only [hus]
  exact (ofTokens_same hagree _ _).eq_ok hts

/-- A script that was read is read again from its own source, if its floats are printed as numbers
that are read back. -/
theorem parse_source {source : String} {script : Script} (h : parse source = .ok script)
    (hback : ∀ w ∈ script.words, w.ReadsBack) : parse script.source = .ok script :=
  parse_of_reads h (reads_source_of_parse h hback)

/-- A float, two signs in a row, text that would read as a number, a blank at the end of a text and
two statements on one line. -/
theorem parse_source_of_float :
    parse "$a = - -1.50 $ADD(\\1, x\\ ) " = .ok
        [.assign "A" .set (.unary .neg (.unary .neg (.literal (.float (.ofDecimal false 15 (-1)))
          false))), .call "ADD" [.literal (.text "1") false, .literal (.text "x ") false]] ∧
      parse "$A = - -1.5\n$ADD(\\1, x\\ )" = .ok
        [.assign "A" .set (.unary .neg (.unary .neg (.literal (.float (.ofDecimal false 15 (-1)))
          false))), .call "ADD" [.literal (.text "1") false, .literal (.text "x ") false]] := by
  have hparse : parse "$a = - -1.50 $ADD(\\1, x\\ ) " = .ok
      [.assign "A" .set (.unary .neg (.unary .neg (.literal (.float (.ofDecimal false 15 (-1)))
        false))), .call "ADD" [.literal (.text "1") false, .literal (.text "x ") false]] := by
    decide +kernel
  refine ⟨hparse, ?_⟩
  have hread := parse_source hparse (by decide +kernel)
  rwa [show Script.source _ = "$A = - -1.5\n$ADD(\\1, x\\ )" from by decide +kernel] at hread

/-! ## Classes of tokens -/

/-- A script that was read and has no infinite floats is printed as tokens of the classes that it
was read from, whether or not its floats read back. -/
theorem lex_source {source : String} {script : Script} (h : parse source = .ok script)
    (hfin : ∀ w ∈ script.words, w.IsFinite) :
    ∃ ts us, Token.lex source.toList = .ok ts ∧ Token.lex script.source.toList = .ok us ∧
      us.map Token.kind = ts.map Token.kind := by
  have hspelled := fun w hw => spelled_of_parse h hw (hfin w hw)
  obtain ⟨ts, ps, hlex, _, hps, hes⟩ := parse_eq_ok_iff.1 h
  obtain ⟨hwords, hfits⟩ := Phrase.statements_spells hps hes
  obtain ⟨us, hus, hforms⟩ :=
    Token.lex_of_lexes (lexes_source script (Expr.allFit_iff.1 hfits) hspelled)
  refine ⟨ts, us, hlex, hus, ?_⟩
  have hprinted : us.map Token.kind = script.words.map Word.kind := by
    have hfst := congrArg (List.map Prod.fst) hforms
    rw [List.map_map, List.map_map] at hfst
    exact hfst.trans (List.map_congr_left fun w _ => w.form_fst)
  rw [hprinted, Token.kinds_of_words hwords.symm]

/-- A float that does not read back, an exponent, a number with zeros in front, a truth word, a step
and text that would read as a number. -/
theorem lex_source_of_exponent :
    ∃ ts us, Token.lex "$a = 1.0000000001 * -.5E1 + 007 / yes $b++ \\5".toList = .ok ts ∧
      Token.lex "$A = 1.0 * -5.0 + 7 / ON\n$B++\n\\5".toList = .ok us ∧
      us.map Token.kind = ts.map Token.kind := by
  have hparse : parse "$a = 1.0000000001 * -.5E1 + 007 / yes $b++ \\5" = .ok
      [.assign "A" .set (.binary .add
        (.binary .mul (.literal (.float (.ofDecimal false 10000000001 (-10))) false)
          (.unary .neg (.literal (.float (.ofDecimal false 5 0)) false)))
        (.binary .div (.literal (.int 7) false) (.literal (.bool true) false))),
        .step "B" .increment, .literal (.text "5") false] := by
    decide +kernel
  have hlex := lex_source hparse (by decide +kernel)
  rwa [show Script.source _ = "$A = 1.0 * -5.0 + 7 / ON\n$B++\n\\5" from by decide +kernel] at hlex

end Script

end FlagScript
