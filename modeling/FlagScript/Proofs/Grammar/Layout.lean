import FlagScript.Proofs.Grammar.Acceptance
import FlagScript.Proofs.Grammar.Agreement
import FlagScript.Proofs.Token.Stream

/-!
# Layout

What stands between tokens decides where tokens end and nothing else. Sources that fall into tokens
of the same classes and lexemes are read as the same script or refused for the same cause
(`Script.parse_layout`); the places that errors name differ, and so does what an error says about a
source that breaks the grammar.
-/

namespace FlagScript

/-- Tokens of one class and lexeme agree, wherever they stand. -/
theorem Token.agrees_of_form {t u : Token} (h : t.form = u.form) : t.Agrees u := by
  obtain ⟨kind, lexeme, p⟩ := t
  obtain ⟨_, _, q⟩ := u
  obtain ⟨rfl, rfl⟩ := Prod.mk.inj h
  exact ⟨rfl, fun _ => rfl, fun _ => rfl⟩

theorem Token.agree_of_forms : ∀ {ts us : List Token}, ts.map form = us.map form →
    List.Forall₂ Agrees ts us
  | [], [], _ => .nil
  | t :: ts, u :: us, h => by
    obtain ⟨hhead, htail⟩ := List.cons.inj h
    exact .cons (agrees_of_form hhead) (agree_of_forms htail)

/-! ## Errors of one kind -/

/-- The errors that reading a script gives are of one kind, with the same cause or limit. What is
said about a source that breaks the grammar is left open. -/
inductive Error.SameKind : Error → Error → Prop where
  | unexpected (p q : Position) (expected expected' : List Expectation) (line line' : List Char) :
      SameKind (.unexpected p expected line) (.unexpected q expected' line')
  | fault (p q : Position) (cause : Fault) : SameKind (.fault p cause) (.fault q cause)
  | tooDeep (p q : Position) (limit : Nat) : SameKind (.tooDeep p limit) (.tooDeep q limit)

/-- Answers of reading: the same script, or errors of one kind. -/
inductive Script.SameReading : Except Error Script → Except Error Script → Prop where
  | ok (script : Script) : SameReading (.ok script) (.ok script)
  | error {e e' : Error} (h : e.SameKind e') : SameReading (.error e) (.error e')

/-- What can be wrong with a source: it breaks the grammar, or there is a complaint about its
phrases. -/
inductive Script.Refusal : Error → Prop where
  | unexpected (p : Position) (expected : List Expectation) (line : List Char) :
      Refusal (.unexpected p expected line)
  | complaint {e : Error} (h : Complaint e) : Refusal e

theorem Script.refusal_of_ofTokens {source : List Char} {ts : List Token} {e : Error}
    (h : ofTokens source ts = .error e) : Refusal e := by
  unfold ofTokens at h
  split at h
  next =>
    cases h
    exact .complaint (.tooDeep _ _)
  next =>
    split at h
    next =>
      cases h
      exact .unexpected _ _ _
    next ps _ =>
      rw [ofPhrases_eq_meanings] at h
      exact .complaint (Phrase.meanings_complain 1 ps e h)

/-- Apart from their places the errors of reading differ only in what they say about a source that
breaks the grammar. -/
theorem Script.Refusal.sameKind {e e' : Error} (h : Refusal e) (h' : Refusal e')
    (hsame : e.placeless = e'.placeless) : e.SameKind e' := by
  obtain ⟨p, _, _⟩ | (⟨p, cause⟩ | ⟨p, limit⟩) := h <;>
    obtain ⟨q, _, _⟩ | (⟨q, cause'⟩ | ⟨q, limit'⟩) := h' <;> cases hsame
  · exact .unexpected _ _ _ _ _ _
  · exact .fault _ _ _
  · exact .tooDeep _ _ _

/-- Answers that are the same apart from places are of one kind if their errors are refusals. -/
theorem Script.SameReading.of_same {x y : Except Error Script} (h : SameAnswer x y)
    (hx : ∀ e, x = .error e → Refusal e) (hy : ∀ e, y = .error e → Refusal e) :
    SameReading x y := by
  unfold SameAnswer at h
  cases x with
  | ok script =>
    cases y with
    | ok script' =>
      cases h
      exact .ok script
    | error e => cases h
  | error e =>
    cases y with
    | ok script => cases h
    | error e' => exact .error ((hx e rfl).sameKind (hy e' rfl) (Except.error.inj h))

/-! ## Sources -/

theorem Script.parse_of_lex {source : String} {ts : List Token}
    (h : Token.lex source.toList = .ok ts) : parse source = ofTokens source.toList ts := by
  simp only [parse, h]

/-- Layout does not matter: sources that fall into tokens of the same classes and lexemes are read
as the same script, or refused for the same cause. -/
theorem Script.parse_layout {source source' : String} {ts us : List Token}
    (hts : Token.lex source.toList = .ok ts) (hus : Token.lex source'.toList = .ok us)
    (hforms : ts.map Token.form = us.map Token.form) :
    SameReading (parse source) (parse source') := by
  rw [parse_of_lex hts, parse_of_lex hus]
  apply SameReading.of_same
  · exact ofTokens_same (Token.agree_of_forms hforms) _ _
  · exact fun _ => refusal_of_ofTokens
  · exact fun _ => refusal_of_ofTokens

/-- The tokens of a source, known by their classes and lexemes alone. -/
theorem Token.exists_lex_of_forms {source : String} {fs : List (TokenClass × List Char)}
    (h : (lex source.toList).map (List.map form) = .ok fs) :
    ∃ ts, lex source.toList = .ok ts ∧ ts.map form = fs := by
  cases hts : lex source.toList with
  | error p =>
    rw [hts] at h
    cases h
  | ok ts =>
    rw [hts] at h
    exact ⟨ts, rfl, Except.ok.inj h⟩

/-- A step, a call and signs in two layouts, and an operator without its operand in two. -/
theorem Script.parse_layout_of_lines :
    SameReading (parse "$X++ $ADD(the lamp,- -1)") (parse " $X\n++\t$ADD (the lamp\n, -\n-1 )") ∧
      SameReading (parse "1+*2") (parse "1 +\n* 2") := by
  constructor
  · have hforms : (Token.lex "$X++ $ADD(the lamp,- -1)".toList).map (List.map Token.form) =
        .ok [(.identifier, "$X".toList), (.increment, "++".toList),
          (.identifier, "$ADD".toList), (.leftParen, "(".toList), (.text, "the lamp".toList),
          (.comma, ",".toList), (.minus, "-".toList), (.minus, "-".toList),
          (.number, "1".toList), (.rightParen, ")".toList)] := by decide +kernel
    obtain ⟨ts, hts, hfs⟩ := Token.exists_lex_of_forms hforms
    have hforms' : (Token.lex " $X\n++\t$ADD (the lamp\n, -\n-1 )".toList).map
        (List.map Token.form) = .ok (ts.map Token.form) := by
      rw [hfs]
      decide +kernel
    obtain ⟨us, hus, hfs'⟩ := Token.exists_lex_of_forms hforms'
    exact parse_layout hts hus hfs'.symm
  · have hforms : (Token.lex "1+*2".toList).map (List.map Token.form) =
        .ok [(.number, "1".toList), (.plus, "+".toList), (.star, "*".toList),
          (.number, "2".toList)] := by decide +kernel
    obtain ⟨ts, hts, hfs⟩ := Token.exists_lex_of_forms hforms
    have hforms' : (Token.lex "1 +\n* 2".toList).map (List.map Token.form) =
        .ok (ts.map Token.form) := by
      rw [hfs]
      decide +kernel
    obtain ⟨us, hus, hfs'⟩ := Token.exists_lex_of_forms hforms'
    exact parse_layout hts hus hfs'.symm

end FlagScript
