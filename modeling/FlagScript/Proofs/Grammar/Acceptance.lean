import FlagScript.Proofs.Grammar.Completeness
import FlagScript.Proofs.Grammar.Refusal

/-!
# Which sources are refused

A source is refused for its form exactly if its tokens are not derived: the parser goes from
statement to statement through any sentence (`furtherStatements_ok`), and what comes after it, the
meaning of the phrases, has complaints of its own (`Complaint`).
-/

namespace FlagScript

namespace Phrase

/-! ## Statements -/

theorem furtherStatements_ok {bound : Nat} {done : List Phrase} {ts : List Token}
    (hb : ts.length < bound) (h : Sentence (ts.map Token.kind)) (hne : done ≠ [] ∨ ts ≠ []) :
    ∃ ps, furtherStatements bound done ts = .ok ps := by
  induction bound generalizing done ts with
  | zero => omega
  | succ bound ih =>
    unfold furtherStatements
    cases ts with
    | nil =>
      have hdone : done.isEmpty = false := by simpa using hne
      simp [hdone]
    | cons t ts =>
      have hfront := h.front (by simp)
      have hstarts : t.kind.startsExpression = true := by
        rcases h with h | h
        · cases h
        · exact h.startsExpression (by simp)
      have hbound : 10 * (t :: ts).length + 8 ≤ depthBound bound := by
        unfold depthBound
        omega
      -- every sentence begins with an expression, and what is behind it is a sentence
      obtain ⟨p, rest, hp, hrest⟩ :=
        (productionsComplete (depthBound bound)).expression follows_sentence hbound hfront
      have hlen := length_of_expression hp
      simp only [List.isEmpty_cons, Bool.false_and, startsExpression, hstarts, hp,
        Bool.false_eq_true, if_false, if_true]
      exact ih (by omega) hrest (.inl (by simp))

theorem furtherStatements_ne_nil {bound : Nat} {done ps : List Phrase} {ts : List Token}
    (h : furtherStatements bound done ts = .ok ps) : ps ≠ [] := by
  induction bound generalizing done ts with
  | zero => cases h
  | succ bound ih =>
    unfold furtherStatements at h
    split at h
    next hend =>
      cases h
      simpa using fun hdone : done = [] => by simp [hdone] at hend
    next =>
      split at h
      next =>
        split at h
        next => cases h
        next => exact ih h
      next => split at h <;> cases h

/-- The parser gets through exactly the scripts of the grammar. -/
theorem statements_ok_iff {ts : List Token} :
    (∃ ps, statements ts = .ok ps) ↔ Derives .script (ts.map Token.kind) := by
  constructor
  · rintro ⟨ps, hps⟩
    have hwritten := statements_written hps
    exact hwritten.derives (furtherStatements_ne_nil hps)
  · intro h
    have hne : ts ≠ [] := by
      rintro rfl
      exact h.ne_nil rfl
    exact furtherStatements_ok (Nat.lt_succ_self _) (.inr h) (.inr hne)

end Phrase

/-! ## What is wrong with phrases -/

/-- What can be wrong with a source that follows the grammar. -/
inductive Complaint : Error → Prop where
  | fault (p : Position) (cause : Fault) : Complaint (.fault p cause)
  | tooDeep (p : Position) (limit : Nat) : Complaint (.tooDeep p limit)

namespace Phrase

theorem Refuses.complaint {q : Phrase} {e : Error} (h : q.Refuses e) : Complaint e := by
  cases h
  case literal | call => exact .fault _ _
  all_goals exact .tooDeep _ _

theorem meanings_complain (depth : Nat) (ps : List Phrase) (e : Error)
    (h : meanings depth ps = .error e) : Complaint e := by
  obtain ⟨_, -, hrefuses⟩ := meanings_error ps h
  exact hrefuses.complaint

end Phrase

/-! ## Scripts -/

namespace Script

/-- The source falls into tokens, and the grammar derives them. -/
def Derivable (source : String) : Prop :=
  ∃ ts, Token.lex source.toList = .ok ts ∧ Derives .script (ts.map Token.kind)

/-- A source that follows the grammar is read, or refused for a fault in it or for its depth. One
that does not is refused for its form, unless it nests too deep to be parsed at all. -/
theorem parse_derivable (source : String) :
    (Derivable source → (∃ script, parse source = .ok script) ∨
      (∃ p cause, parse source = .error (.fault p cause)) ∨
      ∃ p limit, parse source = .error (.tooDeep p limit)) ∧
    (¬ Derivable source → (∃ p expected line, parse source = .error (.unexpected p expected line)) ∨
      ∃ p limit, parse source = .error (.tooDeep p limit)) := by
  unfold Derivable
  cases hlex : Token.lex source.toList with
  | error p =>
    have hparse : parse source = .error (.noToken source.toList p) := by simp only [parse, hlex]
    refine ⟨?_, fun _ => .inl ⟨_, _, _, hparse⟩⟩
    rintro ⟨ts, hts, _⟩
    cases hts
  | ok ts =>
    have htokens : parse source = ofTokens source.toList ts := by simp only [parse, hlex]
    simp only [htokens, Except.ok.injEq, exists_eq_left']
    unfold ofTokens
    -- the nesting is counted before the grammar is asked, so it can refuse both kinds of text
    cases Nesting.tooDeep? ts with
    | some t => exact ⟨fun _ => .inr (.inr ⟨_, _, rfl⟩), fun _ => .inr ⟨_, _, rfl⟩⟩
    | none =>
      rw [← Phrase.statements_ok_iff]
      cases Phrase.statements ts with
      | error s =>
        refine ⟨?_, fun _ => .inl ⟨_, _, _, rfl⟩⟩
        rintro ⟨ps, hps⟩
        cases hps
      | ok ps =>
        refine ⟨fun _ => ?_, fun h => absurd ⟨ps, rfl⟩ h⟩
        simp only [ofPhrases_eq_meanings]
        cases hes : Phrase.meanings 1 ps with
        | ok script => exact .inl ⟨script, rfl⟩
        | error e =>
          cases Phrase.meanings_complain 1 ps e hes with
          | fault p cause => exact .inr (.inl ⟨p, cause, rfl⟩)
          | tooDeep p limit => exact .inr (.inr ⟨p, limit, rfl⟩)

/-- Three statements, of which the parser makes a difference with a call in it; and an operator
without its operand. -/
theorem parse_derivable_of_both_kinds :
    (Derivable "$X ($Y) -3" ∧
      ((∃ script, parse "$X ($Y) -3" = .ok script) ∨
        (∃ p cause, parse "$X ($Y) -3" = .error (.fault p cause)) ∨
        ∃ p limit, parse "$X ($Y) -3" = .error (.tooDeep p limit))) ∧
    (¬ Derivable "1 + * 2" ∧
      ((∃ p expected line, parse "1 + * 2" = .error (.unexpected p expected line)) ∨
        ∃ p limit, parse "1 + * 2" = .error (.tooDeep p limit))) := by
  have hlex : (Token.lex "$X ($Y) -3".toList).map (List.map Token.kind) =
      .ok [.identifier, .leftParen, .identifier, .rightParen, .minus, .number] := by
    decide +kernel
  have hderivable : Derivable "$X ($Y) -3" := by
    cases hts : Token.lex "$X ($Y) -3".toList with
    | error p =>
      rw [hts] at hlex
      cases hlex
    | ok ts =>
      rw [hts] at hlex
      refine ⟨ts, hts, ?_⟩
      rw [Except.ok.inj hlex]
      have hname : Derives .expr [.identifier] := (Derives.next rfl .flag).ofTerm 6
      have hgroup : Derives .expr [.leftParen, .identifier, .rightParen] :=
        (Derives.group hname).ofTerm 6
      have hnumber : Derives .negation [.number] := (Derives.next rfl (.literal (by simp))).ofTerm 0
      have hminus : Derives (.ofLevel 0) [.minus, .number] := .unary (by simp) hnumber
      have hsigned : Derives (.ofLevel 6) [.minus, .number] := hminus.weaken (by omega)
      exact .statements hname (.statements hgroup (.statement hsigned))
  have hunexpected : parse "1 + * 2" =
      .error (.unexpected ⟨1, 5⟩ [.expression] "1 + * 2".toList) := by decide +kernel
  have hnot : ¬ Derivable "1 + * 2" := by
    intro h
    rcases (parse_derivable _).1 h with ⟨_, hs⟩ | ⟨_, _, he⟩ | ⟨_, _, he⟩
    · rw [hunexpected] at hs; cases hs
    · rw [hunexpected] at he; cases he
    · rw [hunexpected] at he; cases he
  exact ⟨⟨hderivable, (parse_derivable _).1 hderivable⟩, hnot, (parse_derivable _).2 hnot⟩

end Script

end FlagScript
