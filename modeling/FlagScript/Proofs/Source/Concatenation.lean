import FlagScript.Proofs.Grammar.Joined
import FlagScript.Proofs.Grammar.Layout
import FlagScript.Proofs.Nesting.Limit
import FlagScript.Proofs.Run.Names
import FlagScript.Proofs.Token.Line

/-!
# Scripts one behind the other

A script may follow another one on a line of its own if its first token does not go on with what
stands in front of it. Tokens do not run over the line break, the parser takes the statements of
both (`Phrase.statements_append`), what is counted for nesting is no more behind a statement than at
the start, and running the statements of both is running one script and then the other
(`Script.parse_join`).
-/

namespace FlagScript

/-! ## Nesting -/

namespace Phrase

variable {limit : Nat}

mutual

/-- Less is counted where no sign is expected, behind fewer signs and less deep. -/
theorem counted_le_of_counted_le : ∀ (p : Phrase) {comes : Bool} {run run' base base' : Nat},
    run ≤ run' → base ≤ base' → (∀ d ∈ p.counted true run' base', d ≤ limit) →
      ∀ d ∈ p.counted comes run base, d ≤ limit
  | .literal _, _, run, run', base, base', hrun, hbase, h => by
    simp only [counted, List.forall_mem_singleton] at h ⊢
    omega
  | .flag _, _, run, run', base, base', hrun, hbase, h => by
    simp only [counted, List.forall_mem_singleton] at h ⊢
    omega
  | .step _ _, _, run, run', base, base', hrun, hbase, h => by
    simp only [counted, List.forall_mem_cons] at h ⊢
    exact ⟨by omega, by omega, by simp⟩
  | .assign _ _ _ value, _, run, run', base, base', hrun, hbase, h => by
    simp only [counted, List.forall_mem_cons] at h ⊢
    obtain ⟨_, _, hvalue⟩ := h
    exact ⟨by omega, by omega, counted_le_of_counted_le value (Nat.le_refl 0) hbase hvalue⟩
  | .call _ _ args, _, run, run', base, base', hrun, hbase, h => by
    simp only [counted, List.forall_mem_cons, List.forall_mem_append] at h ⊢
    obtain ⟨_, _, hargs, _⟩ := h
    have hcounted : ∀ d ∈ countedArguments (base + 1) args, d ≤ limit :=
      countedArguments_le_of_counted_le args (by omega) hargs
    exact ⟨by omega, by omega, hcounted, by omega, by simp⟩
  | .group _ inner, _, run, run', base, base', hrun, hbase, h => by
    simp only [counted, List.forall_mem_cons, List.forall_mem_append] at h ⊢
    obtain ⟨_, hinner, _⟩ := h
    have hcounted : ∀ d ∈ inner.counted true 0 (base + run + 1), d ≤ limit :=
      counted_le_of_counted_le inner (Nat.le_refl 0) (by omega) hinner
    exact ⟨by omega, hcounted, by omega, by simp⟩
  | .binary _ _ left right, _, run, run', base, base', hrun, hbase, h => by
    simp only [counted, List.forall_mem_cons, List.forall_mem_append] at h ⊢
    obtain ⟨hleft, _, hright⟩ := h
    exact ⟨counted_le_of_counted_le left hrun hbase hleft, by omega,
      counted_le_of_counted_le right (Nat.le_refl 0) hbase hright⟩
  | .unary _ _ operand, comes, run, run', base, base', hrun, hbase, h => by
    simp only [counted, if_true, List.forall_mem_cons] at h ⊢
    obtain ⟨_, hoperand⟩ := h
    -- a sign that is not expected is not counted
    cases comes with
    | true =>
      rw [if_pos rfl, List.forall_mem_cons]
      exact ⟨by omega, counted_le_of_counted_le operand (by omega) hbase hoperand⟩
    | false =>
      rw [if_neg (by decide), List.forall_mem_cons]
      exact ⟨by omega, counted_le_of_counted_le operand (Nat.zero_le _) hbase hoperand⟩

theorem countedArguments_le_of_counted_le : ∀ (ps : List Phrase) {base base' : Nat}, base ≤ base' →
    (∀ d ∈ countedArguments base' ps, d ≤ limit) → ∀ d ∈ countedArguments base ps, d ≤ limit
  | [], _, _, _, _ => by simp [countedArguments]
  | [p], base, base', hbase, h => counted_le_of_counted_le p (Nat.le_refl 0) hbase h
  | p :: q :: ps, base, base', hbase, h => by
    simp only [countedArguments, List.forall_mem_cons, List.forall_mem_append] at h ⊢
    obtain ⟨hp, _, hps⟩ := h
    exact ⟨counted_le_of_counted_le p (Nat.le_refl 0) hbase hp, by omega,
      countedArguments_le_of_counted_le (q :: ps) hbase hps⟩

end

theorem countedStatements_append_le {ps qs : List Phrase} {comes : Bool}
    (hps : ∀ d ∈ countedStatements comes ps, d ≤ limit)
    (hqs : ∀ d ∈ countedStatements true qs, d ≤ limit) :
    ∀ d ∈ countedStatements comes (ps ++ qs), d ≤ limit := by
  induction ps generalizing comes with
  | nil =>
    cases qs with
    | nil => simp [countedStatements]
    | cons q qs =>
      rw [countedStatements, List.forall_mem_append] at hqs
      rw [List.nil_append, countedStatements, List.forall_mem_append]
      exact ⟨counted_le_of_counted_le q (Nat.le_refl 0) (Nat.le_refl 0) hqs.1, hqs.2⟩
  | cons p ps ih =>
    rw [countedStatements, List.forall_mem_append] at hps
    rw [List.cons_append, countedStatements, List.forall_mem_append]
    exact ⟨hps.1, ih hps.2⟩

end Phrase

/-- Tokens that are not too deep are not with others behind them. -/
theorem Nesting.tooDeep?_append {ts us : List Token} {ps qs : List Phrase}
    (hts : Phrase.statements ts = .ok ps) (hus : Phrase.statements us = .ok qs)
    (h : Phrase.statements (ts ++ us) = .ok (ps ++ qs)) (hdeep : tooDeep? ts = none)
    (hdeep' : tooDeep? us = none) : tooDeep? (ts ++ us) = none := by
  obtain ⟨hcounted, hlinks⟩ := (tooDeep?_eq_none_iff (Phrase.statements_written hts)).1 hdeep
  obtain ⟨hcounted', hlinks'⟩ := (tooDeep?_eq_none_iff (Phrase.statements_written hus)).1 hdeep'
  refine (tooDeep?_eq_none_iff (Phrase.statements_written h)).2 ⟨?_, ?_⟩
  · exact Phrase.countedStatements_append_le hcounted hcounted'
  · rw [List.flatMap_append]
    exact List.forall_mem_append.2 ⟨hlinks, hlinks'⟩

/-! ## Meaning -/

theorem Phrase.meanings_append {depth : Nat} {ps qs : List Phrase} {es fs : List Expr}
    (hps : meanings depth ps = .ok es) (hqs : meanings depth qs = .ok fs) :
    meanings depth (ps ++ qs) = .ok (es ++ fs) := by
  induction ps generalizing es with
  | nil =>
    rw [meanings] at hps
    cases hps
    exact hqs
  | cons p ps ih =>
    obtain ⟨x, xs, hx, hxs, rfl⟩ := meanings_cons_eq_ok_iff.1 hps
    exact meanings_cons_eq_ok_iff.2 ⟨x, xs ++ fs, hx, ih hxs, rfl⟩

/-! ## Running -/

namespace Interpreter

variable {W : Type} [World W]

theorem execFrom_append (v : Value) (s : Interpreter W) (es fs : Script) :
    s.execFrom v (es ++ fs) = (s.execFrom v es).2.execFrom (s.execFrom v es).1 fs := by
  induction es generalizing v s with
  | nil => rfl
  | cons e es ih => exact ih _ _

/-- Running statements is running the first ones and then the others, if there are any. -/
theorem exec_append (s : Interpreter W) (es : Script) {fs : Script} (hne : fs ≠ []) :
    s.exec (es ++ fs) = (s.exec es).2.exec fs := by
  unfold exec
  rw [execFrom_append]
  cases fs with
  | nil => exact absurd rfl hne
  | cons f fs => rfl

end Interpreter

/-! ## Scripts -/

namespace Script

/-- The first of the second tokens begins a statement of its own behind the first tokens: it is no
sign but `!`, and a parenthesis only where no name stands in front of it. -/
def BeginsApart (ts us : List Token) : Prop :=
  ∀ u ∈ us.head?, u.kind ∈ [.identifier, .number, .boolean, .quotedText, .text, .not] ∨
    u.kind = .leftParen ∧ ∀ t ∈ ts.getLast?, t.kind ≠ .identifier

theorem BeginsApart.parted {ts us : List Token} (h : BeginsApart ts us) : Phrase.Parted ts us := by
  have hkind : ∀ u ∈ us.head?, u.kind.binaryOp? = none ∧ u.kind.stepOp? = none ∧
      u.kind.assignOp? = none := by
    intro u hu
    rcases h u hu with hmem | ⟨hparen, _⟩
    · simp only [List.mem_cons, List.not_mem_nil, or_false] at hmem
      rcases hmem with hk | hk | hk | hk | hk | hk <;> rw [hk] <;> exact ⟨rfl, rfl, rfl⟩
    · rw [hparen]
      exact ⟨rfl, rfl, rfl⟩
  refine ⟨fun u hu => (hkind u hu).1, fun u hu => (hkind u hu).2.1, fun u hu => (hkind u hu).2.2,
    fun t ht hid u hu hparen => ?_⟩
  rcases h u hu with hmem | ⟨_, hlast⟩
  · rw [hparen] at hmem
    exact absurd hmem (by decide)
  · exact hlast t ht hid

theorem ne_nil_of_parse {source : String} {script : Script} (h : parse source = .ok script) :
    script ≠ [] := by
  obtain ⟨ts, ps, _, _, hps, hes⟩ := parse_eq_ok_iff.1 h
  rintro rfl
  cases ps with
  | nil => exact Phrase.furtherStatements_ne_nil hps rfl
  | cons p ps =>
    obtain ⟨_, _, _, _, heq⟩ := Phrase.meanings_cons_eq_ok_iff.1 hes
    cases heq

theorem parse_line {source source' : String} {script script' : Script} {ts us : List Token}
    (h : parse source = .ok script) (h' : parse source' = .ok script')
    (hts : Token.lex source.toList = .ok ts) (hus : Token.lex source'.toList = .ok us)
    (hapart : BeginsApart ts us) :
    parse (source ++ "\n" ++ source') = .ok (script ++ script') := by
  obtain ⟨_, ps, hlex, hdeep, hps, hes⟩ := parse_eq_ok_iff.1 h
  obtain ⟨_, qs, hlex', hdeep', hqs, hes'⟩ := parse_eq_ok_iff.1 h'
  obtain rfl := Except.ok.inj (hts.symm.trans hlex)
  obtain rfl := Except.ok.inj (hus.symm.trans hlex')
  have hstatements := Phrase.statements_append hps hqs hapart.parted
  have hnesting := Nesting.tooDeep?_append hps hqs hstatements hdeep hdeep'
  -- the tokens of both, which agree with those of the joined source
  have hboth : ofTokens source.toList (ts ++ us) = .ok (script ++ script') := by
    simp only [ofTokens, hnesting, hstatements, ofPhrases_eq_meanings]
    exact Phrase.meanings_append hes hes'
  have hlexes := (Token.lexes_of_lex hts).line (Token.lexes_of_lex hus)
  obtain ⟨vs, hvs, hforms⟩ := Token.lex_of_lexes hlexes
  rw [← List.map_append] at hforms
  have hsource : (source ++ "\n" ++ source').toList =
      source.toList ++ '\n' :: source'.toList := by simp
  rw [parse_of_lex (hsource ▸ hvs)]
  exact (ofTokens_same (Token.agree_of_forms hforms.symm) _ _).eq_ok hboth

/-- Scripts that can be read can be read one behind the other, on lines of their own, if the first
token of the second one begins a statement of its own there. The statements are those of the first
and then those of the second script, and running them from any state is running the one script and
then the other. -/
theorem parse_join {source source' : String} {script script' : Script} {ts us : List Token}
    (h : parse source = .ok script) (h' : parse source' = .ok script')
    (hts : Token.lex source.toList = .ok ts) (hus : Token.lex source'.toList = .ok us)
    (hapart : BeginsApart ts us) :
    parse (source ++ "\n" ++ source') = .ok (script ++ script') ∧
      ∀ (W : Type) [World W] (s : Interpreter W), ∃ first last,
        s.eval source = .ok first ∧ first.2.eval source' = .ok last ∧
          s.eval (source ++ "\n" ++ source') = .ok last := by
  have hjoined := parse_line h h' hts hus hapart
  refine ⟨hjoined, fun W _ s => ⟨s.exec script, (s.exec script).2.exec script', ?_, ?_, ?_⟩⟩
  · exact Interpreter.eval_eq_ok_iff.2 ⟨script, h, rfl⟩
  · exact Interpreter.eval_eq_ok_iff.2 ⟨script', h', rfl⟩
  · exact Interpreter.eval_eq_ok_iff.2 ⟨_, hjoined, s.exec_append script (ne_nil_of_parse h')⟩

/-- A chain of assignments whose last value is text, with a group behind it. A name at its end would
take the group for its argument. -/
theorem parse_join_of_group :
    (∃ script script', parse "$a = $b = the lamp" = .ok script ∧ parse "($a)" = .ok script' ∧
      parse ("$a = $b = the lamp" ++ "\n" ++ "($a)") = .ok (script ++ script')) ∧
      ¬ ∃ script, parse ("$a = $b" ++ "\n" ++ "($a)") = .ok script := by
  constructor
  · have h : parse "$a = $b = the lamp" =
        .ok [.assign "A" .set (.assign "B" .set (.literal (.text "the lamp") false))] := by
      decide +kernel
    have h' : parse "($a)" = .ok [.group (.flag "A")] := by decide +kernel
    have hts : Token.lex "$a = $b = the lamp".toList =
        .ok [⟨.identifier, "$a".toList, ⟨1, 1⟩⟩, ⟨.set, "=".toList, ⟨1, 4⟩⟩,
          ⟨.identifier, "$b".toList, ⟨1, 6⟩⟩, ⟨.set, "=".toList, ⟨1, 9⟩⟩,
          ⟨.text, "the lamp".toList, ⟨1, 11⟩⟩] := by decide +kernel
    have hus : Token.lex "($a)".toList =
        .ok [⟨.leftParen, "(".toList, ⟨1, 1⟩⟩, ⟨.identifier, "$a".toList, ⟨1, 2⟩⟩,
          ⟨.rightParen, ")".toList, ⟨1, 4⟩⟩] := by decide +kernel
    refine ⟨_, _, h, h', (parse_join h h' hts hus ?_).1⟩
    rintro u ⟨⟩
    -- a group follows, and the last token is not a name it would be the arguments of
    refine .inr ⟨rfl, ?_⟩
    rintro t ⟨⟩
    decide
  · have herror : parse ("$a = $b" ++ "\n" ++ "($a)") =
        .error (.fault ⟨1, 6⟩ (.unknownFunction "B")) := by decide +kernel
    rw [herror]
    rintro ⟨_, ⟨⟩⟩

end Script

end FlagScript
