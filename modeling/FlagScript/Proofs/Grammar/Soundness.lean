import FlagScript.Proofs.Grammar.Spelling
import FlagScript.Proofs.Grammar.Written
import FlagScript.Script
import Mathlib.Control.Monad.Basic

/-!
# Soundness of the parser

Whatever a parser takes is spelled by the tokens it took: none is lost, repeated or moved, and the
phrase is of the level that was asked for. The parser takes what its phrases are written by, and a
phrase is spelled by the tokens that it is written by, production by production.
-/

namespace FlagScript

namespace Phrase

mutual

theorem Written.spells : ∀ {p : Phrase} {n : Nat} {ts : List Token}, Written n p ts → p.Spells n ts
  | .literal _, _, _, h => by
    obtain ⟨ht⟩ := h
    exact (spells_literal ht).weaken (Nat.zero_le _)
  | .flag _, _, _, h => by
    obtain _ | ⟨ht⟩ := h
    exact (spells_flag ht).weaken (Nat.zero_le _)
  | .step _ _, _, _, h => by
    obtain _ | _ | ⟨ht, hu, hop⟩ := h
    exact (spells_step ht hu hop).weaken (Nat.zero_le _)
  | .group _ _, _, _, h => by
    obtain _ | _ | _ | ⟨ht, hinner, hu⟩ := h
    exact (spells_group ht hinner.spells hu).weaken (Nat.zero_le _)
  | .call _ _ _, _, _, h => by
    obtain _ | _ | _ | _ | ⟨ht, hu, hargs, hv⟩ := h
    exact (spells_call ht hu hargs.spells hv).weaken (Nat.zero_le _)
  | .unary _ _ _, _, _, h => by
    obtain _ | _ | _ | _ | _ | ⟨ht, hoperand⟩ := h
    exact (spells_unary ht hoperand.spells).weaken (Nat.zero_le _)
  | .binary _ _ _ _, _, _, h => by
    obtain _ | _ | _ | _ | _ | _ | ⟨hm, hop, hleft, ht, hright⟩ := h
    exact (spells_binary hop hleft.spells ht hright.spells).weaken hm
  | .assign _ _ _ _, _, _, h => by
    obtain _ | _ | _ | _ | _ | _ | _ | ⟨hn, ht, hu, hop, hvalue⟩ := h
    exact (spells_assign ht hu hop hvalue.spells).weaken hn

theorem WrittenArguments.spells : ∀ {ps : List Phrase} {ts : List Token},
    WrittenArguments ps ts → SpellsAll ps ts
  | [], _, h => by
    cases h
    exact spellsAll_nil
  | [_], _, h => by
    cases h with
    | last hp => exact spellsAll_singleton hp.spells
  | _ :: _ :: _, _, h => by
    cases h with
    | cons hp ht hps => exact spellsAll_cons hp.spells ht hps.spells

end

/-- The words of statements are the words of their tokens, one statement behind the other. -/
theorem WrittenStatements.spells {ps : List Phrase} {ts : List Token} (h : WrittenStatements ps ts)
    {depth : Nat} {es : List Expr} (hes : meanings depth ps = .ok es) :
    (Script.words es).map some = ts.map Token.word? ∧ Expr.AllFit es := by
  induction h generalizing es with
  | nil =>
    rw [meanings] at hes
    cases hes
    exact ⟨rfl, trivial⟩
  | @cons p ps ts us hp _ ih =>
    obtain ⟨x, xs, hx, hxs, rfl⟩ := meanings_cons_eq_ok_iff.1 hes
    obtain ⟨hw, _, hf⟩ := hp.spells _ x hx
    obtain ⟨hws, hfs⟩ := ih hxs
    refine ⟨?_, hf, hfs⟩
    rw [Script.words, List.flatMap_cons, List.map_append, hw, List.map_append]
    exact congrArg (ts.map Token.word? ++ ·) hws

theorem statements_spells {ps : List Phrase} {ts : List Token} (h : statements ts = .ok ps)
    {depth : Nat} {es : List Expr} (hes : meanings depth ps = .ok es) :
    (Script.words es).map some = ts.map Token.word? ∧ Expr.AllFit es :=
  (statements_written h).spells hes

end Phrase

/-! ## Scripts -/

theorem Expr.allFit_iff {es : List Expr} : AllFit es ↔ ∀ e ∈ es, e.Fits := by
  induction es with
  | nil => simp [AllFit]
  | cons e es ih => simp [AllFit, ih]

namespace Script

theorem ofPhrases_eq_meanings (ps : List Phrase) : ofPhrases ps = Phrase.meanings 1 ps := by
  induction ps with
  | nil => rfl
  | cons p ps ih =>
    rw [Phrase.meanings, ← ih]
    exact List.mapM_cons

/-- A script is read in four steps, and each of them can fail. -/
theorem parse_eq_ok_iff {source : String} {script : Script} :
    parse source = .ok script ↔
      ∃ ts ps, Token.lex source.toList = .ok ts ∧ Nesting.tooDeep? ts = none ∧
        Phrase.statements ts = .ok ps ∧ Phrase.meanings 1 ps = .ok script := by
  simp only [parse, ofTokens, ofPhrases_eq_meanings]
  cases Token.lex source.toList with
  | error p => simp
  | ok ts =>
    cases hdeep : Nesting.tooDeep? ts with
    | some t => simp [hdeep]
    | none =>
      cases hps : Phrase.statements ts with
      | error s => simp [hdeep, hps]
      | ok ps => simp [hdeep, hps]

/-- Where a source that is refused is refused: it does not fall into tokens, it nests too deep, it
breaks the grammar, or its phrases have no meaning. -/
theorem parse_eq_error {source : String} {e : Error} (h : parse source = .error e) :
    (∃ p expected line, e = .unexpected p expected line) ∨
      ∃ ts, Token.lex source.toList = .ok ts ∧
        ((∃ t, Nesting.tooDeep? ts = some t ∧ e = .tooDeep t.position maxNesting) ∨
          ∃ ps, Phrase.statements ts = .ok ps ∧ Phrase.meanings 1 ps = .error e) := by
  rw [parse] at h
  cases hlex : Token.lex source.toList with
  | error p =>
    rw [hlex] at h
    cases h
    exact .inl ⟨_, _, _, rfl⟩
  | ok ts =>
    simp only [hlex, ofTokens] at h
    split at h
    next t ht =>
      cases h
      exact .inr ⟨ts, rfl, .inl ⟨t, ht, rfl⟩⟩
    next =>
      split at h
      next =>
        cases h
        exact .inl ⟨_, _, _, rfl⟩
      next ps hps =>
        rw [ofPhrases_eq_meanings] at h
        exact .inr ⟨ts, rfl, .inr ⟨ps, hps, h⟩⟩

/-- Reading loses no token, repeats none and moves none, and puts operands only where they bind
tightly enough. -/
theorem parse_sound {source : String} {script : Script} (h : parse source = .ok script) :
    ∃ ts, Token.lex source.toList = .ok ts ∧ ts.map Token.word? = script.words.map some ∧
      ∀ e ∈ script, e.Fits := by
  obtain ⟨ts, ps, hlex, _, hps, hes⟩ := parse_eq_ok_iff.1 h
  obtain ⟨hw, hf⟩ := Phrase.statements_spells hps hes
  exact ⟨ts, hlex, hw.symm, Expr.allFit_iff.1 hf⟩

/-- Signs on both sides of a minus, a product below a difference, a call and a second statement. -/
theorem parse_sound_two_statements :
    ∃ script, parse "$a = -1 - 2 * $ADD(3, x y) $b++" = .ok script ∧
      ∃ ts, Token.lex "$a = -1 - 2 * $ADD(3, x y) $b++".toList = .ok ts ∧
        ts.map Token.word? = script.words.map some ∧ ∀ e ∈ script, e.Fits := by
  have hparse : parse "$a = -1 - 2 * $ADD(3, x y) $b++" = .ok
      [.assign "A" .set (.binary .sub (.unary .neg (.literal (.int 1) false))
        (.binary .mul (.literal (.int 2) false)
          (.call "ADD" [.literal (.int 3) false, .literal (.text "x y") false]))),
        .step "B" .increment] := by decide +kernel
  exact ⟨_, hparse, parse_sound hparse⟩

end Script

end FlagScript
