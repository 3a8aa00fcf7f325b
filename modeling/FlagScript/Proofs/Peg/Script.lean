import FlagScript.Proofs.Grammar.Fault
import FlagScript.Proofs.Peg.Parser

/-!
# Sources and the grammar

A source is read just where the grammar takes all of it, and it is read as what is built from the
trees of its statements (`Script.parse_eq_ok_iff_runs`). The grammar takes a source just where the
lexer finds tokens everywhere in it and the parser finds statements among them (`runs_script_iff`).
-/

namespace FlagScript

open Failure (lift)
open Outcome
open ParseTree (leaf Statements buildScript)

variable {b : Bool}

namespace Phrase

/-- Statements among tokens: the form for further ones takes all tokens, and the script is built
from its trees, or it leaves some of them. -/
def AgreesStatements (b : Bool) (done : List Phrase) (ts : List Token) :
    Except Stuck (List Phrase) → Prop
  | .ok ps => ∃ new trees, ps = done.reverse ++ new ∧
      Runs (tokenInput b) (.further (.node .expr)) ts (took trees []) ∧ Statements trees ts ∧
      buildScript trees = lift (Script.ofPhrases new)
  | .error _ => ∃ trees rest,
      Runs (tokenInput b) (.further (.node .expr)) ts (took trees rest) ∧ rest ≠ []

theorem furtherStatements_runs {bound : Nat} {done : List Phrase} {ts : List Token}
    (hb : ts.length < bound) (h : done ≠ [] ∨ ts ≠ []) :
    AgreesStatements b done ts (furtherStatements bound done ts) := by
  induction bound generalizing done ts with
  | zero => omega
  | succ bound ih =>
    unfold furtherStatements
    cases hend : ts.isEmpty && !done.isEmpty with
    | true =>
      obtain rfl : ts = [] := by
        simp only [Bool.and_eq_true, List.isEmpty_iff] at hend
        exact hend.1
      have hnone : Runs (tokenInput b) (.node .expr) [] failed := runs_expr_failed_of_start rfl
      exact ⟨[], [], by simp, .furtherNone hnone, ParseTree.statements_nil, rfl⟩
    | false =>
      have hts : ts ≠ [] := by
        rintro rfl
        simp at hend h
        exact h hend
      cases hstart : startsExpression ts with
      | false =>
        have hnone : Runs (tokenInput b) (.further (.node .expr)) ts (took [] ts) :=
          .furtherNone (runs_expr_failed_of_start hstart)
        cases done <;> exact ⟨[], ts, hnone, hts⟩
      | true =>
        have hexpr := (productionsRun b (depthBound bound)).expression ts
          (by rw [depthBound]; omega)
        simp only [Bool.false_eq_true, if_false, if_true]
        cases hfirst : expression (depthBound bound) ts with
        | error e =>
          rw [hfirst] at hexpr
          rcases hexpr with hfailed | ⟨c, rest, hc, hdead⟩
          · exact ⟨[], ts, .furtherNone hfailed, hts⟩
          · exact ⟨_, rest, .further hc (.furtherNone hdead.expr), hdead.ne_nil⟩
        | ok found =>
          obtain ⟨p, rest⟩ := found
          have hlen := length_of_expression hfirst
          rw [hfirst] at hexpr
          obtain ⟨used, c, rfl, hc, hbuilds⟩ := hexpr
          have hrest : AgreesStatements b (p :: done) rest
              (furtherStatements bound (p :: done) rest) :=
            ih (by omega) (.inl (List.cons_ne_nil p done))
          simp only
          cases hmore : furtherStatements bound (p :: done) rest with
          | error e =>
            rw [hmore] at hrest
            obtain ⟨trees, us, hrun, hus⟩ := hrest
            exact ⟨c :: trees, us, .further hc hrun, hus⟩
          | ok ps =>
            rw [hmore] at hrest
            obtain ⟨new, trees, rfl, hrun, htrees, hscript⟩ := hrest
            exact ⟨p :: new, c :: trees, by simp, .further hc hrun, htrees.cons hbuilds,
              hbuilds.script hscript⟩

end Phrase

/-- The first of several has no layout in front. -/
theorem Runs.plus_of_further {a : Form} {ts us : List Token} {trees : List ParseTree}
    (h : Runs (tokenInput b) (.further a) ts (took trees us)) :
    Runs (tokenInput b) (.plus a) ts (took trees us) ∨
      us = ts ∧ Runs (tokenInput b) (.plus a) ts failed := by
  cases h with
  | further h hmore => exact .inl (.seq h hmore.star_of_further)
  | furtherNone h => exact .inr ⟨rfl, .seqNotFirst h⟩

/-- The form for sources takes the statements that the parser finds, if the tokens are complete, and
does not fit otherwise. -/
theorem runs_script (ts : List Token) :
    (∀ ps, Phrase.statements ts = .ok ps → ∃ trees,
        Runs (tokenInput true) Form.script ts (took trees []) ∧ Statements trees ts ∧
          buildScript trees = lift (Script.ofPhrases ps)) ∧
      ((b = true → ∀ ps, Phrase.statements ts ≠ .ok ps) →
        Runs (tokenInput b) Form.script ts failed) := by
  by_cases hts : ts = []
  · subst hts
    have hnone : Runs (tokenInput b) (.plus (.node .expr)) [] failed :=
      .seqNotFirst (runs_expr_failed_of_start rfl)
    exact ⟨nofun, fun _ => .seqNotSecond (.empty []) (.seqNotFirst hnone)⟩
  have hrest : ∀ b, Phrase.AgreesStatements b [] ts (Phrase.statements ts) := fun b =>
    Phrase.furtherStatements_runs (Nat.lt_succ_self _) (.inr hts)
  -- tokens that are left, or an end that is missing, are in the way of the end
  have hstop : ∀ {trees us}, Runs (tokenInput b) (.further (.node .expr)) ts (took trees us) →
      ¬ (tokenInput b).AtEnd us → Runs (tokenInput b) Form.script ts failed := by
    intro trees us hrun hus
    refine .seqNotSecond (.empty ts) ?_
    rcases hrun.plus_of_further with hplus | ⟨-, hfailed⟩
    · exact .seqNotSecond hplus (.noFinish hus)
    · exact .seqNotFirst hfailed
  constructor
  · intro ps hps
    have hall := hrest true
    rw [hps] at hall
    obtain ⟨new, trees, rfl, hrun, htrees, hscript⟩ := hall
    rcases hrun.plus_of_further with hplus | ⟨hnil, -⟩
    · have hend : Runs (tokenInput true) .finish [] (took [] []) := .finish ⟨rfl, rfl⟩
      have hrun : Runs (tokenInput true) Form.script ts (took ([] ++ (trees ++ [])) []) :=
        .seq (.empty ts) (.seq hplus hend)
      rw [List.nil_append, List.append_nil] at hrun
      exact ⟨trees, hrun, htrees, hscript⟩
    · exact absurd hnil.symm hts
  · intro h
    have hall := hrest b
    cases hps : Phrase.statements ts with
    | error e =>
      rw [hps] at hall
      obtain ⟨trees, us, hrun, hus⟩ := hall
      exact hstop hrun fun hend => hus hend.1
    | ok ps =>
      rw [hps] at hall
      obtain ⟨new, trees, -, hrun, -, -⟩ := hall
      exact hstop hrun fun hend => h hend.2 ps hps

/-! ## Sources -/

/-- The grammar takes a source that has tokens and statements, and its trees are those of the
statements. -/
theorem exists_runs_script {source : List Char} {ts : List Token} {ps : List Phrase}
    (hlex : Token.lex source = .ok ts) (hps : Phrase.statements ts = .ok ps) :
    ∃ trees c, Runs charInput Form.script ⟨.start, source⟩ (took trees c) ∧ Statements trees ts ∧
      buildScript trees = lift (Script.ofPhrases ps) := by
  obtain ⟨trees, hrun, htrees, hscript⟩ := (runs_script (b := true) ts).1 ps hps
  obtain ⟨c, hrun, -⟩ := hrun.transfer_start (hasTokens_of_lex hlex)
  exact ⟨trees, c, hrun, htrees, hscript⟩

/-- The grammar takes no other source. -/
theorem runs_script_failed {source : List Char}
    (h : ∀ ts ps, Token.lex source = .ok ts → Phrase.statements ts ≠ .ok ps) :
    Runs charInput Form.script ⟨.start, source⟩ failed := by
  cases hlex : Token.lex source with
  | error p =>
    obtain ⟨ts, hts⟩ := exists_hasTokens_of_lex_error hlex
    have hfailed := (runs_script (b := false) ts).2 nofun
    exact hfailed.transfer_start hts
  | ok ts =>
    have hfailed := (runs_script (b := true) ts).2 fun _ ps => h ts ps hlex
    exact hfailed.transfer_start (hasTokens_of_lex hlex)

/-- The grammar takes a source just where there are tokens everywhere in it and statements among
them. -/
theorem runs_script_iff (source : List Char) :
    (∃ trees c, Runs charInput Form.script ⟨.start, source⟩ (took trees c)) ↔
      ∃ ts ps, Token.lex source = .ok ts ∧ Phrase.statements ts = .ok ps := by
  constructor
  · rintro ⟨trees, c, hrun⟩
    by_contra hnone
    have hfailed := runs_script_failed fun ts ps hlex hps => hnone ⟨ts, ps, hlex, hps⟩
    cases hfailed.unique hrun
  · rintro ⟨ts, ps, hlex, hps⟩
    obtain ⟨trees, c, hrun, -, -⟩ := exists_runs_script hlex hps
    exact ⟨trees, c, hrun⟩

/-- A source is read if the grammar takes all of it, token by token and statement by statement, and
its tokens do not nest too deep; and it is read as what is built from the trees. -/
theorem Script.parse_eq_ok_iff_runs {source : String} {script : Script} :
    parse source = .ok script ↔ ∃ ts trees c c',
      Runs charInput Form.tokens ⟨.start, source.toList⟩ (took (ts.map leaf) c) ∧
      Nesting.tooDeep? ts = none ∧
      Runs charInput Form.script ⟨.start, source.toList⟩ (took trees c') ∧
      buildScript trees = .ok script := by
  constructor
  · intro h
    obtain ⟨ts, ps, hlex, hdeep, hps, hscript⟩ := parse_eq_ok_iff.1 h
    obtain ⟨c, htokens⟩ := (runs_tokens_iff source.toList ts).2 hlex
    obtain ⟨trees, c', hrun, -, hbuild⟩ := exists_runs_script hlex hps
    refine ⟨ts, trees, c, c', htokens, hdeep, hrun, ?_⟩
    rw [hbuild, ofPhrases_eq_meanings, hscript]
    rfl
  · rintro ⟨ts, trees, c, c', htokens, hdeep, hrun, hscript⟩
    have hlex := (runs_tokens_iff source.toList ts).1 ⟨c, htokens⟩
    obtain ⟨us, ps, hus, hps⟩ := (runs_script_iff source.toList).1 ⟨trees, c', hrun⟩
    obtain rfl : ts = us := Except.ok.inj (hlex.symm.trans hus)
    -- there is only one run, so the trees are those of the statements
    obtain ⟨trees', c'', hrun', -, hbuild⟩ := exists_runs_script hlex hps
    obtain ⟨rfl, -⟩ := Outcome.took.inj (hrun.unique hrun')
    rw [hbuild, ofPhrases_eq_meanings] at hscript
    refine parse_eq_ok_iff.2 ⟨ts, ps, hlex, hdeep, hps, ?_⟩
    cases hmeanings : Phrase.meanings 1 ps with
    | error e =>
      rw [hmeanings] at hscript
      cases hscript
    | ok es =>
      rw [hmeanings] at hscript
      cases hscript
      rfl

end FlagScript
