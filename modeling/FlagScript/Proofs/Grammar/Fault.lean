import FlagScript.Proofs.Grammar.Build
import FlagScript.Proofs.Grammar.Refusal
import FlagScript.Proofs.Token.Decode

/-!
# Why sources that follow the grammar are refused

Beside how deep it nests, a source of the grammar is refused for a function that there is not, for a
call with too few or too many arguments, and for a number that does not fit
(`Script.parse_faults`). The other faults never arise: the tokens are what the lexer finds, and
these can be read, and the trees are those of the grammar.
-/

namespace FlagScript

/-- What a call or a literal among phrases is refused for. -/
inductive Cause (qs : List Phrase) : Position → Fault → Prop where
  | unknownFunction {id : Token} {paren : Position} {args : List Phrase}
      (hcall : .call id paren args ∈ qs) (hname : Builtin.find? id.name = none) :
      Cause qs id.position (.unknownFunction id.name)
  | argumentCount {id : Token} {paren : Position} {args : List Phrase} {b : Builtin}
      (hcall : .call id paren args ∈ qs) (hname : Builtin.find? id.name = some b)
      (hcount : args.length < b.required ∨ b.most < args.length) :
      Cause qs id.position (.argumentCount b args.length)
  | outOfRange {t : Token} {f : Fault} (hliteral : .literal t ∈ qs) (hnumber : t.RefusedNumber f) :
      Cause qs t.position f

/-- All faults have causes among phrases. -/
def Faulty {α : Type} (qs : List Phrase) (x : Except Error α) : Prop :=
  ∀ p f, x = .error (.fault p f) → Cause qs p f

namespace Phrase

variable {qs : List Phrase} {p : Position} {f : Fault}

theorem checkCall_cause {id : Token} {paren : Position} {args : List Phrase}
    (hmem : .call id paren args ∈ qs) (h : checkCall id args.length = .error f) :
    Cause qs id.position f := by
  unfold checkCall at h
  split at h
  next hnone =>
    cases h
    exact .unknownFunction hmem hnone
  next b hb =>
    split at h
    next => cases h
    next hcount =>
      cases h
      refine .argumentCount hmem hb ?_
      simp only [Builtin.accepts, Bool.and_eq_true, decide_eq_true_eq] at hcount
      omega

/-- The numbers and truth words among phrases are lexemes. -/
def LexemesIn (qs : List Phrase) : Prop :=
  ∀ t, .literal t ∈ qs → t.kind = .number ∨ t.kind = .boolean → Token.Lexeme t.kind t.lexeme

/-- A node with a fault is the cause of it. -/
theorem Refuses.cause {q : Phrase} (h : q.Refuses (.fault p f)) (hqs : LexemesIn qs)
    (hq : q ∈ qs) : Cause qs p f := by
  cases h with
  | literal hf => exact .outOfRange hq (Token.literal_error (hqs _ hq) hf)
  | call hf => exact checkCall_cause hq hf

/-- A fault in the meaning of phrases is caused by one of them or of their parts. -/
theorem meanings_faulty (hqs : LexemesIn qs) (ps : List Phrase) (depth : Nat)
    (hps : partsOfAll ps ⊆ qs) : Faulty qs (meanings depth ps) := by
  intro p f h
  obtain ⟨q, hq, hrefuses⟩ := meanings_error ps h
  exact hrefuses.cause hqs (hps hq)

end Phrase

/-! ## Scripts -/

namespace ParseTree

/-- The trees of all statements of a source, whose tokens are their leaves. -/
structure Statements (trees : List ParseTree) (ts : List Token) : Prop where
  valid : ∀ t ∈ trees, t.Valid
  label : ∀ t ∈ trees, t.label = .rule .expr
  leaves : leavesOf trees = ts

theorem statements_nil : Statements [] [] where
  valid := fun _ h => nomatch h
  label := fun _ h => nomatch h
  leaves := rfl

theorem Statements.cons {p : Phrase} {t : ParseTree} {trees : List ParseTree} {ts us : List Token}
    (ht : p.Builds 6 ts t) (h : Statements trees us) : Statements (t :: trees) (ts ++ us) where
  valid := List.forall_mem_cons.2 ⟨ht.valid, h.valid⟩
  label := List.forall_mem_cons.2 ⟨ht.label, h.label⟩
  leaves := by rw [leavesOf, ht.leaves, h.leaves]

/-- From trees of the grammar a script is built or refused, but nothing is out of place. -/
theorem Statements.shaped {trees : List ParseTree} {ts : List Token} (h : Statements trees ts) :
    Shaped (buildScript trees) := by
  obtain ⟨hvalid, hlabel, -⟩ := h
  rw [buildScript]
  induction trees with
  | nil => exact shaped_ok []
  | cons t trees ih =>
    obtain ⟨hv, hvs⟩ := List.forall_mem_cons.1 hvalid
    obtain ⟨hl, hls⟩ := List.forall_mem_cons.1 hlabel
    rw [List.mapM_cons]
    exact (shaped_buildExpr 1 t hv hl).bind fun e => (ih hvs hls).bind fun es => shaped_ok (e :: es)

end ParseTree

open Failure (lift)
open ParseTree (Statements Shaped buildScript)

theorem Phrase.Builds.script {p : Phrase} {ps : List Phrase} {t : ParseTree}
    {trees : List ParseTree} {ts : List Token} (h : p.Builds 6 ts t)
    (hs : buildScript trees = lift (Script.ofPhrases ps)) :
    buildScript (t :: trees) = lift (Script.ofPhrases (p :: ps)) := by
  have hfirst : t.buildExpr 1 = lift (p.meaning 1) := h.builds 1
  rw [buildScript, Script.ofPhrases] at hs ⊢
  rw [List.mapM_cons, List.mapM_cons, hfirst, hs, Failure.lift_bind]
  simp only [Failure.lift_bind, Failure.lift_pure]

/-- Statements are built from the trees of their phrases. -/
theorem Phrase.WrittenStatements.exists_trees {ps : List Phrase} {ts : List Token}
    (h : WrittenStatements ps ts) :
    ∃ trees, Statements trees ts ∧ buildScript trees = lift (Script.ofPhrases ps) := by
  induction h with
  | nil => exact ⟨[], ParseTree.statements_nil, rfl⟩
  | cons hp _ ih =>
    obtain ⟨t, ht⟩ := hp.hasTree (Nat.le_refl 6)
    obtain ⟨trees, htrees, hbuild⟩ := ih
    exact ⟨t :: trees, htrees.cons ht, ht.script hbuild⟩

namespace Script

/-- A source that fails with a fault follows the grammar. -/
theorem exists_of_parse_fault {source : String} {p : Position} {f : Fault}
    (h : parse source = .error (.fault p f)) :
    ∃ ts ps, Token.lex source.toList = .ok ts ∧ Phrase.statements ts = .ok ps ∧
      ofPhrases ps = .error (.fault p f) := by
  rcases parse_eq_error h with ⟨_, _, _, he⟩ | ⟨ts, hlex, ⟨_, _, he⟩ | ⟨ps, hps, he⟩⟩
  · cases he
  · cases he
  · exact ⟨ts, ps, hlex, hps, (ofPhrases_eq_meanings ps).trans he⟩

/-- A source fails with a fault only for a function that there is not, for a call with too few or
too many arguments, or for a number without a point that is out of range or zero with a great power.
No other fault can arise: a literal of a source that is refused is such a number, and trees of the
grammar with the tokens of a source have everything in place, among them trees from which the same
is built as from the phrases. -/
theorem parse_faults (source : String) :
    (∀ p f, parse source = .error (.fault p f) → ∃ ts ps, Token.lex source.toList = .ok ts ∧
      Phrase.statements ts = .ok ps ∧ Cause (Phrase.partsOfAll ps) p f) ∧
    ∀ ts, Token.lex source.toList = .ok ts →
      (∀ t ∈ ts, ∀ f, t.literal = .error f → t.RefusedNumber f) ∧
      (∀ trees, Statements trees ts → Shaped (buildScript trees)) ∧
      ∀ ps, Phrase.statements ts = .ok ps →
        ∃ trees, Statements trees ts ∧ buildScript trees = lift (ofPhrases ps) := by
  refine ⟨fun p f h => ?_, fun ts hlex => ⟨fun t ht f hf => ?_, fun trees h => h.shaped, ?_⟩⟩
  · obtain ⟨ts, ps, hlex, hps, hmeaning⟩ := exists_of_parse_fault h
    refine ⟨ts, ps, hlex, hps, ?_⟩
    have hlexemes : Phrase.LexemesIn (Phrase.partsOfAll ps) := fun t ht =>
      Token.lexeme_of_lex hlex t ((Phrase.statements_written hps).literal_mem ht)
    rw [ofPhrases_eq_meanings] at hmeaning
    exact Phrase.meanings_faulty hlexemes ps 1 (List.Subset.refl _) p f hmeaning
  · exact Token.literal_error (Token.lexeme_of_lex hlex t ht) hf
  · exact fun ps hps => (Phrase.statements_written hps).exists_trees

/-- A truth word and a great float are read, and a call is refused behind them. -/
theorem parse_faults_argument_count :
    parse "yes .5e999 $ADD(1)" = .error (.fault ⟨1, 12⟩ (.argumentCount .add 1)) ∧
      ∃ ts ps, Token.lex "yes .5e999 $ADD(1)".toList = .ok ts ∧ Phrase.statements ts = .ok ps ∧
        Cause (Phrase.partsOfAll ps) ⟨1, 12⟩ (.argumentCount .add 1) := by
  have hparse : parse "yes .5e999 $ADD(1)" = .error (.fault ⟨1, 12⟩ (.argumentCount .add 1)) := by
    decide +kernel
  exact ⟨hparse, (parse_faults _).1 _ _ hparse⟩

/-- Zero is not out of range, whatever power of ten it is multiplied with, and yet it is refused. -/
theorem parse_refuses_zero :
    parse "0e30" = .error (.fault ⟨1, 1⟩ (.numberOutOfRange "0e30")) ∧
      ¬Token.OutOfRange "0e30".toList := by
  decide +kernel

end Script

end FlagScript
