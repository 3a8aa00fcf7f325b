import FlagScript.Proofs.Grammar.Completeness
import FlagScript.Proofs.Peg.Production

/-!
# The parser and the grammar

The parser decides by the tokens in front what the grammar finds out by trying. Whatever the parser
takes, the form of the grammar takes as well, and what is built from its tree is the meaning of the
phrase; and where the parser is stuck, the form does not fit or leaves dead tokens
(`productionsRun`). As in the other inductions over the parser, each production is shown with a
bound from all of them with a smaller one.
-/

namespace FlagScript

namespace Phrase

open ParseTree (leaf node)
open Outcome

variable {b : Bool}

/-! ## What the parser and a form come to -/

/-- A form does not fit, or leaves tokens that nothing takes up. -/
def Stops (b : Bool) (e : Form) (ts : List Token) : Prop :=
  Runs (tokenInput b) e ts failed ∨
    ∃ c rest, Runs (tokenInput b) e ts (took [c] rest) ∧ Dead b rest

/-- The form takes what the parser took, with a tree that the phrase is built from as `B` says. -/
def Agrees (b : Bool) (e : Form) (B : Phrase → List Token → ParseTree → Prop) (ts : List Token) :
    Parsed Phrase → Prop
  | .ok (p, rest) => ∃ used c, ts = used ++ rest ∧ Runs (tokenInput b) e ts (took [c] rest) ∧
      B p used c
  | .error _ => Stops b e ts

/-- The operators of a level take what the parser added to the phrase on their left. -/
def AgreesChain (b : Bool) (n : Nat) (left : Phrase) (ts : List Token) : Parsed Phrase → Prop
  | .ok (p, rest) => ∃ used parts cs, ts = used ++ rest ∧
      Runs (tokenInput b) (.further (operationOf n)) ts (took cs rest) ∧
      BuildsParts n parts used cs ∧ p.chainHead (n + 1) = left.chainHead (n + 1) ∧
      p.chainParts (n + 1) = left.chainParts (n + 1) ++ parts
  | .error _ => ∃ cs rest,
      Runs (tokenInput b) (.further (operationOf n)) ts (took cs rest) ∧ Dead b rest

/-- The form of calls takes what the parser took behind a name and a parenthesis. Otherwise the
parenthesis begins neither arguments nor a group. -/
def AgreesArguments (b : Bool) (id u : Token) (ts : List Token) : Parsed Phrase → Prop
  | .ok (p, rest) => ∃ used c, ts = used ++ rest ∧
      Runs (tokenInput b) (.node .call) (id :: u :: ts) (took [c] rest) ∧
      BuildsTerm p (id :: u :: used) c
  | .error _ => Runs (tokenInput b) (.node .argList) (u :: ts) failed ∧
      Runs (tokenInput b) (.node .group) (u :: ts) failed

/-- An argument and the further ones take what the parser took up to the parenthesis that closes.
Otherwise no such parenthesis stands behind them, and none behind the first one. -/
def AgreesFurther (b : Bool) (id : Token) (parenAt : Position) (done : List Phrase)
    (ts : List Token) : Parsed Phrase → Prop
  | .ok (p, rest) => ∃ arg args used close c mid cs,
      p = .call id parenAt (done.reverse ++ arg :: args) ∧ ts = used ++ close :: rest ∧
      close.kind = .rightParen ∧ Runs (tokenInput b) (.node .expr) ts (took [c] mid) ∧
      Runs (tokenInput b) (.further .nextArgument) mid (took cs (close :: rest)) ∧
      BuildsArguments (arg :: args) used (c :: cs)
  | .error _ => Runs (tokenInput b) (.node .expr) ts failed ∨ ∃ c mid cs rest,
      Runs (tokenInput b) (.node .expr) ts (took [c] mid) ∧
      Runs (tokenInput b) (.further .nextArgument) mid (took cs rest) ∧
      startsWith .rightParen mid = false ∧ startsWith .rightParen rest = false

/-- Every production of the parser agrees with its form, if the bound on the depth of its calls is
ten times the number of tokens and a little more. -/
structure ProductionsRun (b : Bool) (bound : Nat) : Prop where
  expression : ∀ ts, 10 * ts.length + 8 ≤ bound →
    Agrees b (.node .expr) (Builds 6) ts (expression bound ts)
  level : ∀ n ts, 10 * ts.length + n + 2 ≤ bound → n ≤ 5 →
    Agrees b (.node (.ofLevel n)) (Builds n) ts (level bound n ts)
  chain : ∀ n left ts, 10 * ts.length + 1 ≤ bound → n < 5 →
    AgreesChain b n left ts (chain bound n left ts)
  prefixed : ∀ ts, 10 * ts.length + 1 ≤ bound →
    Agrees b (.node .negation) (Builds 0) ts (prefixed bound ts)
  operand : ∀ t ts, 10 * ts.length + 10 ≤ bound →
    Agrees b .term BuildsTerm (t :: ts) (operand bound t ts)
  arguments : ∀ id u ts, 10 * ts.length + 10 ≤ bound → id.kind = .identifier →
    u.kind = .leftParen → AgreesArguments b id u ts (arguments bound id u.position ts)
  furtherArguments : ∀ id parenAt done ts, 10 * ts.length + 9 ≤ bound →
    AgreesFurther b id parenAt done ts (furtherArguments bound id parenAt done ts)

variable {bound n : Nat} {ts : List Token}

/-! ## Expressions and levels -/

theorem mem_assignments {t : Token} {op : AssignOp} (ht : t.kind = op.kind)
    (hop : op.takesValue = true) : t.kind ∈ [TokenClass.set, .incrementBy, .decrementBy] := by
  rw [ht]
  cases op <;> first | decide | cases hop

/-- A name in front of an assignment without a value is taken alone, and nothing takes up the
assignment. -/
theorem stops_of_no_value {id t : Token} {op : AssignOp} (hid : id.kind = .identifier)
    (ht : t.kind = op.kind) (hop : op.takesValue = true)
    (h : Runs (tokenInput b) (.node .expr) ts failed) :
    Stops b (.node .expr) (id :: t :: ts) := by
  have hassign : Runs (tokenInput b) (.node .assign) (id :: t :: ts) failed :=
    .noNode (.seqNotSecond (runs_token hid)
      (.seqNotSecond (runs_oneOf (by decide) (mem_assignments ht hop)) h))
  have hkind : t.kind.binaryOp? = none ∧ t.kind.stepOp? = none ∧ t.kind.startsExpression = false ∧
      t.kind ∉ [TokenClass.identifier, .leftParen, .comma, .rightParen] := by
    rw [ht]
    cases op <;> first | decide | cases hop
  obtain ⟨hbinary, hstep, hstart, hother⟩ := hkind
  simp only [List.mem_cons, List.not_mem_nil, or_false, not_or] at hother
  have hdead : Dead b (t :: ts) :=
    dead_of_token hbinary hother.1 ⟨hother.2.2.1, hother.2.2.2⟩ (runs_negation_failed hstart)
  have hflag : Runs (tokenInput b) .term (id :: t :: ts) (took [leaf id] (t :: ts)) :=
    runs_flag hid (runs_argList_failed (forall_mem_head? hother.2.1)) (forall_mem_head? hstep)
  have hsign : id.kind.unaryOp? = none := by
    rw [hid]
    rfl
  obtain ⟨c, hc⟩ := exists_runs_level (Nat.le_refl 5)
    (.node (runs_unsigned (forall_mem_head? hsign) hflag)) hdead.operation
  exact .inr ⟨_, _, .node (.choiceSecond hassign hc), hdead⟩

theorem expression_runs (ih : ProductionsRun b bound) (hb : 10 * ts.length + 8 ≤ bound + 1) :
    Agrees b (.node .expr) (Builds 6) ts (expression (bound + 1) ts) := by
  rw [expression]
  cases hat : assignmentAt? ts with
  | none =>
    -- there is no assignment in front, so the form falls back on operators
    have hassign : Runs (tokenInput b) (.node .assign) ts failed := runs_assign_failed hat
    have hlevel := ih.level 5 ts (by omega) (Nat.le_refl 5)
    show Agrees b (.node .expr) (Builds 6) ts (level bound 5 ts)
    cases hrest : level bound 5 ts with
    | error e =>
      rw [hrest] at hlevel
      rcases hlevel with hfailed | ⟨c, rest, hc, hdead⟩
      · exact .inl (.noNode (.choiceSecond hassign hfailed))
      · exact .inr ⟨_, rest, .node (.choiceSecond hassign hc), hdead⟩
    | ok found =>
      rw [hrest] at hlevel
      obtain ⟨used, c, hts, hc, hbuilds⟩ := hlevel
      exact ⟨used, _, hts, .node (.choiceSecond hassign hc), hbuilds.expr⟩
  | some found =>
    obtain ⟨id, op, opAt, rest⟩ := found
    obtain ⟨t, rfl, rfl, hid, ht, hop⟩ := eq_cons_of_assignmentAt? hat
    simp only [List.length_cons] at hb
    have hassign : ∀ {c us}, Runs (tokenInput b) (.node .expr) rest (took [c] us) →
        Runs (tokenInput b) (.node .expr) (id :: t :: rest)
          (took [node .expr [node .assign [leaf id, leaf t, c]]] us) := fun h =>
      .node (.choiceFirst (.node (.seq (runs_token hid)
        (.seq (runs_oneOf (by decide) (mem_assignments ht hop)) h))))
    have hvalue := ih.expression rest (by omega)
    simp only
    cases hrest : expression bound rest with
    | error e =>
      rw [hrest] at hvalue
      rcases hvalue with hfailed | ⟨c, us, hc, hdead⟩
      · -- without a value the form takes the name alone
        exact stops_of_no_value hid ht hop hfailed
      · exact .inr ⟨_, us, hassign hc, hdead⟩
    | ok found =>
      rw [hrest] at hvalue
      obtain ⟨used, c, rfl, hc, hbuilds⟩ := hvalue
      exact ⟨id :: t :: used, _, rfl, hassign hc, hbuilds.assign hid ht hop⟩

/-- A phrase of a level has no operators of the next looser one. -/
theorem Written.chainParts_eq_nil {p : Phrase} (h : Written n p ts) :
    p.chainParts (n + 1) = [] := by
  cases h with
  | binary hm hop => rw [chainParts, if_neg (by omega)]
  | _ => rfl

theorem level_runs (ih : ProductionsRun b bound) (hb : 10 * ts.length + n + 2 ≤ bound + 1)
    (hn : n ≤ 5) : Agrees b (.node (.ofLevel n)) (Builds n) ts (level (bound + 1) n ts) := by
  cases n with
  | zero =>
    rw [level]
    exact ih.prefixed ts (by omega)
  | succ n =>
    have hform := form_ofLevel (n := n) (by omega)
    have hlevel := ih.level n ts (by omega) (by omega)
    rw [level]
    cases hleft : level bound n ts with
    | error e =>
      rw [hleft] at hlevel
      rcases hlevel with hfailed | ⟨c, rest, hc, hdead⟩
      · exact .inl (.noNode (hform ▸ .seqNotFirst hfailed))
      · -- an operand was taken, but dead tokens have no operator of this level in front either
        have hchain : Runs (tokenInput b) (Rule.ofLevel (n + 1)).form ts (took ([c] ++ []) rest) :=
          hform ▸ .seq hc (.starNone (hdead.operation n (by omega)))
        exact .inr ⟨_, rest, .node hchain, hdead⟩
    | ok found =>
      obtain ⟨left, rest⟩ := found
      have hlen := length_of_level hleft
      obtain ⟨_, -, hwritten⟩ := (productionsWritten bound).level hleft
      rw [hleft] at hlevel
      obtain ⟨used, c, rfl, hc, hbuilds⟩ := hlevel
      have hrest := ih.chain n left rest (by omega) (by omega)
      simp only
      cases hchain : chain bound n left rest with
      | error e =>
        rw [hchain] at hrest
        obtain ⟨cs, us, hcs, hdead⟩ := hrest
        have hboth : Runs (tokenInput b) (Rule.ofLevel (n + 1)).form (used ++ rest)
            (took ([c] ++ cs) us) := hform ▸ .seq hc hcs.star_of_further
        exact .inr ⟨_, us, .node hboth, hdead⟩
      | ok found =>
        obtain ⟨p, us⟩ := found
        rw [hchain] at hrest
        obtain ⟨used', parts, cs, rfl, hcs, hparts, hhead, hall⟩ := hrest
        have hboth : Runs (tokenInput b) (Rule.ofLevel (n + 1)).form (used ++ (used' ++ us))
            (took ([c] ++ cs) us) := hform ▸ .seq hc hcs.star_of_further
        have hnone := hwritten.chainParts_eq_nil
        rw [hnone, List.nil_append] at hall
        rw [chainHead_of_no_parts hnone] at hhead
        rw [← hall] at hparts
        rw [← hhead] at hbuilds
        exact ⟨used ++ used', _, (List.append_assoc used used' us).symm, .node hboth,
          hbuilds.chain (by omega) hparts⟩

theorem chain_runs {left : Phrase} (ih : ProductionsRun b bound)
    (hb : 10 * ts.length + 1 ≤ bound + 1) (hn : n < 5) :
    AgreesChain b n left ts (chain (bound + 1) n left ts) := by
  rw [chain]
  cases hat : operatorAt? (n + 1) ts with
  | none =>
    exact ⟨[], [], [], rfl, .furtherNone (runs_operation_failed hn hat), buildsParts_nil n, rfl,
      (List.append_nil _).symm⟩
  | some found =>
    obtain ⟨op, opAt, rest⟩ := found
    obtain ⟨t, rfl, rfl, ht, hop⟩ := eq_cons_of_operatorAt? hat
    rw [List.length_cons] at hb
    have hbinary : t.kind.binaryOp? = some op := by
      rw [ht]
      cases op <;> rfl
    have hoperator : Runs (tokenInput b) (.oneOf (Rule.ofLevel (n + 1)).operators) (t :: rest)
        (took [leaf t] rest) :=
      runs_oneOf (inOrder_operators _) ((mem_operators_iff hn).2 ⟨op, hbinary, hop⟩)
    have hlevel := ih.level n rest (by omega) (by omega)
    simp only
    cases hright : level bound n rest with
    | error e =>
      rw [hright] at hlevel
      rcases hlevel with hfailed | ⟨c, us, hc, hdead⟩
      · -- the operator has no operand, so the form leaves it, and it is dead
        exact ⟨[], t :: rest, .furtherNone (.seqNotSecond hoperator hfailed),
          dead_of_operator hbinary (runs_negation_failed_of_level (by omega) hfailed)⟩
      · exact ⟨_, us, .further (.seq hoperator hc) (.furtherNone (hdead.operation n hn)), hdead⟩
    | ok found =>
      obtain ⟨right, us⟩ := found
      have hlen := length_of_level hright
      rw [hright] at hlevel
      obtain ⟨used, c, rfl, hc, hbuilds⟩ := hlevel
      have hrest := ih.chain n (.binary op t.position left right) us (by omega) hn
      simp only
      cases hchain : chain bound n (.binary op t.position left right) us with
      | error e =>
        rw [hchain] at hrest
        obtain ⟨cs, vs, hcs, hdead⟩ := hrest
        exact ⟨_, vs, .further (.seq hoperator hc) hcs, hdead⟩
      | ok found =>
        obtain ⟨p, vs⟩ := found
        rw [hchain] at hrest
        obtain ⟨used', parts, cs, rfl, hcs, hparts, hhead, hall⟩ := hrest
        rw [chainHead, if_pos hop] at hhead
        rw [chainParts, if_pos hop, List.append_assoc] at hall
        exact ⟨t :: (used ++ used'), ⟨op, t.position, right⟩ :: parts, leaf t :: c :: cs, by simp,
          .further (.seq hoperator hc) hcs, hbuilds.parts hn ht hop hparts, hhead, hall⟩

/-! ## Operands -/

theorem prefixed_runs (ih : ProductionsRun b bound) (hb : 10 * ts.length + 1 ≤ bound + 1) :
    Agrees b (.node .negation) (Builds 0) ts (prefixed (bound + 1) ts) := by
  cases ts with
  | nil =>
    rw [prefixed]
    exact .inl (runs_negation_failed rfl)
  | cons t ts =>
    rw [List.length_cons] at hb
    rw [prefixed]
    cases hop : t.kind.unaryOp? with
    | none =>
      have hsign : ∀ u ∈ (t :: ts).head?, u.kind.unaryOp? = none := forall_mem_head? hop
      have hoperand := ih.operand t ts (by omega)
      simp only
      cases hrest : operand bound t ts with
      | error e =>
        rw [hrest] at hoperand
        rcases hoperand with hfailed | ⟨c, rest, hc, hdead⟩
        · exact .inl (.noNode (runs_unsigned hsign hfailed))
        · exact .inr ⟨_, rest, .node (runs_unsigned hsign hc), hdead⟩
      | ok found =>
        rw [hrest] at hoperand
        obtain ⟨used, c, hts, hc, hbuilds⟩ := hoperand
        exact ⟨used, _, hts, .node (runs_unsigned hsign hc), hbuilds.negation⟩
    | some op =>
      have hoperand := ih.prefixed ts (by omega)
      simp only
      cases hrest : prefixed bound ts with
      | error e =>
        rw [hrest] at hoperand
        rcases hoperand with hfailed | ⟨c, rest, hc, hdead⟩
        · exact .inl (runs_signed_failed hop hfailed)
        · exact .inr ⟨_, rest, runs_signed hop hc, hdead⟩
      | ok found =>
        rw [hrest] at hoperand
        obtain ⟨used, c, rfl, hc, hbuilds⟩ := hoperand
        exact ⟨t :: used, _, rfl, runs_signed hop hc,
          hbuilds.unary (TokenClass.eq_kind_of_unaryOp? hop)⟩

/-- A parenthesis begins a group, or nothing. -/
theorem group_runs {t : Token} (ih : ProductionsRun b bound) (hb : 10 * ts.length + 10 ≤ bound + 1)
    (ht : t.kind = .leftParen) :
    Agrees b .term BuildsTerm (t :: ts) (operand (bound + 1) t ts) := by
  have hfailed : Runs (tokenInput b) (.node .group) (t :: ts) failed →
      Stops b .term (t :: ts) := by
    intro h
    have hother : t.kind ∉ atoms := by
      rw [ht]
      decide
    exact .inl (runs_term_failed_of_group h (forall_mem_head? hother))
  have hinner := ih.expression ts (by omega)
  unfold operand
  rw [if_pos ht]
  cases hexpr : expression bound ts with
  | error e =>
    rw [hexpr] at hinner
    apply hfailed
    apply runs_group_failed_of ht
    rcases hinner with hfailed | ⟨c, rest, hc, hdead⟩
    · exact .inl hfailed
    · exact .inr ⟨c, rest, hc, hdead.startsWith⟩
  | ok found =>
    obtain ⟨inner, rest⟩ := found
    rw [hexpr] at hinner
    obtain ⟨used, c, rfl, hc, hbuilds⟩ := hinner
    simp only
    cases hclose : startsWith .rightParen rest with
    | false => exact hfailed (runs_group_failed_of ht (.inr ⟨c, rest, hc, hclose⟩))
    | true =>
      obtain ⟨u, hrest, hu⟩ := eq_cons_of_startsWith hclose
      have hclosing : Runs (tokenInput b) (.token .rightParen) rest (took [leaf u] rest.tail) := by
        rw [hrest]
        exact runs_token hu
      refine ⟨t :: (used ++ [u]), _, ?_,
        .choiceFirst (.node (.seq (runs_token ht) (.seq hc hclosing))), hbuilds.group ht hu⟩
      rw [List.cons_append, List.append_assoc, List.singleton_append, ← hrest]

/-- A name begins a call, a step or stands alone. -/
theorem name_runs {t : Token} (ih : ProductionsRun b bound) (hb : 10 * ts.length + 10 ≤ bound + 1)
    (ht : t.kind = .identifier) :
    Agrees b .term BuildsTerm (t :: ts) (operand (bound + 1) t ts) := by
  unfold operand
  rw [if_neg (by simp [ht]), if_pos ht]
  cases ts with
  | nil =>
    have hnone : ∀ {P : Token → Prop}, ∀ u ∈ ([] : List Token).head?, P u := by simp
    exact ⟨[t], leaf t, rfl, runs_flag ht (runs_argList_failed hnone) hnone, buildsTerm_flag ht⟩
  | cons u rest =>
    rw [List.length_cons] at hb
    simp only
    by_cases hu : u.kind = .leftParen
    · have hargs := ih.arguments t u rest (by omega) ht hu
      rw [if_pos hu]
      cases hrest : arguments bound t u.position rest with
      | error e =>
        rw [hrest] at hargs
        obtain ⟨hargs, hparen⟩ := hargs
        -- the name is taken alone, and nothing takes up the parenthesis
        have hkind : u.kind.stepOp? = none ∧ u.kind.binaryOp? = none ∧ u.kind.unaryOp? = none ∧
            u.kind ≠ .identifier ∧ (u.kind ≠ .comma ∧ u.kind ≠ .rightParen) ∧ u.kind ∉ atoms := by
          rw [hu]
          decide
        obtain ⟨hstep, hbinary, hunary, hid, hclose, hatom⟩ := hkind
        have hterm : Runs (tokenInput b) .term (u :: rest) failed :=
          runs_term_failed_of_group hparen (forall_mem_head? hatom)
        have hdead : Dead b (u :: rest) := dead_of_token hbinary hid hclose
          (.noNode (runs_unsigned (forall_mem_head? hunary) hterm))
        exact .inr ⟨leaf t, u :: rest, runs_flag ht hargs (forall_mem_head? hstep), hdead⟩
      | ok found =>
        rw [hrest] at hargs
        obtain ⟨used, c, rfl, hc, hbuilds⟩ := hargs
        exact ⟨t :: u :: used, c, rfl,
          .choiceSecond (runs_group_failed_of_name ht) (.choiceFirst hc), hbuilds⟩
    · rw [if_neg hu]
      cases hop : u.kind.stepOp? with
      | none =>
        have hargs : Runs (tokenInput b) (.node .argList) (u :: rest) failed :=
          runs_argList_failed (forall_mem_head? hu)
        exact ⟨[t], leaf t, rfl, runs_flag ht hargs (forall_mem_head? hop), buildsTerm_flag ht⟩
      | some op =>
        obtain ⟨hkind, hvalue⟩ := TokenClass.eq_kind_of_stepOp? hop
        exact ⟨[t, u], _, rfl, runs_step ht hkind hvalue, buildsTerm_step ht hkind hvalue⟩

theorem operand_runs {t : Token} (ih : ProductionsRun b bound)
    (hb : 10 * ts.length + 10 ≤ bound + 1) :
    Agrees b .term BuildsTerm (t :: ts) (operand (bound + 1) t ts) := by
  by_cases hparen : t.kind = .leftParen
  · exact group_runs ih hb hparen
  by_cases hid : t.kind = .identifier
  · exact name_runs ih hb hid
  -- what is left are literals, and tokens that no operand begins with
  have hall : ∀ k ∈ TokenClass.table, k ≠ .leftParen → k ≠ .identifier →
      (k.isLiteral = true → k ∈ atoms) ∧ (k.isLiteral = false → k ∉ operandStarts) := by decide
  obtain ⟨hatom, hother⟩ := hall t.kind (Token.mem_table _) hparen hid
  unfold operand
  rw [if_neg hparen, if_neg hid]
  cases hliteral : t.kind.isLiteral with
  | true =>
    have hgroup : Runs (tokenInput b) (.node .group) (t :: ts) failed :=
      runs_group_failed (forall_mem_head? hparen)
    have hcall : Runs (tokenInput b) (.node .call) (t :: ts) failed :=
      .noNode (runs_name_failed (forall_mem_head? hid))
    have hvalue : Runs (tokenInput b) .value (t :: ts) (took [leaf t] ts) :=
      runs_value (hatom hliteral) fun h => absurd h hid
    exact ⟨[t], leaf t, rfl, .choiceSecond hgroup (.choiceSecond hcall (.choiceFirst hvalue)),
      buildsTerm_literal hliteral⟩
  | false => exact .inl (runs_term_failed (forall_mem_head? (hother hliteral)))

/-! ## Arguments -/

/-- Arguments without the parenthesis that closes them are none. -/
theorem runs_argList_failed_of {u : Token} (hu : u.kind = .leftParen)
    (hopen : startsWith .rightParen ts = false)
    (h : Runs (tokenInput b) (.node .expr) ts failed ∨ ∃ c mid cs rest,
      Runs (tokenInput b) (.node .expr) ts (took [c] mid) ∧
      Runs (tokenInput b) (.further .nextArgument) mid (took cs rest) ∧
      startsWith .rightParen rest = false) :
    Runs (tokenInput b) (.node .argList) (u :: ts) failed := by
  have hclose : ∀ {us : List Token}, startsWith .rightParen us = false →
      Runs (tokenInput b) (.token .rightParen) us failed := fun hus =>
    runs_token_failed (by decide) (ne_of_startsWith hus)
  refine .noNode (.seqNotSecond (runs_token hu) ?_)
  rcases h with h | ⟨c, mid, cs, rest, hc, hcs, hrest⟩
  · exact .seqNotSecond (.optionNone (.seqNotFirst h)) (hclose hopen)
  · exact .seqNotSecond (.option (.seq hc hcs.star_of_further)) (hclose hrest)

theorem arguments_runs {id u : Token} (ih : ProductionsRun b bound)
    (hb : 10 * ts.length + 10 ≤ bound + 1) (hid : id.kind = .identifier)
    (hu : u.kind = .leftParen) :
    AgreesArguments b id u ts (arguments (bound + 1) id u.position ts) := by
  rw [arguments]
  cases hclose : startsWith .rightParen ts with
  | true =>
    obtain ⟨v, hts, hv⟩ := eq_cons_of_startsWith hclose
    have hnone : Runs (tokenInput b) (.node .expr) ts failed := by
      refine runs_expr_failed_of_start ?_
      rw [hts, startsExpression, hv]
      rfl
    have hclosing : Runs (tokenInput b) (.token .rightParen) ts (took [leaf v] ts.tail) := by
      rw [hts]
      exact runs_token hv
    refine ⟨[v], _, hts, .node (.seq (runs_token hid) (.node (.seq (runs_token hu)
      (.seq (.optionNone (.seqNotFirst hnone)) hclosing)))), ?_⟩
    exact buildsArguments_nil.call hid hu hv
  | false =>
    cases hstart : startsExpression ts with
    | false =>
      have hnone : Runs (tokenInput b) (.node .expr) ts failed := runs_expr_failed_of_start hstart
      exact ⟨runs_argList_failed_of hu hclose (.inl hnone), runs_group_failed_of hu (.inl hnone)⟩
    | true =>
      have hfurther := ih.furtherArguments id u.position [] ts (by omega)
      simp only [Bool.false_eq_true, if_false, if_true]
      cases hrest : furtherArguments bound id u.position [] ts with
      | error e =>
        rw [hrest] at hfurther
        rcases hfurther with hnone | ⟨c, mid, cs, rest, hc, hcs, hmid, hend⟩
        · exact ⟨runs_argList_failed_of hu hclose (.inl hnone),
            runs_group_failed_of hu (.inl hnone)⟩
        · exact ⟨runs_argList_failed_of hu hclose (.inr ⟨c, mid, cs, rest, hc, hcs, hend⟩),
            runs_group_failed_of hu (.inr ⟨c, mid, hc, hmid⟩)⟩
      | ok found =>
        obtain ⟨p, rest⟩ := found
        rw [hrest] at hfurther
        obtain ⟨arg, args, used, v, c, mid, cs, rfl, rfl, hv, hc, hcs, hbuilds⟩ := hfurther
        refine ⟨used ++ [v], _, by simp, .node (.seq (runs_token hid) (.node (.seq (runs_token hu)
          (.seq (.option (.seq hc hcs.star_of_further)) (runs_token hv))))), ?_⟩
        exact hbuilds.call hid hu hv

theorem furtherArguments_runs {id : Token} {parenAt : Position} {done : List Phrase}
    (ih : ProductionsRun b bound) (hb : 10 * ts.length + 9 ≤ bound + 1) :
    AgreesFurther b id parenAt done ts (furtherArguments (bound + 1) id parenAt done ts) := by
  have harg := ih.expression ts (by omega)
  rw [furtherArguments]
  cases hexpr : expression bound ts with
  | error e =>
    rw [hexpr] at harg
    rcases harg with hfailed | ⟨c, mid, hc, hdead⟩
    · exact .inl hfailed
    · have hcomma : ∀ u ∈ mid.head?, u.kind ≠ .comma := fun u hu => (hdead.closing u hu).1
      have hnone : Runs (tokenInput b) (.further .nextArgument) mid (took [] mid) :=
        .furtherNone (.seqNotFirst (runs_token_failed (by decide) hcomma))
      exact .inr ⟨c, mid, [], mid, hc, hnone, hdead.startsWith, hdead.startsWith⟩
  | ok found =>
    obtain ⟨arg, mid⟩ := found
    have hlen := length_of_expression hexpr
    rw [hexpr] at harg
    obtain ⟨used, c, rfl, hc, hbuilds⟩ := harg
    simp only
    cases hcomma : startsWith .comma mid with
    | true =>
      obtain ⟨u, hmid, hu⟩ := eq_cons_of_startsWith hcomma
      generalize mid.tail = us at hmid
      subst hmid
      rw [List.length_cons] at hlen
      have hclose : startsWith .rightParen (u :: us) = false := by simp [startsWith, hu]
      have hfurther := ih.furtherArguments id parenAt (arg :: done) us (by omega)
      rw [if_pos rfl]
      cases hrest : furtherArguments bound id parenAt (arg :: done) us with
      | error e =>
        rw [hrest] at hfurther
        rcases hfurther with hnone | ⟨d, mid', cs, rest, hd, hcs, -, hend⟩
        · -- the comma has no argument behind it, so it is left
          have hleft : Runs (tokenInput b) (.further .nextArgument) (u :: us) (took [] (u :: us)) :=
            .furtherNone (.seqNotSecond (runs_token hu) hnone)
          exact .inr ⟨c, u :: us, [], u :: us, hc, hleft, hclose, hclose⟩
        · exact .inr ⟨c, u :: us, _, rest, hc, .further (.seq (runs_token hu) hd) hcs, hclose, hend⟩
      | ok found =>
        obtain ⟨p, rest⟩ := found
        rw [hrest] at hfurther
        obtain ⟨arg', args, used', v, d, mid', cs, rfl, rfl, hv, hd, hcs, hbuilds'⟩ := hfurther
        exact ⟨arg, arg' :: args, used ++ u :: used', v, c, _, leaf u :: d :: cs, by simp, by simp,
          hv, hc, .further (.seq (runs_token hu) hd) hcs,
          hbuilds'.cons hbuilds hu (List.cons_ne_nil _ _)⟩
    | false =>
      have hnone : Runs (tokenInput b) (.further .nextArgument) mid (took [] mid) :=
        .furtherNone (.seqNotFirst (runs_token_failed (by decide) (ne_of_startsWith hcomma)))
      simp only [Bool.false_eq_true, if_false]
      cases hclose : startsWith .rightParen mid with
      | false => exact .inr ⟨c, mid, [], mid, hc, hnone, hclose, hclose⟩
      | true =>
        obtain ⟨v, hmid, hv⟩ := eq_cons_of_startsWith hclose
        generalize mid.tail = us at hmid
        subst hmid
        exact ⟨arg, [], used, v, c, _, [], by simp, rfl, hv, hc, hnone, hbuilds.last⟩

theorem productionsRun (b : Bool) (bound : Nat) : ProductionsRun b bound := by
  induction bound with
  | zero =>
    -- the bound is never nothing
    constructor
    case expression => intro _ hb; omega
    case level => intro _ _ hb _; omega
    case chain => intro _ _ _ hb _; omega
    case prefixed => intro _ hb; omega
    case operand => intro _ _ hb; omega
    case arguments => intro _ _ _ hb _ _; omega
    case furtherArguments => intro _ _ _ _ hb; omega
  | succ bound ih =>
    exact ⟨fun _ => expression_runs ih, fun _ _ => level_runs ih, fun _ _ _ => chain_runs ih,
      fun _ => prefixed_runs ih, fun _ _ => operand_runs ih, fun _ _ _ => arguments_runs ih,
      fun _ _ _ _ => furtherArguments_runs ih⟩

end Phrase

end FlagScript
