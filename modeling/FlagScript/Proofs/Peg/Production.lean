import FlagScript.Proofs.Grammar.Build
import FlagScript.Proofs.Peg.Lexer

/-!
# Productions over tokens

What the forms of the grammar make of tokens, by the token in front. A form that does not fit gives
way to the next one, so where the parser is stuck the grammar may still take something; but then it
leaves tokens that nothing can take up again (`Dead`), and so no source is read this way.
-/

namespace FlagScript

open ParseTree (leaf node)
open Outcome

variable {b : Bool} {n : Nat} {k : TokenClass} {t : Token} {ts us : List Token}

/-! ## Tokens -/

theorem forall_mem_head? {P : Token → Prop} (h : P t) : ∀ u ∈ (t :: ts).head?, P u := by
  rintro u ⟨⟩
  exact h

theorem ne_of_startsWith (h : Phrase.startsWith k ts = false) : ∀ t ∈ ts.head?, t.kind ≠ k := by
  intro t ht hkind
  obtain ⟨us, rfl⟩ := List.head?_eq_some_iff.1 ht
  simp [Phrase.startsWith, hkind] at h

theorem misses_of_ne (hk : k ≠ .text) (h : ∀ t ∈ ts.head?, t.kind ≠ k) :
    (tokenInput b).Misses k ts := by
  intro t ht
  simp [TokenClass.fits, h t ht, hk]

theorem runs_token (h : t.kind = k) :
    Runs (tokenInput b) (.token k) (t :: ts) (took [leaf t] ts) :=
  .token ⟨rfl, h⟩

theorem runs_token_failed (hk : k ≠ .text) (h : ∀ t ∈ ts.head?, t.kind ≠ k) :
    Runs (tokenInput b) (.token k) ts failed :=
  .noToken (misses_of_ne hk h)

theorem runs_oneOf_not_mem {kinds : List TokenClass} (htext : TokenClass.text ∉ kinds)
    (h : ∀ t ∈ ts.head?, t.kind ∉ kinds) : Runs (tokenInput b) (.oneOf kinds) ts failed := by
  refine runs_oneOf_failed fun k hk => misses_of_ne ?_ fun t ht => ?_
  · rintro rfl
    exact htext hk
  · rintro rfl
    exact h t ht hk

/-! ## Operands -/

theorem runs_group_failed (h : ∀ t ∈ ts.head?, t.kind ≠ .leftParen) :
    Runs (tokenInput b) (.node .group) ts failed :=
  .noNode (.seqNotFirst (runs_token_failed (by decide) h))

/-- Nothing that begins with a name stands here. -/
theorem runs_name_failed {e : Form} (h : ∀ t ∈ ts.head?, t.kind ≠ .identifier) :
    Runs (tokenInput b) (.seq (.token .identifier) e) ts failed :=
  .seqNotFirst (runs_token_failed (by decide) h)

theorem runs_argList_failed (h : ∀ t ∈ ts.head?, t.kind ≠ .leftParen) :
    Runs (tokenInput b) (.node .argList) ts failed :=
  .noNode (.seqNotFirst (runs_token_failed (by decide) h))

/-- A group needs an expression and a parenthesis behind it. -/
theorem runs_group_failed_of (ht : t.kind = .leftParen)
    (h : Runs (tokenInput b) (.node .expr) ts failed ∨
      ∃ c rest, Runs (tokenInput b) (.node .expr) ts (took [c] rest) ∧
        Phrase.startsWith .rightParen rest = false) :
    Runs (tokenInput b) (.node .group) (t :: ts) failed := by
  refine .noNode (.seqNotSecond (runs_token ht) ?_)
  rcases h with h | ⟨c, rest, h, hclose⟩
  · exact .seqNotFirst h
  · exact .seqNotSecond h (runs_token_failed (by decide) (ne_of_startsWith hclose))

/-- Tokens that are values as they are. -/
def atoms : List TokenClass := [.identifier, .number, .quotedText, .boolean, .text]

theorem runs_value (h : t.kind ∈ atoms)
    (hstep : t.kind = .identifier → ∀ u ∈ ts.head?, u.kind.stepOp? = none) :
    Runs (tokenInput b) .value (t :: ts) (took [leaf t] ts) := by
  have hnone : ∀ k, k ≠ .text → TokenClass.stepOp? k ≠ none →
      Runs (tokenInput b) (.seq (.token .identifier) (.token k)) (t :: ts) failed := by
    intro k htext hk
    by_cases ht : t.kind = .identifier
    · refine .seqNotSecond (runs_token ht) (runs_token_failed htext fun u hu hkind => ?_)
      rw [← hkind] at hk
      exact hk (hstep ht u hu)
    · exact runs_name_failed (forall_mem_head? ht)
  -- what is left are tokens, of which text goes last
  have hatom : Runs (tokenInput b) (.oneOf atoms) (t :: ts) (took [leaf t] ts) :=
    runs_oneOf (by decide) h
  exact .choiceSecond (.noNode (hnone .increment (by decide) (by decide)))
    (.choiceSecond (.noNode (hnone .decrement (by decide) (by decide))) hatom)

theorem ne_identifier_of_not_mem_atoms (h : ∀ t ∈ ts.head?, t.kind ∉ atoms) :
    ∀ t ∈ ts.head?, t.kind ≠ .identifier := by
  intro t ht hkind
  apply h t ht
  rw [hkind]
  decide

theorem runs_value_failed (h : ∀ t ∈ ts.head?, t.kind ∉ atoms) :
    Runs (tokenInput b) .value ts failed := by
  have hid := ne_identifier_of_not_mem_atoms h
  have hatom : Runs (tokenInput b) (.oneOf atoms) ts failed := by
    refine runs_oneOf_failed fun k hk u hu => ?_
    have hall : ∀ k ∈ atoms, ∀ j ∈ TokenClass.table, j ∉ atoms → j.fits k = false := by decide
    exact hall k hk u.kind (Token.mem_table _) (h u hu)
  exact .choiceSecond (.noNode (runs_name_failed hid))
    (.choiceSecond (.noNode (runs_name_failed hid)) hatom)

/-- A term that is no group begins with a value as it is. -/
theorem runs_term_failed_of_group (hgroup : Runs (tokenInput b) (.node .group) ts failed)
    (h : ∀ t ∈ ts.head?, t.kind ∉ atoms) : Runs (tokenInput b) .term ts failed := by
  have hcall : Runs (tokenInput b) (.node .call) ts failed :=
    .noNode (runs_name_failed (ne_identifier_of_not_mem_atoms h))
  exact .choiceSecond hgroup (.choiceSecond hcall
    (.choiceSecond (runs_value_failed h) (.never ts)))

/-- Kinds of tokens that begin operands, but for signs. -/
def operandStarts : List TokenClass := .leftParen :: atoms

theorem runs_term_failed (h : ∀ t ∈ ts.head?, t.kind ∉ operandStarts) :
    Runs (tokenInput b) .term ts failed := by
  have hparen : ∀ t ∈ ts.head?, t.kind ≠ .leftParen := by
    intro t ht hkind
    apply h t ht
    rw [hkind]
    decide
  exact runs_term_failed_of_group (runs_group_failed hparen) fun t ht hmem =>
    h t ht (List.mem_cons_of_mem _ hmem)

theorem runs_group_failed_of_name (ht : t.kind = .identifier) :
    Runs (tokenInput b) (.node .group) (t :: ts) failed := by
  have hother : t.kind ≠ .leftParen := by
    rw [ht]
    decide
  exact runs_group_failed (forall_mem_head? hother)

theorem runs_step {u : Token} {op : AssignOp} (ht : t.kind = .identifier) (hu : u.kind = op.kind)
    (hop : op.takesValue = false) :
    Runs (tokenInput b) .term (t :: u :: ts)
      (took [node (Phrase.stepRule op) [leaf t, leaf u]] ts) := by
  have hparen : u.kind ≠ .leftParen := by
    rw [hu]
    cases op <;> decide
  have hargs : Runs (tokenInput b) (.node .argList) (u :: ts) failed :=
    runs_argList_failed (forall_mem_head? hparen)
  refine .choiceSecond (runs_group_failed_of_name ht)
    (.choiceSecond (.noNode (.seqNotSecond (runs_token ht) hargs)) (.choiceFirst ?_))
  cases op with
  | increment => exact .choiceFirst (.node (.seq (runs_token ht) (runs_token hu)))
  | decrement =>
    have hkind : u.kind ≠ .increment := by
      rw [hu]
      decide
    have hother : Runs (tokenInput b) (.token .increment) (u :: ts) failed :=
      runs_token_failed (by decide) (forall_mem_head? hkind)
    exact .choiceSecond (.noNode (.seqNotSecond (runs_token ht) hother))
      (.choiceFirst (.node (.seq (runs_token ht) (runs_token hu))))
  | set | incrementBy | decrementBy => cases hop

/-- A name by itself, behind which neither arguments nor a step stand. -/
theorem runs_flag (ht : t.kind = .identifier)
    (hargs : Runs (tokenInput b) (.node .argList) ts failed)
    (hstep : ∀ u ∈ ts.head?, u.kind.stepOp? = none) :
    Runs (tokenInput b) .term (t :: ts) (took [leaf t] ts) := by
  have hatom : t.kind ∈ atoms := by
    rw [ht]
    decide
  exact .choiceSecond (runs_group_failed_of_name ht)
    (.choiceSecond (.noNode (.seqNotSecond (runs_token ht) hargs))
      (.choiceFirst (runs_value hatom fun _ => hstep)))

/-! ## Signs -/

theorem mem_signs {op : UnaryOp} (h : t.kind.unaryOp? = some op) :
    t.kind ∈ [TokenClass.not, .minus] := by
  rw [TokenClass.eq_kind_of_unaryOp? h]
  cases op <;> decide

theorem not_mem_signs (h : t.kind.unaryOp? = none) : t.kind ∉ [TokenClass.not, .minus] := by
  intro hmem
  revert h
  generalize t.kind = k at hmem
  revert k
  decide

theorem runs_signed {op : UnaryOp} {cs : List ParseTree} (hop : t.kind.unaryOp? = some op)
    (h : Runs (tokenInput b) (.node .negation) ts (took cs us)) :
    Runs (tokenInput b) (.node .negation) (t :: ts) (took [.node .negation (leaf t :: cs)] us) :=
  .node (.choiceFirst (.seq (runs_oneOf (by decide) (mem_signs hop)) h))

theorem runs_signed_failed {op : UnaryOp} (hop : t.kind.unaryOp? = some op)
    (h : Runs (tokenInput b) (.node .negation) ts failed) :
    Runs (tokenInput b) (.node .negation) (t :: ts) failed := by
  have hkind : t.kind ∉ operandStarts := by
    rw [TokenClass.eq_kind_of_unaryOp? hop]
    cases op <;> decide
  exact .noNode (.choiceSecond (.seqNotSecond (runs_oneOf (by decide) (mem_signs hop)) h)
    (runs_term_failed (forall_mem_head? hkind)))

/-- Without a sign in front, an operand is a term. -/
theorem runs_unsigned {o : Outcome (List Token)} (hop : ∀ t ∈ ts.head?, t.kind.unaryOp? = none)
    (h : Runs (tokenInput b) .term ts o) : Runs (tokenInput b) Rule.negation.form ts o := by
  have hsign : Runs (tokenInput b) (.oneOf [.not, .minus]) ts failed :=
    runs_oneOf_not_mem (by decide) fun t ht => not_mem_signs (hop t ht)
  exact .choiceSecond (.seqNotFirst hsign) h

/-- Nothing begins here that an expression could begin with. -/
theorem runs_negation_failed (h : Phrase.startsExpression ts = false) :
    Runs (tokenInput b) (.node .negation) ts failed := by
  have hall : ∀ k ∈ TokenClass.table, k.startsExpression = false →
      k.unaryOp? = none ∧ k ∉ operandStarts := by decide
  have hhead : ∀ t ∈ ts.head?, t.kind.unaryOp? = none ∧ t.kind ∉ operandStarts := by
    intro t ht
    obtain ⟨us, rfl⟩ := List.head?_eq_some_iff.1 ht
    exact hall t.kind (Token.mem_table _) h
  have hterm : Runs (tokenInput b) .term ts failed := runs_term_failed fun t ht => (hhead t ht).2
  exact .noNode (runs_unsigned (fun t ht => (hhead t ht).1) hterm)

/-! ## Levels -/

/-- The operators of a level with their operands. -/
def operationOf (n : Nat) : Form := .operation (Rule.ofLevel (n + 1)).operators (.ofLevel n)

theorem form_ofLevel (hn : n < 5) :
    (Rule.ofLevel (n + 1)).form = .seq (.node (.ofLevel n)) (.star (operationOf n)) := by
  match n with
  | 0 | 1 | 2 | 3 | 4 => rfl
  | n + 5 => omega

theorem inOrder_operators (r : Rule) : InOrder r.operators := by
  cases r <;> decide

theorem text_not_mem_operators (r : Rule) : TokenClass.text ∉ r.operators := by
  cases r <;> decide

theorem mem_operators_iff (hn : n < 5) :
    k ∈ (Rule.ofLevel (n + 1)).operators ↔ ∃ op, k.binaryOp? = some op ∧ op.level = n + 1 := by
  constructor
  · intro h
    have hall : ∀ n < 5, ∀ k ∈ (Rule.ofLevel (n + 1)).operators,
        k.binaryOp?.map BinaryOp.level = some (n + 1) := by decide
    exact Option.map_eq_some_iff.1 (hall n hn k h)
  · rintro ⟨op, hop, hlevel⟩
    rw [TokenClass.eq_kind_of_binaryOp? hop]
    exact Rule.kind_mem_operators hlevel

theorem runs_operation_failed (hn : n < 5) (h : Phrase.operatorAt? (n + 1) ts = none) :
    Runs (tokenInput b) (operationOf n) ts failed := by
  refine .seqNotFirst (runs_oneOf_not_mem (text_not_mem_operators _) fun t ht hmem => ?_)
  obtain ⟨us, rfl⟩ := List.head?_eq_some_iff.1 ht
  obtain ⟨op, hop, hlevel⟩ := (mem_operators_iff hn).1 hmem
  simp [Phrase.operatorAt?, hop, hlevel] at h

/-- A level fits where an operand does. -/
theorem runs_level_failed (hn : n ≤ 5) (h : Runs (tokenInput b) (.node .negation) ts failed) :
    Runs (tokenInput b) (.node (.ofLevel n)) ts failed := by
  induction n with
  | zero => exact h
  | succ n ih =>
    refine .noNode ?_
    rw [form_ofLevel (by omega)]
    exact .seqNotFirst (ih (by omega))

theorem runs_negation_failed_of_level (hn : n ≤ 5)
    (h : Runs (tokenInput b) (.node (.ofLevel n)) ts failed) :
    Runs (tokenInput b) (.node .negation) ts failed := by
  induction n with
  | zero => exact h
  | succ n ih =>
    cases h with
    | noNode h =>
      rw [form_ofLevel (by omega)] at h
      cases h with
      | seqNotFirst h => exact ih (by omega) h
      | seqNotSecond _ hb => cases hb

/-- An operand without operators behind it is a chain of every level. -/
theorem exists_runs_level {c : ParseTree} (hn : n ≤ 5)
    (h : Runs (tokenInput b) (.node .negation) ts (took [c] us))
    (hus : ∀ m < 5, Runs (tokenInput b) (operationOf m) us failed) :
    ∃ d, Runs (tokenInput b) (.node (.ofLevel n)) ts (took [d] us) := by
  induction n with
  | zero => exact ⟨c, h⟩
  | succ n ih =>
    obtain ⟨d, hd⟩ := ih (by omega)
    refine ⟨.node (.ofLevel (n + 1)) ([d] ++ []), .node ?_⟩
    rw [form_ofLevel (by omega)]
    exact .seq hd (.starNone (hus n (by omega)))

/-! ## Expressions -/

theorem runs_assign_failed (h : Phrase.assignmentAt? ts = none) :
    Runs (tokenInput b) (.node .assign) ts failed := by
  refine .noNode ?_
  match ts with
  | [] => exact runs_name_failed nofun
  | t :: ts =>
    by_cases ht : t.kind = .identifier
    · refine .seqNotSecond (runs_token ht) (.seqNotFirst (runs_oneOf_not_mem (by decide) ?_))
      intro u hu hmem
      obtain ⟨us, rfl⟩ := List.head?_eq_some_iff.1 hu
      have hall : ∀ k ∈ [TokenClass.set, .incrementBy, .decrementBy],
          k.assignOp?.isSome = true := by decide
      obtain ⟨op, hop⟩ := Option.isSome_iff_exists.1 (hall u.kind hmem)
      simp [Phrase.assignmentAt?, ht, hop] at h
    · exact runs_name_failed (forall_mem_head? ht)

theorem runs_expr_failed (hid : ∀ t ∈ ts.head?, t.kind ≠ .identifier)
    (h : Runs (tokenInput b) (.node .negation) ts failed) :
    Runs (tokenInput b) (.node .expr) ts failed :=
  .noNode (.choiceSecond (.noNode (runs_name_failed hid)) (runs_level_failed (Nat.le_refl 5) h))

theorem runs_expr_failed_of_start (h : Phrase.startsExpression ts = false) :
    Runs (tokenInput b) (.node .expr) ts failed := by
  refine runs_expr_failed (fun t ht hkind => ?_) (runs_negation_failed h)
  obtain ⟨us, rfl⟩ := List.head?_eq_some_iff.1 ht
  simp [Phrase.startsExpression, hkind, TokenClass.startsExpression] at h

/-! ## Tokens that nothing takes up -/

/-- Behind an expression, these tokens go on neither as an expression nor as what could follow. -/
structure Dead (b : Bool) (ts : List Token) : Prop where
  expr : Runs (tokenInput b) (.node .expr) ts failed
  operation : ∀ n < 5, Runs (tokenInput b) (operationOf n) ts failed
  closing : ∀ t ∈ ts.head?, t.kind ≠ .comma ∧ t.kind ≠ .rightParen
  ne_nil : ts ≠ []

theorem Dead.startsWith (h : Dead b ts) : Phrase.startsWith .rightParen ts = false := by
  obtain ⟨t, us, rfl⟩ := List.exists_cons_of_ne_nil h.ne_nil
  simp [Phrase.startsWith, (h.closing t rfl).2]

/-- A token in the way, which is no operator. -/
theorem dead_of_token (hop : t.kind.binaryOp? = none) (hid : t.kind ≠ .identifier)
    (hclose : t.kind ≠ .comma ∧ t.kind ≠ .rightParen)
    (h : Runs (tokenInput b) (.node .negation) (t :: ts) failed) : Dead b (t :: ts) where
  expr := runs_expr_failed (forall_mem_head? hid) h
  operation m hm := runs_operation_failed hm (by simp [Phrase.operatorAt?, hop])
  closing := forall_mem_head? hclose
  ne_nil := List.cons_ne_nil t ts

/-- An operator without an operand behind it. -/
theorem dead_of_operator {op : BinaryOp} (hop : t.kind.binaryOp? = some op)
    (h : Runs (tokenInput b) (.node .negation) ts failed) : Dead b (t :: ts) := by
  have hkind := TokenClass.eq_kind_of_binaryOp? hop
  have hother : t.kind ≠ .identifier ∧ t.kind ≠ .comma ∧ t.kind ≠ .rightParen := by
    rw [hkind]
    cases op <;> decide
  have hnegation : Runs (tokenInput b) (.node .negation) (t :: ts) failed := by
    -- a minus could be a sign, but there is no operand for it either
    cases hsign : t.kind.unaryOp? with
    | some sign => exact runs_signed_failed hsign h
    | none =>
      refine runs_negation_failed ?_
      show t.kind.startsExpression = false
      rw [hkind] at hsign ⊢
      cases op <;> first | rfl | cases hsign
  refine ⟨runs_expr_failed (forall_mem_head? hother.1) hnegation, fun m hm => ?_,
    forall_mem_head? hother.2, List.cons_ne_nil t ts⟩
  by_cases hmem : t.kind ∈ (Rule.ofLevel (m + 1)).operators
  · exact .seqNotSecond (runs_oneOf (inOrder_operators _) hmem)
      (runs_level_failed (by omega) h)
  · exact .seqNotFirst (runs_oneOf_not_mem (text_not_mem_operators _) (forall_mem_head? hmem))

end FlagScript
