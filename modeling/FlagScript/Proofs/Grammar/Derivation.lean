import FlagScript.Proofs.Grammar.Written

/-!
# Derivations of scripts

The context-free grammar of scripts, over the classes of tokens:

    Script     := Expr Script | Expr
    Expr       := id '=' Expr | id '+=' Expr | id '-=' Expr | BoolOp
    BoolOp     := BoolOp ('||' | '&&') Equality | Equality
    Equality   := Equality ('==' | '!=') Comparison | Comparison
    Comparison := Comparison ('<' | '>' | '<=' | '>=') Sum | Sum
    Sum        := Sum ('+' | '-') Product | Product
    Product    := Product ('*' | '/') Negation | Negation
    Negation   := ('!' | '-') Negation | Term
    Term       := '(' Expr ')' | id ArgList | Value
    ArgList    := '(' ')' | '(' Exprs ')'
    Exprs      := Expr ',' Exprs | Expr
    Value      := id '++' | id '--' | id | num | @str | str | bool

It is ambiguous: `$A -1` and `$A ($B)` are one statement or two. Whatever tokens write a phrase, the
grammar derives (`Written.derives`). In the other direction an expression is cut into operands with
operators between them (`Derives.operands`), where the levels of the operators no longer show.
-/

namespace FlagScript

inductive Nonterminal where
  | script | expr | boolOp | equality | comparison | sum | product | negation | term
  | argList | exprs | value

namespace Nonterminal

/-- The alternative without an operator. -/
def next? : Nonterminal → Option Nonterminal
  | expr => some boolOp
  | boolOp => some equality
  | equality => some comparison
  | comparison => some sum
  | sum => some product
  | product => some negation
  | negation => some term
  | term => some value
  | _ => none

/-- The operators of `A := A operator B`, where `B` is the alternative without one. -/
def operators : Nonterminal → List TokenClass
  | boolOp => [.or, .and]
  | equality => [.equal, .notEqual]
  | comparison => [.less, .greater, .lessOrEqual, .greaterOrEqual]
  | sum => [.plus, .minus]
  | product => [.star, .slash]
  | _ => []

end Nonterminal

open Nonterminal in
inductive Derives : Nonterminal → List TokenClass → Prop where
  | statement {ks : List TokenClass} (h : Derives expr ks) : Derives script ks
  | statements {ks ls : List TokenClass} (h : Derives expr ks) (hs : Derives script ls) :
      Derives script (ks ++ ls)
  | next {A B : Nonterminal} {ks : List TokenClass} (hA : A.next? = some B) (h : Derives B ks) :
      Derives A ks
  | operator {A B : Nonterminal} {k : TokenClass} {ks ls : List TokenClass}
      (hA : A.next? = some B) (hk : k ∈ A.operators) (hleft : Derives A ks)
      (hright : Derives B ls) : Derives A (ks ++ k :: ls)
  | assign {k : TokenClass} {ks : List TokenClass} (hk : k ∈ [.set, .incrementBy, .decrementBy])
      (h : Derives expr ks) : Derives expr (.identifier :: k :: ks)
  | unary {k : TokenClass} {ks : List TokenClass} (hk : k ∈ [.not, .minus])
      (h : Derives negation ks) : Derives negation (k :: ks)
  | group {ks : List TokenClass} (h : Derives expr ks) :
      Derives term (.leftParen :: (ks ++ [.rightParen]))
  | call {ks : List TokenClass} (h : Derives argList ks) : Derives term (.identifier :: ks)
  | noArguments : Derives argList [.leftParen, .rightParen]
  | arguments {ks : List TokenClass} (h : Derives exprs ks) :
      Derives argList (.leftParen :: (ks ++ [.rightParen]))
  | argument {ks : List TokenClass} (h : Derives expr ks) : Derives exprs ks
  | moreArguments {ks ls : List TokenClass} (h : Derives expr ks) (hs : Derives exprs ls) :
      Derives exprs (ks ++ .comma :: ls)
  | step {k : TokenClass} (hk : k ∈ [.increment, .decrement]) : Derives value [.identifier, k]
  | flag : Derives value [.identifier]
  | literal {k : TokenClass} (hk : k ∈ [.number, .quotedText, .text, .boolean]) : Derives value [k]

/-! ## What the parser takes is derived -/

namespace Nonterminal

/-- The phrases of a level, the tightest first. -/
def ofLevel : Nat → Nonterminal
  | 0 => negation
  | 1 => product
  | 2 => sum
  | 3 => comparison
  | 4 => equality
  | 5 => boolOp
  | _ => expr

theorem next?_ofLevel {n : Nat} (hn : n < 6) : (ofLevel (n + 1)).next? = some (ofLevel n) := by
  match n with
  | 0 | 1 | 2 | 3 | 4 | 5 => rfl
  | n + 6 => omega

theorem kind_mem_operators {op : BinaryOp} {n : Nat} (h : op.level = n) :
    op.kind ∈ (ofLevel n).operators := by
  subst h
  cases op <;> decide

end Nonterminal

open Nonterminal

theorem Derives.weaken {n m : Nat} {ks : List TokenClass} (h : Derives (ofLevel n) ks)
    (hnm : n ≤ m) : Derives (ofLevel m) ks := by
  induction m with
  | zero =>
    obtain rfl : n = 0 := by omega
    exact h
  | succ m ih =>
    by_cases hm : n = m + 1
    · subst hm
      exact h
    · have hks := ih (by omega)
      by_cases hlt : m < 6
      · exact .next (next?_ofLevel hlt) hks
      · -- there is nothing looser than an assignment
        have hsame : ofLevel (m + 1) = ofLevel m := by
          obtain ⟨m, rfl⟩ : ∃ m', m = m' + 6 := ⟨m - 6, by omega⟩
          rfl
        rwa [hsame]

theorem Derives.ofTerm {ks : List TokenClass} (h : Derives .term ks) (n : Nat) :
    Derives (ofLevel n) ks := by
  have hnegation : Derives (ofLevel 0) ks := .next rfl h
  exact hnegation.weaken (Nat.zero_le n)

namespace Phrase

mutual

theorem Written.derives : ∀ {p : Phrase} {n : Nat} {ts : List Token}, Written n p ts →
    Derives (ofLevel n) (ts.map Token.kind)
  | .literal t, _, _, h => by
    obtain ⟨ht⟩ := h
    have hk : t.kind ∈ [.number, .quotedText, .text, .boolean] := by
      cases hkind : t.kind <;> simp_all [TokenClass.isLiteral]
    exact (Derives.next rfl (.literal hk)).ofTerm _
  | .flag t, _, _, h => by
    obtain _ | ⟨ht⟩ := h
    rw [List.map_singleton, ht]
    exact (Derives.next rfl .flag).ofTerm _
  | .step t op, _, _, h => by
    obtain _ | _ | ⟨ht, hu, hop⟩ := h
    rw [List.map_cons, List.map_singleton, ht, hu]
    have hk : op.kind ∈ [.increment, .decrement] := by
      revert hop
      cases op <;> decide
    exact (Derives.next rfl (.step hk)).ofTerm _
  | .group _ _, _, _, h => by
    obtain _ | _ | _ | ⟨ht, hinner, hu⟩ := h
    rw [List.map_cons, List.map_append, List.map_singleton, ht, hu]
    exact (Derives.group hinner.derives).ofTerm _
  | .call _ _ args, _, _, h => by
    obtain _ | _ | _ | _ | ⟨ht, hu, hargs, hv⟩ := h
    rw [List.map_cons, List.map_cons, List.map_append, List.map_singleton, ht, hu, hv]
    -- without arguments there is nothing between the parentheses
    cases args with
    | nil =>
      cases hargs
      exact (Derives.call .noArguments).ofTerm _
    | cons _ _ => exact (Derives.call (.arguments (hargs.derives (by simp)))).ofTerm _
  | .unary op _ _, n, _, h => by
    obtain _ | _ | _ | _ | _ | ⟨ht, hoperand⟩ := h
    rw [List.map_cons, ht]
    have hk : op.kind ∈ [.not, .minus] := by cases op <;> decide
    have hnegation : Derives (ofLevel 0) (op.kind :: _) := .unary hk hoperand.derives
    exact hnegation.weaken (Nat.zero_le n)
  | .binary op _ _ _, n, _, h => by
    obtain _ | _ | _ | _ | _ | _ | @⟨_, m, _, _, _, _, _, _, hm, hop, hleft, ht, hright⟩ := h
    rw [List.map_append, List.map_cons, ht]
    have hlevel : m < 6 := by
      have hlt : op.level < 6 := Expr.level_binaryOp_lt op
      omega
    have hboth : Derives (ofLevel (m + 1)) _ :=
      .operator (next?_ofLevel hlevel) (kind_mem_operators hop) hleft.derives hright.derives
    exact hboth.weaken hm
  | .assign _ op _ _, _, _, h => by
    obtain _ | _ | _ | _ | _ | _ | _ | ⟨hn, ht, hu, hop, hvalue⟩ := h
    rw [List.map_cons, List.map_cons, ht, hu]
    have hk : op.kind ∈ [.set, .incrementBy, .decrementBy] := by
      revert hop
      cases op <;> decide
    have hassign : Derives (ofLevel 6) (.identifier :: op.kind :: _) :=
      .assign hk hvalue.derives
    exact hassign.weaken hn

theorem WrittenArguments.derives : ∀ {ps : List Phrase} {ts : List Token}, WrittenArguments ps ts →
    ps ≠ [] → Derives .exprs (ts.map Token.kind)
  | [], _, _, hne => absurd rfl hne
  | [_], _, h, _ => by
    cases h with
    | last hp => exact .argument hp.derives
  | _ :: _ :: _, _, h, _ => by
    cases h with
    | cons hp ht hps =>
      rw [List.map_append, List.map_cons, ht]
      exact .moreArguments hp.derives (hps.derives (by simp))

end

theorem WrittenStatements.derives {ps : List Phrase} {ts : List Token}
    (h : WrittenStatements ps ts) (hne : ps ≠ []) : Derives .script (ts.map Token.kind) := by
  induction h with
  | nil => exact absurd rfl hne
  | @cons p ps ts us hp hps ih =>
    cases hps with
    | nil =>
      rw [List.append_nil]
      exact .statement hp.derives
    | cons _ _ =>
      rw [List.map_append]
      exact .statements hp.derives (ih (by simp))

end Phrase

/-! ## Operands with operators between them -/

/-- Operators, each with an operand behind it. -/
inductive Operations : List TokenClass → Prop where
  | nil : Operations []
  | cons {k : TokenClass} {ks ls : List TokenClass} (hk : k.binaryOp?.isSome = true)
      (h : Derives .negation ks) (hs : Operations ls) : Operations (k :: (ks ++ ls))

theorem Operations.append {ks ls : List TokenClass} (h : Operations ks) (h' : Operations ls) :
    Operations (ks ++ ls) := by
  induction h with
  | nil => exact h'
  | cons hk hnegation _ ih =>
    rw [List.cons_append, List.append_assoc]
    exact .cons hk hnegation ih

/-- Whether a nonterminal derives operands with operators between them. -/
def Nonterminal.isChain : Nonterminal → Bool
  | boolOp | equality | comparison | sum | product | negation => true
  | _ => false

theorem Nonterminal.isSome_binaryOp?_of_mem {A : Nonterminal} {k : TokenClass}
    (h : k ∈ A.operators) : A.isChain = true ∧ k.binaryOp?.isSome = true := by
  cases A <;> simp only [operators, List.mem_cons, List.not_mem_nil, or_false] at h
  all_goals rcases h with rfl | rfl | rfl | rfl <;> exact ⟨rfl, rfl⟩

/-- The operator of a derivation stands between the operations of its left operand and the first
operand on its right. -/
theorem Derives.operands {A : Nonterminal} {ks : List TokenClass} (h : Derives A ks)
    (hA : A.isChain = true) :
    ∃ ls us, ks = ls ++ us ∧ Derives .negation ls ∧ Operations us := by
  induction h with
  | @next A B ks hnext h ih =>
    cases A with
    | negation => exact ⟨ks, [], by simp, .next hnext h, .nil⟩
    | boolOp | equality | comparison | sum | product =>
      cases hnext
      exact ih rfl
    | script | expr | term | argList | exprs | value => cases hA
  | @operator A B k ks ls hnext hk hleft hright ihleft ihright =>
    obtain ⟨hchain, hop⟩ := isSome_binaryOp?_of_mem hk
    have hB : B.isChain = true := by
      cases A <;> cases hnext <;> first | rfl | cases hk
    obtain ⟨front, back, rfl, hfront, hback⟩ := ihleft hchain
    obtain ⟨front', back', rfl, hfront', hback'⟩ := ihright hB
    refine ⟨front, back ++ k :: (front' ++ back'), by simp, hfront, ?_⟩
    exact hback.append (.cons hop hfront' hback')
  | unary hk h _ => exact ⟨_, [], by simp, .unary hk h, .nil⟩
  | statement | statements | assign | group | call | noArguments | arguments | argument
  | moreArguments | step | flag | literal => cases hA

/-! ## How derivations begin -/

theorem Derives.ne_nil {A : Nonterminal} {ks : List TokenClass} (h : Derives A ks) : ks ≠ [] := by
  induction h with
  | statement _ ih | next _ _ ih | argument _ ih => exact ih
  | _ => simp_all

/-- Everything but a list of arguments begins as an expression does. -/
theorem Derives.startsExpression {A : Nonterminal} {k : TokenClass} {ks : List TokenClass}
    (h : Derives A (k :: ks)) (hA : A ≠ .argList) : k.startsExpression = true := by
  generalize hls : k :: ks = ls at h
  induction h generalizing ks with
  | statement _ ih | argument _ ih => exact ih (by simp) hls
  | statements h _ ih _ | moreArguments h _ ih _ | operator _ _ h _ ih _ =>
    -- the first part is not empty, so it holds the first token
    obtain ⟨k', ks', hks⟩ := List.exists_cons_of_ne_nil h.ne_nil
    rw [hks, List.cons_append, List.cons.injEq] at hls
    obtain ⟨rfl, -⟩ := hls
    exact ih (by first | exact hA | simp) hks.symm
  | next hnext _ ih =>
    refine ih ?_ hls
    rintro rfl
    cases ‹Nonterminal› <;> cases hnext
  | unary hk _ _ =>
    cases hls
    simp only [List.mem_cons, List.not_mem_nil, or_false] at hk
    rcases hk with rfl | rfl <;> rfl
  | literal hk =>
    cases hls
    simp only [List.mem_cons, List.not_mem_nil, or_false] at hk
    rcases hk with rfl | rfl | rfl | rfl <;> rfl
  | assign | group | call | step | flag => cases hls; rfl
  | noArguments | arguments => exact absurd rfl hA

end FlagScript
