import FlagScript.Proofs.Grammar.Derivation
import FlagScript.Proofs.Grammar.Soundness

/-!
# Completeness of the parser

The parser takes the first form that fits and never comes back, and where a sentence has several
derivations it may find none of the one that is given: of `$A ($B) -1` it makes a call less one,
though the sentence is also derived as two statements. What it has not taken yet always goes on as a
sentence can go on behind an operand, though: with operators and operands, and then with whatever
may stand behind the expression. `Tail` says this, every production keeps it
(`productionsComplete`), and so the parser is never stuck in a sentence.
-/

namespace FlagScript

/-! ## What can stand behind an operand -/

/-- A part that a nonterminal derives, with something behind it. -/
def Front (A : Nonterminal) (F : List TokenClass → Prop) (ks : List TokenClass) : Prop :=
  ∃ ls us, ks = ls ++ us ∧ Derives A ls ∧ F us

/-- Operators with operands behind them, and then whatever may stand behind the expression. -/
inductive Tail (E : List TokenClass → Prop) : List TokenClass → Prop where
  | stop {ks : List TokenClass} (h : E ks) : Tail E ks
  | operator {k : TokenClass} {ks ls : List TokenClass} (hk : k.binaryOp?.isSome = true)
      (h : Derives .negation ks) (hs : Tail E ls) : Tail E (k :: (ks ++ ls))

/-- A parenthesis that closes, with something behind it. -/
def Closing (F : List TokenClass → Prop) (ks : List TokenClass) : Prop :=
  ∃ ls, ks = .rightParen :: ls ∧ F ls

/-- What may stand behind an expression does not turn its last operand into something else, except
that a name may get arguments and that a sign may be an operator; and then it goes on like a
tail. -/
structure Follows (E : List TokenClass → Prop) : Prop where
  noStep : ∀ {k ks}, E (k :: ks) → k.stepOp? = none ∧ k.assignOp? = none
  operator : ∀ {k ks}, E (k :: ks) → k.binaryOp?.isSome = true → Front .negation (Tail E) ks
  paren : ∀ {ks}, E (.leftParen :: ks) → Front .expr (Closing (Tail E)) ks

section

variable {E F : List TokenClass → Prop} {k : TokenClass} {ks ls us : List TokenClass}

theorem Operations.tail (h : Operations ls) (hus : Tail E us) : Tail E (ls ++ us) := by
  induction h with
  | nil => exact hus
  | @cons k ks ls hk hnegation _ ih =>
    rw [List.cons_append, List.append_assoc]
    exact .operator hk hnegation ih

/-- A chain of operands begins with one, and a tail follows it. -/
theorem Derives.front {A : Nonterminal} (h : Derives A ls) (hA : A.isChain = true)
    (hus : Tail E us) : Front .negation (Tail E) (ls ++ us) := by
  obtain ⟨front, back, rfl, hfront, hback⟩ := h.operands hA
  exact ⟨front, back ++ us, by simp, hfront, hback.tail hus⟩

theorem Tail.noStep (hE : Follows E) (h : Tail E (k :: ks)) :
    k.stepOp? = none ∧ k.assignOp? = none := by
  cases h with
  | stop h => exact hE.noStep h
  | operator hk =>
    revert hk
    cases k <;> decide

theorem Tail.afterOperator (hE : Follows E) (h : Tail E (k :: ks))
    (hk : k.binaryOp?.isSome = true) : Front .negation (Tail E) ks := by
  cases h with
  | stop h => exact hE.operator h hk
  | operator _ h hs => exact ⟨_, _, rfl, h, hs⟩

theorem Tail.afterParen (hE : Follows E) (h : Tail E (.leftParen :: ks)) :
    Front .expr (Closing (Tail E)) ks := by
  cases h with
  | stop h => exact hE.paren h
  | operator hk => cases hk

/-- Behind an expression in parentheses or in a list of arguments only one thing can stand. -/
theorem follows_closing (hk : k = .comma ∨ k = .rightParen) : Follows (· = k :: ks) := by
  constructor
  case noStep => rintro _ _ ⟨rfl, rfl⟩; rcases hk with rfl | rfl <;> exact ⟨rfl, rfl⟩
  case operator =>
    rintro _ _ ⟨rfl, rfl⟩ hop
    rcases hk with rfl | rfl <;> cases hop
  case paren => rintro _ ⟨rfl, rfl⟩; rcases hk with h | h <;> cases h

end

/-! ## How operands begin -/

/-- An operand in front of `F`, by its first tokens. -/
inductive OperandFront (F : List TokenClass → Prop) : List TokenClass → Prop where
  | unary {k : TokenClass} {ks : List TokenClass} (hk : k = .not ∨ k = .minus)
      (h : Front .negation F ks) : OperandFront F (k :: ks)
  | group {ks : List TokenClass} (h : Front .expr (Closing F) ks) : OperandFront F (.leftParen :: ks)
  | call {ks : List TokenClass} (h : Closing F ks ∨ Front .exprs (Closing F) ks) :
      OperandFront F (.identifier :: .leftParen :: ks)
  | step {k : TokenClass} {ks : List TokenClass} (hk : k = .increment ∨ k = .decrement) (h : F ks) :
      OperandFront F (.identifier :: k :: ks)
  | flag {ks : List TokenClass} (h : F ks) : OperandFront F (.identifier :: ks)
  | literal {k : TokenClass} {ks : List TokenClass} (hk : k.isLiteral = true) (h : F ks) :
      OperandFront F (k :: ks)

theorem Front.operand {F : List TokenClass → Prop} {ks : List TokenClass}
    (h : Front .negation F ks) : OperandFront F ks := by
  obtain ⟨ls, us, rfl, hls, hus⟩ := h
  cases hls with
  | unary hk h => exact .unary (by simpa using hk) ⟨_, us, rfl, h, hus⟩
  | operator _ hk => cases hk
  | next hA hterm =>
    cases hA
    cases hterm with
    | group h => exact .group ⟨_, .rightParen :: us, by simp, h, us, rfl, hus⟩
    | call hargs =>
      cases hargs with
      | noArguments => exact .call (.inl ⟨us, rfl, hus⟩)
      | arguments h => exact .call (.inr ⟨_, .rightParen :: us, by simp, h, us, rfl, hus⟩)
      | next hA => cases hA
      | operator hA => cases hA
    | operator _ hk => cases hk
    | next hA hvalue =>
      cases hA
      cases hvalue with
      | step hk => exact .step (by simpa using hk) hus
      | flag => exact .flag hus
      | literal hk =>
        simp only [List.mem_cons, List.not_mem_nil, or_false] at hk
        exact .literal (by rcases hk with rfl | rfl | rfl | rfl <;> rfl) hus
      | next hA => cases hA
      | operator hA => cases hA

/-! ## What can stand behind a statement -/

/-- Further statements, or none. -/
def Sentence (ks : List TokenClass) : Prop := ks = [] ∨ Derives .script ks

theorem Sentence.front {ks : List TokenClass} (h : Sentence ks) (hne : ks ≠ []) :
    Front .expr Sentence ks := by
  rcases h with rfl | h
  · exact absurd rfl hne
  · cases h with
    | statement h => exact ⟨ks, [], by simp, h, .inl rfl⟩
    | statements h hs => exact ⟨_, _, rfl, h, .inr hs⟩
    | next hA => cases hA
    | operator hA => cases hA

/-- A sentence that does not begin with an assignment begins with an operand. -/
theorem Sentence.operand {k : TokenClass} {ks : List TokenClass} (h : Sentence (k :: ks))
    (hk : k ≠ .identifier) : Front .negation (Tail Sentence) (k :: ks) := by
  obtain ⟨ls, us, hks, hls, hus⟩ := h.front (by simp)
  rw [hks]
  cases hls with
  | next hA h =>
    cases hA
    exact h.front rfl (.stop hus)
  | operator _ hop => cases hop
  | assign =>
    -- an assignment begins with a name
    rw [List.cons_append, List.cons.injEq] at hks
    exact absurd hks.1 hk

theorem follows_sentence : Follows Sentence := by
  have hstarts : ∀ {k ks}, Sentence (k :: ks) → k.startsExpression = true := by
    rintro k ks (h | h)
    · cases h
    · exact h.startsExpression (by simp)
  constructor
  case noStep =>
    intro k ks h
    have hk := hstarts h
    revert hk
    cases k <;> decide
  case operator =>
    intro k ks h hop
    -- only a minus is an operator and begins an expression
    obtain rfl : k = .minus := by
      have hk := hstarts h
      revert hk hop
      cases k <;> decide
    cases (h.operand (by simp)).operand with
    | unary _ h => exact h
    | literal hlit => cases hlit
  case paren =>
    intro ks h
    cases (h.operand (by simp)).operand with
    | unary hk => rcases hk with hk | hk <;> cases hk
    | group h => exact h
    | literal hlit => cases hlit

namespace Phrase

/-! ## The parser goes on -/

/-- A parser takes something, and what it leaves goes on as `F` says. -/
def Passes (x : Parsed Phrase) (F : List TokenClass → Prop) : Prop :=
  ∃ p rest, x = .ok (p, rest) ∧ F (rest.map Token.kind)

/-- No operator as tight as this level, or tighter, stands in front. -/
def Ends (n : Nat) (ks : List TokenClass) : Prop :=
  ∀ k ls op, ks = k :: ls → k.binaryOp? = some op → n < op.level

theorem Passes.imp {x : Parsed Phrase} {F F' : List TokenClass → Prop} (h : Passes x F)
    (hF : ∀ ks, F ks → F' ks) : Passes x F' := by
  obtain ⟨p, rest, hx, hrest⟩ := h
  exact ⟨p, rest, hx, hF _ hrest⟩

/-- What an expression leaves is shorter than what it was read from. -/
theorem length_of_expression {bound : Nat} {ts rest : List Token} {p : Phrase}
    (h : expression bound ts = .ok (p, rest)) : rest.length < ts.length := by
  obtain ⟨used, rfl, hp⟩ := (productionsWritten bound).expression h
  have hpos := List.length_pos_iff.2 hp.ne_nil
  rw [List.length_append]
  omega

theorem length_of_level {bound n : Nat} {ts rest : List Token} {p : Phrase}
    (h : level bound n ts = .ok (p, rest)) : rest.length < ts.length := by
  obtain ⟨used, rfl, hp⟩ := (productionsWritten bound).level h
  have hpos := List.length_pos_iff.2 hp.ne_nil
  rw [List.length_append]
  omega

/-- No production is stuck in front of what it is to take, if the bound on the depth of its calls is
ten times the number of tokens and a little more. -/
structure ProductionsComplete (bound : Nat) : Prop where
  expression : ∀ {E ts}, Follows E → 10 * ts.length + 8 ≤ bound →
    Front .expr E (ts.map Token.kind) → Passes (expression bound ts) E
  level : ∀ {E n ts}, Follows E → 10 * ts.length + n + 2 ≤ bound → n ≤ 5 →
    Front .negation (Tail E) (ts.map Token.kind) →
    Passes (level bound n ts) fun ks => Tail E ks ∧ Ends n ks
  chain : ∀ {E n left ts}, Follows E → 10 * ts.length + 1 ≤ bound → n < 5 →
    Tail E (ts.map Token.kind) → Ends n (ts.map Token.kind) →
    Passes (chain bound n left ts) fun ks => Tail E ks ∧ Ends (n + 1) ks
  prefixed : ∀ {E ts}, Follows E → 10 * ts.length + 1 ≤ bound →
    Front .negation (Tail E) (ts.map Token.kind) → Passes (prefixed bound ts) (Tail E)
  operand : ∀ {E t ts}, Follows E → 10 * ts.length + 10 ≤ bound → t.kind.unaryOp? = none →
    Front .negation (Tail E) (t.kind :: ts.map Token.kind) → Passes (operand bound t ts) (Tail E)
  arguments : ∀ {F id p ts}, 10 * ts.length + 10 ≤ bound →
    Closing F (ts.map Token.kind) ∨ Front .exprs (Closing F) (ts.map Token.kind) →
    Passes (arguments bound id p ts) F
  furtherArguments : ∀ {F id p done ts}, 10 * ts.length + 9 ≤ bound →
    Front .exprs (Closing F) (ts.map Token.kind) → Passes (furtherArguments bound id p done ts) F

variable {bound n : Nat} {E F : List TokenClass → Prop} {ts : List Token}

/-- Behind a chain of every level stands what may stand behind the expression. -/
theorem stop_of_ends {ks : List TokenClass} (h : Tail E ks) (hends : Ends 5 ks) : E ks := by
  cases h with
  | stop h => exact h
  | @operator k ks ls hk _ _ =>
    obtain ⟨op, hop⟩ := Option.isSome_iff_exists.1 hk
    have hlevel := hends k (ks ++ ls) op rfl hop
    have hlt := Expr.level_binaryOp_lt op
    omega

/-- No operand begins like an assignment. -/
theorem assignmentAt?_eq_none (hE : Follows E) (h : Front .negation (Tail E) (ts.map Token.kind)) :
    assignmentAt? ts = none := by
  match ts with
  | [] | [_] => rfl
  | id :: t :: ts =>
    by_cases hid : id.kind = .identifier
    · have hassign : t.kind.assignOp? = none := by
        generalize hks : List.map Token.kind (id :: t :: ts) = ks at h
        rw [List.map_cons, List.map_cons, hid] at hks
        -- the operand begins with this name, so the next token belongs to it or to what follows
        cases h.operand with
        | unary hk => rcases hk with rfl | rfl <;> cases hks
        | group => cases hks
        | call => rw [(List.cons.inj (List.cons.inj hks).2).1]; rfl
        | step hk =>
          rw [(List.cons.inj (List.cons.inj hks).2).1]
          rcases hk with rfl | rfl <;> rfl
        | flag htail =>
          rw [← (List.cons.inj hks).2] at htail
          exact (htail.noStep hE).2
        | literal hk =>
          rw [← (List.cons.inj hks).1] at hk
          cases hk
      simp [assignmentAt?, hassign]
    · simp [assignmentAt?, hid]

theorem expression_passes (ih : ProductionsComplete bound) (hE : Follows E)
    (hb : 10 * ts.length + 8 ≤ bound + 1) (h : Front .expr E (ts.map Token.kind)) :
    Passes (expression (bound + 1) ts) E := by
  obtain ⟨ls, us, hts, hls, hus⟩ := h
  rw [expression]
  cases hls with
  | operator _ hk => cases hk
  | @assign k ks hk h =>
    obtain ⟨id, ts, rfl, hid, hts⟩ := List.map_eq_cons_iff.1 hts
    obtain ⟨t, ts, rfl, ht, hts⟩ := List.map_eq_cons_iff.1 hts
    obtain ⟨op, hop⟩ : ∃ op, t.kind.assignOp? = some op := by
      rw [ht]
      simp only [List.mem_cons, List.not_mem_nil, or_false] at hk
      rcases hk with rfl | rfl | rfl <;> exact ⟨_, rfl⟩
    have hat : assignmentAt? (id :: t :: ts) = some (id, op, t.position, ts) := by
      simp [assignmentAt?, hid, hop]
    simp only [List.length_cons] at hb
    obtain ⟨p, rest, hp, hrest⟩ := ih.expression hE (by omega) ⟨ks, us, hts, h, hus⟩
    rw [hat]
    simp only [hp]
    exact ⟨_, rest, rfl, hrest⟩
  | next hA h =>
    cases hA
    have hfront : Front .negation (Tail E) (ts.map Token.kind) := by
      rw [hts]
      exact h.front rfl (.stop hus)
    -- no assignment begins here, so the loosest level reads on
    rw [assignmentAt?_eq_none hE hfront]
    have hlevel := ih.level hE (by omega) (Nat.le_refl 5) hfront
    exact hlevel.imp fun ks hks => stop_of_ends hks.1 hks.2

theorem level_passes (ih : ProductionsComplete bound) (hE : Follows E)
    (hb : 10 * ts.length + n + 2 ≤ bound + 1) (hn : n ≤ 5)
    (h : Front .negation (Tail E) (ts.map Token.kind)) :
    Passes (level (bound + 1) n ts) fun ks => Tail E ks ∧ Ends n ks := by
  cases n with
  | zero =>
    rw [level]
    refine (ih.prefixed hE (by omega) h).imp fun ks hks => ⟨hks, ?_⟩
    intro k ls op _ _
    cases op <;> decide
  | succ n =>
    obtain ⟨left, rest, hleft, htail, hends⟩ := ih.level hE (n := n) (by omega) (by omega) h
    have hlen := length_of_level hleft
    rw [level, hleft]
    exact ih.chain hE (by omega) (by omega) htail hends

theorem chain_passes {left : Phrase} (ih : ProductionsComplete bound) (hE : Follows E)
    (hb : 10 * ts.length + 1 ≤ bound + 1) (hn : n < 5) (h : Tail E (ts.map Token.kind))
    (hends : Ends n (ts.map Token.kind)) :
    Passes (chain (bound + 1) n left ts) fun ks => Tail E ks ∧ Ends (n + 1) ks := by
  rw [chain]
  cases hat : operatorAt? (n + 1) ts with
  | none =>
    refine ⟨left, ts, rfl, h, ?_⟩
    intro k ls op hts hop
    have hlt := hends k ls op hts hop
    -- an operator of the next level would have been taken
    obtain ⟨t, us, rfl, rfl, _⟩ := List.map_eq_cons_iff.1 hts
    simp only [operatorAt?, hop, ite_eq_right_iff, reduceCtorEq, imp_false] at hat
    omega
  | some found =>
    obtain ⟨op, opAt, rest⟩ := found
    obtain ⟨t, rfl, rfl, ht, _⟩ := eq_cons_of_operatorAt? hat
    have hop : t.kind.binaryOp?.isSome = true := by rw [ht]; cases op <;> rfl
    rw [List.length_cons] at hb
    obtain ⟨right, rest', hright, htail, hends'⟩ :=
      ih.level hE (n := n) (by omega) (by omega) (h.afterOperator hE hop)
    have hlen := length_of_level hright
    simp only [hright]
    exact ih.chain hE (by omega) hn htail hends'

theorem prefixed_passes (ih : ProductionsComplete bound) (hE : Follows E)
    (hb : 10 * ts.length + 1 ≤ bound + 1) (h : Front .negation (Tail E) (ts.map Token.kind)) :
    Passes (prefixed (bound + 1) ts) (Tail E) := by
  cases ts with
  | nil => cases h.operand
  | cons t ts =>
    rw [List.length_cons] at hb
    rw [prefixed]
    cases hop : t.kind.unaryOp? with
    | none => exact ih.operand hE (by omega) hop h
    | some op =>
      have hrest : Front .negation (Tail E) (ts.map Token.kind) := by
        generalize hks : List.map Token.kind (t :: ts) = ks at h
        have hkind := TokenClass.eq_kind_of_unaryOp? hop
        rw [List.map_cons] at hks
        -- of all operands, only a signed one begins with a sign
        cases h.operand with
        | unary _ h => rwa [(List.cons.inj hks).2]
        | literal hk =>
          rw [← (List.cons.inj hks).1, hkind] at hk
          cases op <;> cases hk
        | group | call | step | flag =>
          rw [hkind] at hks
          cases op <;> cases hks
      obtain ⟨x, rest, hx, htail⟩ := ih.prefixed hE (by omega) hrest
      simp only [hx]
      exact ⟨_, rest, rfl, htail⟩

theorem operand_passes {t : Token} (ih : ProductionsComplete bound) (hE : Follows E)
    (hb : 10 * ts.length + 10 ≤ bound + 1) (hop : t.kind.unaryOp? = none)
    (h : Front .negation (Tail E) (t.kind :: ts.map Token.kind)) :
    Passes (operand (bound + 1) t ts) (Tail E) := by
  unfold operand
  generalize hks : t.kind :: ts.map Token.kind = ks at h
  cases h.operand with
  | unary hk =>
    rw [(List.cons.inj hks).1] at hop
    rcases hk with rfl | rfl <;> cases hop
  | group hinner =>
    obtain ⟨ht, rfl⟩ := List.cons.inj hks
    obtain ⟨ls, us, hts, hls, vs, rfl, hvs⟩ := hinner
    -- only the parenthesis that closes can stand behind the content of a group
    obtain ⟨inner, rest, hp, hrest⟩ := ih.expression (follows_closing (.inr rfl)) (by omega)
      ⟨ls, .rightParen :: vs, hts, hls, rfl⟩
    obtain ⟨u, rest, rfl, hu, rfl⟩ := List.map_eq_cons_iff.1 hrest
    rw [if_pos ht, hp]
    exact ⟨.group t.position inner, rest, by simp [startsWith, hu], hvs⟩
  | call hargs =>
    obtain ⟨ht, hts⟩ := List.cons.inj hks
    obtain ⟨u, rest, rfl, hu, rfl⟩ := List.map_eq_cons_iff.1 hts
    rw [List.length_cons] at hb
    rw [if_neg (by simp [ht]), if_pos ht]
    simp only [hu, if_true]
    exact ih.arguments (by omega) hargs
  | step hk htail =>
    obtain ⟨ht, hts⟩ := List.cons.inj hks
    obtain ⟨u, rest, rfl, rfl, rfl⟩ := List.map_eq_cons_iff.1 hts
    rw [if_neg (by simp [ht]), if_pos ht]
    rcases hk with hk | hk
    · simp only [hk]
      exact ⟨_, rest, rfl, htail⟩
    · simp only [hk]
      exact ⟨_, rest, rfl, htail⟩
  | flag htail =>
    obtain ⟨ht, rfl⟩ := List.cons.inj hks
    rw [if_neg (by simp [ht]), if_pos ht]
    cases ts with
    | nil => exact ⟨_, [], rfl, htail⟩
    | cons u rest =>
      rw [List.length_cons] at hb
      by_cases hu : u.kind = .leftParen
      · -- the name takes the group behind it for its only argument
        simp only [hu, if_true]
        rw [List.map_cons, hu] at htail
        obtain ⟨ls, us, hrest, hls, hus⟩ := htail.afterParen hE
        exact ih.arguments (by omega) (.inr ⟨ls, us, hrest, .argument hls, hus⟩)
      · simp only [hu, if_false, (htail.noStep hE).1]
        exact ⟨_, u :: rest, rfl, htail⟩
  | literal hk htail =>
    obtain ⟨rfl, rfl⟩ := List.cons.inj hks
    have hparen : t.kind ≠ .leftParen := by intro ht; rw [ht] at hk; cases hk
    have hid : t.kind ≠ .identifier := by intro ht; rw [ht] at hk; cases hk
    rw [if_neg hparen, if_neg hid, if_pos hk]
    exact ⟨_, ts, rfl, htail⟩

theorem arguments_passes {id : Token} {p : Position} (ih : ProductionsComplete bound)
    (hb : 10 * ts.length + 10 ≤ bound + 1)
    (h : Closing F (ts.map Token.kind) ∨ Front .exprs (Closing F) (ts.map Token.kind)) :
    Passes (arguments (bound + 1) id p ts) F := by
  rw [arguments]
  rcases h with ⟨ls, hts, hls⟩ | h
  · obtain ⟨t, rest, rfl, ht, rfl⟩ := List.map_eq_cons_iff.1 hts
    exact ⟨.call id p [], rest, by simp [startsWith, ht], hls⟩
  · -- an argument does not begin with a parenthesis that closes
    have hfront := h
    obtain ⟨ls, us, hts, hls, _⟩ := hfront
    obtain ⟨k, ks, rfl⟩ := List.exists_cons_of_ne_nil hls.ne_nil
    obtain ⟨t, rest, rfl, ht, _⟩ := List.map_eq_cons_iff.1 hts
    have hstarts := hls.startsExpression (by simp)
    have hclose : k ≠ .rightParen := by rintro rfl; cases hstarts
    simp only [startsWith, startsExpression, ht, hclose, hstarts, decide_false,
      Bool.false_eq_true, if_false, if_true]
    exact ih.furtherArguments (by omega) h

theorem furtherArguments_passes {id : Token} {p : Position} {done : List Phrase}
    (ih : ProductionsComplete bound) (hb : 10 * ts.length + 9 ≤ bound + 1)
    (h : Front .exprs (Closing F) (ts.map Token.kind)) :
    Passes (furtherArguments (bound + 1) id p done ts) F := by
  rw [furtherArguments]
  obtain ⟨ls, us, hts, hls, vs, rfl, hvs⟩ := h
  cases hls with
  | next hA => cases hA
  | operator hA => cases hA
  | argument hls =>
    obtain ⟨arg, rest, harg, hrest⟩ := ih.expression (follows_closing (.inr rfl)) (by omega)
      ⟨ls, .rightParen :: vs, hts, hls, rfl⟩
    obtain ⟨u, rest, rfl, hu, rfl⟩ := List.map_eq_cons_iff.1 hrest
    rw [harg]
    exact ⟨.call id p (done.reverse ++ [arg]), rest, by simp [startsWith, hu], hvs⟩
  | @moreArguments ks ls hks hls =>
    rw [List.append_assoc] at hts
    obtain ⟨arg, rest, harg, hrest⟩ := ih.expression (follows_closing (.inl rfl)) (by omega)
      ⟨ks, .comma :: (ls ++ .rightParen :: vs), hts, hks, rfl⟩
    have hlen := length_of_expression harg
    obtain ⟨u, rest, rfl, hu, hrest⟩ := List.map_eq_cons_iff.1 hrest
    rw [List.length_cons] at hlen
    rw [harg]
    simp only [startsWith, hu, decide_true, if_true, List.tail_cons]
    exact ih.furtherArguments (by omega) ⟨ls, .rightParen :: vs, hrest, hls, vs, rfl, hvs⟩

theorem productionsComplete (bound : Nat) : ProductionsComplete bound := by
  induction bound with
  | zero =>
    -- the bound is never nothing
    constructor
    case expression => intro _ _ _ hb _; omega
    case level => intro _ _ _ _ hb _ _; omega
    case chain => intro _ _ _ _ _ hb _ _ _; omega
    case prefixed => intro _ _ _ hb _; omega
    case operand => intro _ _ _ _ hb _ _; omega
    case arguments => intro _ _ _ _ hb _; omega
    case furtherArguments => intro _ _ _ _ _ hb _; omega
  | succ bound ih =>
    exact ⟨expression_passes ih, level_passes ih, chain_passes ih, prefixed_passes ih,
      operand_passes ih, arguments_passes ih, furtherArguments_passes ih⟩

end Phrase

end FlagScript
