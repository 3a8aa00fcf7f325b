import FlagScript.Proofs.Grammar.Shape
import FlagScript.Proofs.Grammar.Soundness
import FlagScript.Proofs.Nesting.Chain

/-!
# Building from the trees of phrases

Whatever tokens write a phrase, they are the leaves of a tree of the grammar, and building from
that tree gives the meaning of the phrase (`Written.hasTree`). A chain of operators hangs on the
left in the phrase and is flat in the tree, so its head and its parts are taken together. The
induction is on the number of tokens, and for each number on the level.
-/

namespace FlagScript

open Failure (lift)

namespace Failure

variable {α β : Type}

theorem lift_bind (x : Except Error α) (f : α → Except Error β) :
    lift (x >>= f) = lift x >>= fun a => lift (f a) := by
  cases x <;> rfl

theorem lift_pure (a : α) : lift (pure a) = pure a := rfl

end Failure

namespace Rule

/-- The production of the phrases of a level. -/
def ofLevel : Nat → Rule
  | 0 => negation
  | 1 => product
  | 2 => sum
  | 3 => comparison
  | 4 => equality
  | 5 => boolOp
  | _ => expr

theorem operand?_ofLevel {n : Nat} (hn : n < 5) :
    (ofLevel (n + 1)).operand? = some (ofLevel n) := by
  match n with
  | 0 | 1 | 2 | 3 | 4 => rfl
  | n + 5 => omega

theorem kind_mem_operators {op : BinaryOp} {n : Nat} (h : op.level = n) :
    op.kind ∈ (ofLevel n).operators := by
  subst h
  cases op <;> decide

end Rule

namespace ParseTree

theorem leavesOf_append (cs ds : List ParseTree) :
    leavesOf (cs ++ ds) = leavesOf cs ++ leavesOf ds := by
  induction cs with
  | nil => rfl
  | cons c cs ih => rw [List.cons_append, leavesOf, leavesOf, ih, List.append_assoc]

theorem buildNegation_eq {t : ParseTree} (h : t.label = .rule .negation) (depth : Nat) :
    t.buildNegation depth = t.buildChain depth := by
  cases t with
  | leaf u => cases h
  | node r cs => cases h; rfl

/-- Builds from the tree of an expression or of a chain. -/
def buildLevel (n depth : Nat) (t : ParseTree) : Except Failure Expr :=
  if n ≤ 5 then t.buildChain depth else t.buildExpr depth

end ParseTree

namespace Phrase

open ParseTree (leaf node leavesOf label_leaf label_node buildExpr buildAssign buildChain
  buildFurther buildNegated buildTerm buildGroup buildCall buildArgList buildArguments buildLevel)

/-- The tree of a phrase as a phrase of a level: its leaves are the tokens that write the phrase,
and what is built from it is the meaning of the phrase. -/
structure Builds (n : Nat) (p : Phrase) (ts : List Token) (t : ParseTree) : Prop where
  valid : t.Valid
  label : t.label = .rule (.ofLevel n)
  leaves : t.leaves = ts
  builds : ∀ depth, t.buildLevel n depth = lift (p.meaning depth)

/-! ## Operands -/

/-- What stands alone in a negation. -/
structure BuildsTerm (p : Phrase) (ts : List Token) (t : ParseTree) : Prop where
  valid : t.Valid
  isTerm : Rule.isTerm t.label = true
  leaves : t.leaves = ts
  builds : ∀ depth, t.buildTerm depth = lift (p.meaning depth)

variable {n : Nat} {p : Phrase} {ts : List Token} {t : ParseTree}

theorem BuildsTerm.negation (h : BuildsTerm p ts t) : Builds 0 p ts (node .negation [t]) where
  valid := .node (.inr ⟨t.label, h.isTerm, rfl⟩) (List.forall_mem_singleton.2 h.valid)
  label := rfl
  leaves := by rw [ParseTree.leaves, leavesOf, leavesOf, List.append_nil, h.leaves]
  builds depth := by
    rw [buildLevel, if_pos (by decide), buildChain, buildNegated,
      ParseTree.operator?_unaryOp?_of_isTerm h.isTerm]
    exact h.builds depth

theorem buildsTerm_literal {u : Token} (h : u.kind.isLiteral = true) :
    BuildsTerm (literal u) [u] (leaf u) where
  valid := .leaf u
  isTerm := by simp [ParseTree.label, Rule.isTerm, h]
  leaves := rfl
  builds depth := by
    have hne : u.kind ≠ .identifier := fun hid => by simp [hid, TokenClass.isLiteral] at h
    rw [buildTerm, if_neg hne, if_pos h, meaning]

theorem buildsTerm_flag {u : Token} (h : u.kind = .identifier) :
    BuildsTerm (flag u) [u] (leaf u) where
  valid := .leaf u
  isTerm := by simp [ParseTree.label, Rule.isTerm, h]
  leaves := rfl
  builds depth := by rw [buildTerm, if_pos h, meaning]; rfl

/-- The production of an assignment behind a flag, without a value. -/
def stepRule : AssignOp → Rule
  | .decrement => .decr
  | _ => .incr

theorem buildsTerm_step {u v : Token} {op : AssignOp} (hu : u.kind = .identifier)
    (hv : v.kind = op.kind) (hop : op.takesValue = false) :
    BuildsTerm (step u op) [u, v] (node (stepRule op) [leaf u, leaf v]) := by
  have hchildren : ∀ c ∈ [leaf u, leaf v], c.Valid := by
    simp only [List.forall_mem_cons]
    exact ⟨.leaf u, .leaf v, List.forall_mem_nil _⟩
  cases op with
  | increment | decrement =>
    refine ⟨.node ?_ hchildren, rfl, rfl, fun depth => rfl⟩
    simp [stepRule, Rule.Production, ParseTree.label, hu, hv, AssignOp.kind]
  | set | incrementBy | decrementBy => cases hop

theorem Builds.group {u v : Token} (h : Builds 6 p ts t) (hu : u.kind = .leftParen)
    (hv : v.kind = .rightParen) :
    BuildsTerm (.group u.position p) (u :: (ts ++ [v])) (node .group [leaf u, t, leaf v]) where
  valid := by
    refine .node ?_ ?_
    · simp [Rule.Production, hu, hv, h.label, Rule.ofLevel]
    · simp only [List.forall_mem_cons]
      exact ⟨.leaf u, h.valid, .leaf v, List.forall_mem_nil _⟩
  isTerm := rfl
  leaves := by simp [ParseTree.leaves, leavesOf, h.leaves]
  builds depth := by
    have hparen : ¬(leaf u).label = .rule .expr := by simp
    have hlabel : t.label = .rule .expr := h.label
    have hinner : t.buildExpr (depth + 1) = lift (p.meaning (depth + 1)) := h.builds (depth + 1)
    rw [buildTerm, buildGroup, if_neg hparen, buildGroup, if_pos hlabel, hinner, meaning]
    simp only [Failure.lift_bind, Failure.lift_pure]
    rfl

theorem Builds.unary {u : Token} {op : UnaryOp} (h : Builds 0 p ts t) (hu : u.kind = op.kind) :
    Builds 0 (.unary op u.position p) (u :: ts) (node .negation [leaf u, t]) where
  valid := by
    refine .node (.inl ⟨u.kind, ?_, ?_⟩) ?_
    · cases op <;> simp [hu, UnaryOp.kind]
    · simp [h.label, Rule.ofLevel]
    · simp only [List.forall_mem_cons]
      exact ⟨.leaf u, h.valid, List.forall_mem_nil _⟩
  label := rfl
  leaves := by simp [ParseTree.leaves, leavesOf, h.leaves]
  builds depth := by
    have hop : (leaf u).operator? TokenClass.unaryOp? = some op := by
      rw [ParseTree.operator?, hu]
      cases op <;> rfl
    have hoperand : t.buildNegation (depth + 1) = lift (p.meaning (depth + 1)) := by
      rw [← h.builds, ParseTree.buildNegation_eq h.label]
      rfl
    rw [buildLevel, if_pos (by decide), buildChain, buildNegated, hop]
    simp only [hoperand, meaning, Failure.lift_bind, Failure.lift_pure]
    rfl

/-! ## Expressions -/

theorem Builds.assign {u v : Token} {op : AssignOp} (h : Builds 6 p ts t)
    (hu : u.kind = .identifier) (hv : v.kind = op.kind) (hop : op.takesValue = true) :
    Builds 6 (.assign u op v.position p) (u :: v :: ts)
      (node .expr [node .assign [leaf u, leaf v, t]]) where
  valid := by
    refine .node (.inl rfl) (List.forall_mem_singleton.2 (.node ⟨v.kind, ?_, ?_⟩ ?_))
    · cases op <;> simp_all [AssignOp.kind, AssignOp.takesValue]
    · simp [hu, h.label, Rule.ofLevel]
    · simp only [List.forall_mem_cons]
      exact ⟨.leaf u, .leaf v, h.valid, List.forall_mem_nil _⟩
  label := rfl
  leaves := by simp [ParseTree.leaves, leavesOf, h.leaves]
  builds depth := by
    have hassign : (leaf v).operator? TokenClass.assignOp? = some op := by
      rw [ParseTree.operator?, hv]
      cases op <;> first | rfl | cases hop
    have hvalue : t.buildExpr (depth + 1) = lift (p.meaning (depth + 1)) := h.builds (depth + 1)
    rw [buildLevel, if_neg (by decide), buildExpr]
    simp only [label_node, buildAssign, hassign, hvalue, meaning, Failure.lift_bind,
      Failure.lift_pure]
    rfl

/-- An expression that is no assignment. -/
theorem Builds.expr (h : Builds 5 p ts t) : Builds 6 p ts (node .expr [t]) where
  valid := .node (.inr (by simp [h.label, Rule.ofLevel])) (List.forall_mem_singleton.2 h.valid)
  label := rfl
  leaves := by simp [ParseTree.leaves, leavesOf, h.leaves]
  builds depth := by
    have hlabel : t.label = .rule .boolOp := h.label
    rw [buildLevel, if_neg (by decide), buildExpr, hlabel]
    exact h.builds depth

/-! ## Arguments -/

/-- The trees of the arguments of a call, with the commas between them. -/
structure BuildsArguments (ps : List Phrase) (ts : List Token) (cs : List ParseTree) : Prop where
  valid : ∀ c ∈ cs, c.Valid
  labels : ps ≠ [] → Rule.Arguments (cs.map ParseTree.label)
  nil : ps = [] → cs = []
  leaves : leavesOf cs = ts
  /-- Behind them stands the parenthesis that closes the list. -/
  builds : ∀ depth (close : Token),
    buildArguments depth (cs ++ [leaf close]) = lift (meanings depth ps)

variable {ps : List Phrase} {us : List Token} {cs : List ParseTree}

theorem buildsArguments_nil : BuildsArguments [] [] [] where
  valid := List.forall_mem_nil _
  labels h := absurd rfl h
  nil _ := rfl
  leaves := rfl
  builds _ _ := rfl

theorem Builds.last (h : Builds 6 p ts t) : BuildsArguments [p] ts [t] where
  valid := List.forall_mem_singleton.2 h.valid
  labels _ := by
    have hlabel : t.label = .rule .expr := h.label
    rw [List.map_singleton, hlabel]
    exact .last
  nil h := absurd h (List.cons_ne_nil _ _)
  leaves := by simp [leavesOf, h.leaves]
  builds depth close := by
    have hlabel : t.label = .rule .expr := h.label
    have hexpr : t.buildExpr depth = lift (p.meaning depth) := h.builds depth
    rw [List.singleton_append, buildArguments, if_pos hlabel, hexpr]
    simp only [meanings, Failure.lift_bind]
    rfl

theorem BuildsArguments.cons {u : Token} (h : Builds 6 p ts t) (hu : u.kind = .comma)
    (hs : BuildsArguments ps us cs) (hps : ps ≠ []) :
    BuildsArguments (p :: ps) (ts ++ u :: us) (t :: leaf u :: cs) where
  valid := by
    simp only [List.forall_mem_cons]
    exact ⟨h.valid, .leaf u, hs.valid⟩
  labels _ := by
    have hlabel : t.label = .rule .expr := h.label
    rw [List.map_cons, List.map_cons, hlabel, label_leaf, hu]
    exact .more (hs.labels hps)
  nil h := absurd h (List.cons_ne_nil _ _)
  leaves := by simp [leavesOf, ParseTree.leaves, h.leaves, hs.leaves]
  builds depth close := by
    have hlabel : t.label = .rule .expr := h.label
    have hcomma : ¬(leaf u).label = .rule .expr := by simp
    have hexpr : t.buildExpr depth = lift (p.meaning depth) := h.builds depth
    rw [List.cons_append, buildArguments, if_pos hlabel, hexpr, List.cons_append, buildArguments,
      if_neg hcomma, hs.builds]
    simp only [meanings, Failure.lift_bind]
    rfl

theorem BuildsArguments.call {u v w : Token} (h : BuildsArguments ps ts cs)
    (hu : u.kind = .identifier) (hv : v.kind = .leftParen) (hw : w.kind = .rightParen) :
    BuildsTerm (.call u v.position ps) (u :: v :: (ts ++ [w]))
      (node .call [leaf u, node .argList (leaf v :: (cs ++ [leaf w]))]) where
  valid := by
    have hargList : (node .argList (leaf v :: (cs ++ [leaf w]))).Valid := by
      refine .node ?_ ?_
      · cases ps with
        | nil =>
          obtain rfl := h.nil rfl
          exact .inl (by simp [hv, hw])
        | cons p ps => exact .inr ⟨_, h.labels (List.cons_ne_nil p ps), by simp [hv, hw]⟩
      · simp only [List.forall_mem_cons, List.forall_mem_append]
        exact ⟨.leaf v, h.valid, .leaf w, List.forall_mem_nil _⟩
    refine .node ?_ ?_
    · simp [Rule.Production, hu]
    · simp only [List.forall_mem_cons]
      exact ⟨.leaf u, hargList, List.forall_mem_nil _⟩
  isTerm := rfl
  leaves := by simp [ParseTree.leaves, leavesOf, ParseTree.leavesOf_append, h.leaves]
  builds depth := by
    have hparen : ¬(leaf v).label = .rule .expr := by simp
    have hargs : (node .argList (leaf v :: (cs ++ [leaf w]))).buildArgList (depth + 1) =
        lift (meanings (depth + 1) ps) := by
      rw [buildArgList, buildArguments, if_neg hparen, h.builds]
    rw [buildTerm, buildCall, hargs, meaning]
    simp only [Failure.lift_bind, Failure.lift_pure]
    rfl

/-! ## Chains of operators -/

/-- The operators of a chain with their operands, as they are written. -/
inductive WrittenParts (n : Nat) : List ChainPart → List Token → Prop where
  | nil : WrittenParts n [] []
  | cons {u : Token} {op : BinaryOp} {operand : Phrase} {parts : List ChainPart}
      {ts us : List Token} (hu : u.kind = op.kind) (hop : op.level = n + 1)
      (hoperand : Written n operand ts) (hparts : WrittenParts n parts us) :
      WrittenParts n (⟨op, u.position, operand⟩ :: parts) (u :: (ts ++ us))

theorem WrittenParts.append {parts more : List ChainPart} (h : WrittenParts n parts ts)
    (h' : WrittenParts n more us) : WrittenParts n (parts ++ more) (ts ++ us) := by
  induction h with
  | nil => exact h'
  | cons hu hop hoperand _ ih =>
    rw [List.cons_append, List.cons_append, List.append_assoc]
    exact .cons hu hop hoperand ih

/-- A chain is written by its first operand and the operators behind it. -/
theorem Written.chain (hn : n < 5) : ∀ {p : Phrase} {ts : List Token}, Written (n + 1) p ts →
    ∃ us vs, ts = us ++ vs ∧ Written n (p.chainHead (n + 1)) us ∧
      WrittenParts n (p.chainParts (n + 1)) vs
  | .binary op opAt left right, _, h => by
    obtain _ | _ | _ | _ | _ | _ | @⟨_, m, u, _, _, _, front, back, hm, hop, hleft, hu, hright⟩ := h
    by_cases hlevel : op.level = n + 1
    · -- an operator of this level is one more part behind its left side's chain
      have hsame : m = n := by omega
      rw [hsame] at hleft hright
      obtain ⟨us, vs, rfl, hhead, hparts⟩ := hleft.chain hn
      rw [chainHead, if_pos hlevel, chainParts, if_pos hlevel]
      refine ⟨us, vs ++ (u :: (back ++ [])), by simp, hhead, ?_⟩
      exact hparts.append (.cons hu hlevel hright .nil)
    · -- a tighter operator heads a chain without parts
      rw [chainHead, if_neg hlevel, chainParts, if_neg hlevel]
      exact ⟨_, [], (List.append_nil _).symm, .binary (by omega) hop hleft hu hright, .nil⟩
  | .literal _, ts, h => ⟨ts, [], by simp, by cases h with | literal ht => exact .literal ht, .nil⟩
  | .flag _, ts, h => ⟨ts, [], by simp, by cases h with | flag ht => exact .flag ht, .nil⟩
  | .step _ _, ts, h =>
    ⟨ts, [], by simp, by cases h with | step ht hu hop => exact .step ht hu hop, .nil⟩
  | .group _ _, ts, h =>
    ⟨ts, [], by simp, by cases h with | group ht hinner hu => exact .group ht hinner hu, .nil⟩
  | .call _ _ _, ts, h =>
    ⟨ts, [], by simp, by cases h with | call ht hu hargs hv => exact .call ht hu hargs hv, .nil⟩
  | .unary _ _ _, ts, h =>
    ⟨ts, [], by simp, by cases h with | unary ht hoperand => exact .unary ht hoperand, .nil⟩
  | .assign _ _ _ _, _, h => by
    cases h with
    | assign hsix => omega

/-- An expression is an assignment or of the level below. -/
theorem Written.assigned (h : Written 6 p ts) :
    (∃ u v op value us, p = .assign u op v.position value ∧ ts = u :: v :: us ∧
      u.kind = .identifier ∧ v.kind = op.kind ∧ op.takesValue = true ∧ Written 6 value us) ∨
    Written 5 p ts := by
  cases h with
  | assign hn ht hu hop hvalue => exact .inl ⟨_, _, _, _, _, rfl, rfl, ht, hu, hop, hvalue⟩
  | literal ht => exact .inr (.literal ht)
  | flag ht => exact .inr (.flag ht)
  | step ht hu hop => exact .inr (.step ht hu hop)
  | group ht hinner hu => exact .inr (.group ht hinner hu)
  | call ht hu hargs hv => exact .inr (.call ht hu hargs hv)
  | unary ht hoperand => exact .inr (.unary ht hoperand)
  | @binary n m t op left right us vs hm hop hleft ht hright =>
    have hlevel : op.level < 6 := Expr.level_binaryOp_lt op
    exact .inr (.binary (by omega) hop hleft ht hright)

/-- The trees of the operators of a chain and of their operands. -/
structure BuildsParts (n : Nat) (parts : List ChainPart) (ts : List Token) (cs : List ParseTree) :
    Prop where
  valid : ∀ c ∈ cs, c.Valid
  labels : (Rule.ofLevel (n + 1)).Operations (.ofLevel n) (cs.map ParseTree.label)
  leaves : leavesOf cs = ts
  length : cs.length = 2 * parts.length
  /-- Every other tree is an operator. -/
  places : ∀ i part, parts[i]? = some part → ∃ c, cs[2 * i]? = some c ∧ c.position = part.opAt
  builds : ∀ level p left, buildFurther level p left cs = lift (chainFold level left parts)

theorem buildsParts_nil (n : Nat) : BuildsParts n [] [] [] where
  valid := List.forall_mem_nil _
  labels := .nil
  leaves := rfl
  length := rfl
  places := by simp
  builds _ _ _ := rfl

theorem Builds.parts {u : Token} {op : BinaryOp} {parts : List ChainPart} (hn : n < 5)
    (h : Builds n p ts t) (hu : u.kind = op.kind) (hop : op.level = n + 1)
    (hs : BuildsParts n parts us cs) :
    BuildsParts n (⟨op, u.position, p⟩ :: parts) (u :: (ts ++ us)) (leaf u :: t :: cs) where
  valid := by
    simp only [List.forall_mem_cons]
    exact ⟨.leaf u, h.valid, hs.valid⟩
  labels := by
    rw [List.map_cons, List.map_cons, label_leaf, h.label, hu]
    exact .cons (Rule.kind_mem_operators hop) hs.labels
  leaves := by simp [leavesOf, ParseTree.leaves, h.leaves, hs.leaves]
  length := by simp only [List.length_cons, hs.length]; omega
  places i part hi := by
    cases i with
    | zero => cases hi; exact ⟨leaf u, rfl, rfl⟩
    | succ i => exact hs.places i part hi
  builds level place left := by
    have hbinary : (leaf u).operator? TokenClass.binaryOp? = some op := by
      rw [ParseTree.operator?, hu]
      cases op <;> rfl
    have hoperand : t.buildChain level = lift (p.meaning level) := by
      rw [← h.builds level, buildLevel, if_pos (by omega)]
    rw [buildFurther, hbinary, chainFold, Failure.lift_bind]
    simp only [hoperand, hs.builds]

/-- Where there are no operators, the first operand is the whole chain. -/
theorem chainHead_of_no_parts {level : Nat} (h : p.chainParts level = []) :
    p.chainHead level = p := by
  cases p with
  | binary op opAt left right =>
    rw [chainHead]
    split
    next hlevel => subst hlevel; exact absurd h (chainParts_ne_nil op opAt left right)
    next => rfl
  | _ => rfl

/-- A chain that is too long is refused at one of its operators. -/
theorem meaning_of_long_chain {level depth : Nat} (h : p.chainParts level ≠ [])
    (hlong : maxDepth < depth + (p.chainParts level).length) :
    ∃ part, (p.chainParts level)[maxDepth - depth]? = some part ∧
      p.meaning depth = .error (.tooDeep part.opAt maxDepth) := by
  cases p with
  | binary op opAt left right =>
    have hlevel : op.level = level := by
      by_contra hne
      exact h (by rw [chainParts, if_neg hne])
    subst hlevel
    obtain ⟨hi, hmeaning⟩ := (chainRuns depth op opAt left right).reported hlong
    exact ⟨_, List.getElem?_eq_getElem hi, hmeaning⟩
  | _ => exact absurd rfl h

theorem Builds.chain {first : ParseTree} (hn : n < 5) (h : Builds n (p.chainHead (n + 1)) ts first)
    (hs : BuildsParts n (p.chainParts (n + 1)) us cs) :
    Builds (n + 1) p (ts ++ us) (node (.ofLevel (n + 1)) (first :: cs)) where
  valid := by
    refine .node ((ParseTree.production_iff (Rule.operand?_ofLevel hn)).2 ⟨_, hs.labels, ?_⟩) ?_
    · rw [List.map_cons, h.label]
    · exact List.forall_mem_cons.2 ⟨h.valid, hs.valid⟩
  label := rfl
  leaves := by simp [ParseTree.leaves, leavesOf, h.leaves, hs.leaves]
  builds depth := by
    have hfirst : ∀ depth, first.buildChain depth = lift ((p.chainHead (n + 1)).meaning depth) :=
      fun depth => by rw [← h.builds depth, buildLevel, if_pos (by omega)]
    have hcount : (first :: cs).length / 2 = (p.chainParts (n + 1)).length := by
      rw [List.length_cons, hs.length]
      omega
    -- both sides count the operators first, and refuse a long chain at the same one
    rw [buildLevel, if_pos (by omega), ParseTree.buildChain_cons (Rule.operand?_ofLevel hn), hcount]
    split
    next hnone =>
      rw [hfirst, chainHead_of_no_parts (List.length_eq_zero_iff.1 hnone)]
    next hsome =>
      have hparts : p.chainParts (n + 1) ≠ [] := fun hnil => hsome (by rw [hnil]; rfl)
      split
      next hover =>
        obtain ⟨part, hpart, hmeaning⟩ := meaning_of_long_chain hparts hover
        obtain ⟨c, hc, hplace⟩ := hs.places _ part hpart
        rw [List.getElem?_cons_succ, hc, Option.getD_some, hplace, hmeaning]
        rfl
      next hfits =>
        rw [meaning_eq_chainFold (n + 1) p (Nat.le_of_not_lt hfits), Failure.lift_bind, hfirst]
        simp only [hs.builds]

/-! ## Phrases -/

/-- A phrase of a level with these tokens has a tree. -/
def HasTree (n : Nat) (p : Phrase) (ts : List Token) : Prop := ∃ t, Builds n p ts t

variable {k : Nat}

theorem WrittenArguments.exists_builds
    (ih : ∀ {n p ts}, ts.length < k → n ≤ 6 → Written n p ts → HasTree n p ts) :
    ∀ {ps : List Phrase} {ts : List Token}, ts.length < k → WrittenArguments ps ts →
      ∃ cs, BuildsArguments ps ts cs
  | [], _, _, h => by
    cases h
    exact ⟨[], buildsArguments_nil⟩
  | [_], _, hlen, h => by
    cases h with
    | last hp =>
      obtain ⟨t, ht⟩ := ih hlen (Nat.le_refl 6) hp
      exact ⟨[t], ht.last⟩
  | p :: q :: ps, _, hlen, h => by
    cases h with
    | cons hp hu hps =>
      simp only [List.length_append, List.length_cons] at hlen
      obtain ⟨t, ht⟩ := ih (by omega) (Nat.le_refl 6) hp
      obtain ⟨cs, hcs⟩ := WrittenArguments.exists_builds ih (by omega) hps
      exact ⟨_, hcs.cons ht hu (List.cons_ne_nil q ps)⟩

theorem WrittenParts.exists_builds {parts : List ChainPart} (hn : n < 5)
    (ih : ∀ {n p ts}, ts.length < k → n ≤ 6 → Written n p ts → HasTree n p ts)
    (hlen : ts.length < k + 1) (h : WrittenParts n parts ts) : ∃ cs, BuildsParts n parts ts cs := by
  induction h with
  | nil => exact ⟨[], buildsParts_nil n⟩
  | cons hu hop hoperand _ ihparts =>
    simp only [List.length_append, List.length_cons] at hlen
    obtain ⟨t, ht⟩ := ih (by omega) (by omega) hoperand
    obtain ⟨cs, hcs⟩ := ihparts (by omega)
    exact ⟨_, ht.parts hn hu hop hcs⟩

/-- The operands, all of whose parts are shorter. -/
theorem exists_builds_operand
    (ih : ∀ {n p ts}, ts.length < k → n ≤ 6 → Written n p ts → HasTree n p ts)
    (hlen : ts.length < k + 1) (h : Written 0 p ts) : HasTree 0 p ts := by
  cases h with
  | literal ht => exact ⟨_, (buildsTerm_literal ht).negation⟩
  | flag ht => exact ⟨_, (buildsTerm_flag ht).negation⟩
  | step ht hu hop => exact ⟨_, (buildsTerm_step ht hu hop).negation⟩
  | group ht hinner hu =>
    simp only [List.length_append, List.length_cons] at hlen
    obtain ⟨t, hbuilds⟩ := ih (by omega) (Nat.le_refl 6) hinner
    exact ⟨_, (hbuilds.group ht hu).negation⟩
  | call ht hu hargs hv =>
    simp only [List.length_append, List.length_cons] at hlen
    obtain ⟨cs, hbuilds⟩ := WrittenArguments.exists_builds ih (by omega) hargs
    exact ⟨_, (hbuilds.call ht hu hv).negation⟩
  | unary ht hoperand =>
    simp only [List.length_cons] at hlen
    obtain ⟨t, hbuilds⟩ := ih (by omega) (Nat.zero_le 6) hoperand
    exact ⟨_, hbuilds.unary ht⟩
  | binary hm => omega
  | assign hn => omega

theorem exists_builds (k : Nat) : ∀ {n : Nat} {p : Phrase} {ts : List Token}, ts.length < k →
    n ≤ 6 → Written n p ts → HasTree n p ts := by
  induction k with
  | zero => intro n p ts hlen; omega
  | succ k ih =>
    intro n
    induction n with
    | zero => exact fun hlen _ h => exists_builds_operand ih hlen h
    | succ n ihn =>
      intro p ts hlen hn h
      by_cases hfive : n < 5
      · obtain ⟨us, vs, rfl, hhead, hparts⟩ := Written.chain hfive h
        rw [List.length_append] at hlen
        obtain ⟨first, hfirst⟩ := ihn (by omega) (by omega) hhead
        obtain ⟨cs, hcs⟩ := hparts.exists_builds hfive ih (by omega)
        exact ⟨_, hfirst.chain hfive hcs⟩
      · -- the loosest level adds assignments to what the one below it has
        obtain rfl : n = 5 := by omega
        rcases h.assigned with ⟨u, v, op, value, us, rfl, rfl, hu, hv, hop, hvalue⟩ | h
        · simp only [List.length_cons] at hlen
          obtain ⟨t, ht⟩ := ih (by omega) (Nat.le_refl 6) hvalue
          exact ⟨_, ht.assign hu hv hop⟩
        · obtain ⟨t, ht⟩ := ihn hlen (by omega) h
          exact ⟨_, ht.expr⟩

/-- What writes a phrase are the leaves of its tree. -/
theorem Written.hasTree (hn : n ≤ 6) (h : Written n p ts) : HasTree n p ts :=
  exists_builds (ts.length + 1) (Nat.lt_succ_self _) hn h

end Phrase

end FlagScript
