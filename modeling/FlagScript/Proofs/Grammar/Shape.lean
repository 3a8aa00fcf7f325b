import FlagScript.Proofs.Grammar.Meaning
import FlagScript.Proofs.Grammar.Tree

/-!
# Trees of the grammar are in shape

Every node of a valid tree has the children that its production gives it, and these are what
building an expression expects there: so nothing is ever missing or out of place
(`shaped_buildExpr`). The induction is on the tree, with one theorem for each function that builds.
-/

namespace FlagScript

namespace ParseTree

open Failure (lift)

/-- Nothing was missing or out of place. -/
def Shaped {α : Type} (x : Except Failure α) : Prop := ∀ p what, x ≠ .error (.shape p what)

theorem shaped_ok {α : Type} (a : α) : Shaped (.ok a) := fun _ _ h => nomatch h

theorem shaped_refused {α : Type} (e : Error) : Shaped (.error (.refused e) : Except Failure α) :=
  fun _ _ h => nomatch h

theorem shaped_lift {α : Type} (x : Except Error α) : Shaped (lift x) := by
  cases x with
  | ok a => exact shaped_ok a
  | error e => exact shaped_refused e

theorem Shaped.bind {α β : Type} {x : Except Failure α} {f : α → Except Failure β} (hx : Shaped x)
    (hf : ∀ a, Shaped (f a)) : Shaped (x >>= f) := by
  intro p what h
  rcases bind_eq_error_iff.1 h with h | ⟨a, -, h⟩
  · exact hx p what h
  · exact hf a p what h

theorem valid_node_iff {r : Rule} {cs : List ParseTree} :
    (node r cs).Valid ↔ r.Production (cs.map label) ∧ ∀ c ∈ cs, c.Valid := by
  constructor
  · rintro (_ | ⟨h, hcs⟩)
    exact ⟨h, hcs⟩
  · rintro ⟨h, hcs⟩
    exact .node h hcs

theorem label_eq_token {t : ParseTree} {k : TokenClass} (h : t.label = .token k) :
    ∃ u, t = leaf u ∧ u.kind = k := by
  cases t with
  | leaf u => exact ⟨u, rfl, Label.token.inj h⟩
  | node r cs => cases h

theorem exists_assignOp? {k : TokenClass} (hk : k ∈ [TokenClass.set, .incrementBy, .decrementBy]) :
    ∃ op, k.assignOp? = some op := by
  simp only [List.mem_cons, List.not_mem_nil, or_false] at hk
  rcases hk with rfl | rfl | rfl <;> exact ⟨_, rfl⟩

theorem exists_unaryOp? {k : TokenClass} (hk : k ∈ [TokenClass.not, .minus]) :
    ∃ op, k.unaryOp? = some op := by
  simp only [List.mem_cons, List.not_mem_nil, or_false] at hk
  rcases hk with rfl | rfl <;> exact ⟨_, rfl⟩

theorem exists_binaryOp? {r : Rule} {k : TokenClass} (hk : k ∈ r.operators) :
    ∃ op, k.binaryOp? = some op := by
  cases r <;> simp only [Rule.operators, List.mem_cons, List.not_mem_nil, or_false] at hk
  all_goals rcases hk with rfl | rfl | rfl | rfl <;> exact ⟨_, rfl⟩

/-- What stands alone in a negation is no prefix operator. -/
theorem operator?_unaryOp?_of_isTerm {t : ParseTree} (h : Rule.isTerm t.label = true) :
    t.operator? TokenClass.unaryOp? = none := by
  cases t with
  | node r cs => rfl
  | leaf u =>
    simp only [label, Rule.isTerm] at h
    rw [operator?]
    cases hk : u.kind <;> first | rfl | simp [hk, TokenClass.isLiteral] at h

/-- A chain has operands with operators between them. -/
theorem production_iff {r operand : Rule} {ls : List Label} (hr : r.operand? = some operand) :
    r.Production ls ↔ ∃ more, r.Operations operand more ∧ ls = .rule operand :: more := by
  cases r <;> cases hr <;> simp [Rule.Production, Rule.operand?]

theorem buildChain_cons {r operand : Rule} (hr : r.operand? = some operand) (depth : Nat)
    (first : ParseTree) (rest : List ParseTree) :
    (node r (first :: rest)).buildChain depth =
      if (first :: rest).length / 2 = 0 then first.buildChain depth
      else if maxDepth < depth + (first :: rest).length / 2 then
        .error (.refused (.tooDeep (((first :: rest)[2 * (maxDepth - depth) + 1]?).getD
          (node r (first :: rest))).position maxDepth))
      else first.buildChain (depth + (first :: rest).length / 2) >>= fun left =>
        buildFurther (depth + (first :: rest).length / 2) first.position left rest := by
  cases r <;> cases hr <;> rfl

theorem shaped_buildStep (p : Position) (op : AssignOp) {cs : List ParseTree} {k : TokenClass}
    (h : cs.map label = [.token .identifier, .token k]) : Shaped (buildStep p op cs) := by
  cases cs with
  | nil => cases h
  | cons id rest =>
    obtain ⟨id, rfl, -⟩ := label_eq_token (List.cons.inj h).1
    exact shaped_ok _

mutual

theorem shaped_buildExpr (depth : Nat) : ∀ t : ParseTree, t.Valid → t.label = .rule .expr →
    Shaped (t.buildExpr depth)
  | leaf t, _, hl => nomatch hl
  | node r [], h, hl => by
    cases hl
    rcases (valid_node_iff.1 h).1 with hls | hls <;> cases hls
  | node r (inner :: rest), h, hl => by
    cases hl
    obtain ⟨hls, hcs⟩ := valid_node_iff.1 h
    have hinner : inner.Valid := hcs inner List.mem_cons_self
    rw [buildExpr]
    rcases hls with hls | hls
    · have hlabel : inner.label = .rule .assign := (List.cons.inj hls).1
      rw [hlabel]
      exact shaped_buildAssign depth inner hinner hlabel
    · have hlabel : inner.label = .rule .boolOp := (List.cons.inj hls).1
      rw [hlabel]
      exact shaped_buildChain depth inner hinner hlabel rfl

theorem shaped_buildAssign (depth : Nat) : ∀ t : ParseTree, t.Valid → t.label = .rule .assign →
    Shaped (t.buildAssign depth)
  | leaf t, _, hl => nomatch hl
  | node r [], h, hl | node r [_], h, hl | node r [_, _], h, hl => by
    cases hl
    obtain ⟨⟨k, hk, hls⟩, -⟩ := valid_node_iff.1 h
    simp at hls
  | node r (id :: op :: value :: rest), h, hl => by
    cases hl
    obtain ⟨⟨k, hk, hls⟩, hcs⟩ := valid_node_iff.1 h
    simp only [List.map_cons, List.cons.injEq] at hls
    obtain ⟨hid, hop, hvalue, -⟩ := hls
    obtain ⟨id, rfl, -⟩ := label_eq_token hid
    obtain ⟨op, rfl, rfl⟩ := label_eq_token hop
    obtain ⟨assignOp, hassign⟩ := exists_assignOp? hk
    rw [buildAssign]
    refine (shaped_ok id).bind fun id => ?_
    simp only [operator?, hassign]
    refine (shaped_lift _).bind fun _ => ?_
    have hbuilt := shaped_buildExpr (depth + 1) value (hcs value (by simp)) hvalue
    exact hbuilt.bind fun _ => shaped_ok _

theorem shaped_buildChain (depth : Nat) : ∀ t : ParseTree, t.Valid → ∀ {r : Rule},
    t.label = .rule r → r.isChain = true → Shaped (t.buildChain depth)
  | leaf t, _, _, hl, _ => nomatch hl
  | node .negation cs, h, _, hl, _ => by
    obtain ⟨hls, hcs⟩ := valid_node_iff.1 h
    rw [buildChain]
    exact shaped_buildNegated depth _ cs hcs hls
  | node r [], h, _, hl, hr => by
    cases hl
    have hls := (valid_node_iff.1 h).1
    cases r <;> cases hr <;> simp [Rule.Production] at hls
  | node r (first :: rest), h, _, hl, hr => by
    cases hl
    obtain ⟨hls, hcs⟩ := valid_node_iff.1 h
    obtain ⟨hfirst, hrest⟩ := List.forall_mem_cons.1 hcs
    -- a chain of operators has a rule for its operands; negation, the tightest, has none
    cases hoperand : r.operand? with
    | none =>
      cases r <;> cases hr <;> cases hoperand
      rw [buildChain]
      exact shaped_buildNegated depth _ (first :: rest) hcs hls
    | some operand =>
      obtain ⟨more, hmore, hls⟩ := (production_iff hoperand).1 hls
      obtain ⟨hlabel, rfl⟩ := List.cons.inj hls
      have hchain := fun depth =>
        shaped_buildChain depth first hfirst hlabel (Rule.isChain_of_operand? hoperand)
      rw [buildChain_cons hoperand]
      split
      · exact hchain depth
      split
      · exact shaped_refused _
      · exact (hchain _).bind fun left => shaped_buildFurther _ _ left rest hoperand hrest hmore

theorem shaped_buildFurther (level : Nat) (p : Position) (left : Expr) : ∀ ts : List ParseTree,
    ∀ {r operand : Rule}, r.operand? = some operand → (∀ c ∈ ts, c.Valid) →
      r.Operations operand (ts.map label) → Shaped (buildFurther level p left ts)
  | [], _, _, _, _, _ => shaped_ok left
  | [op], _, _, _, _, h => by
    generalize hls : List.map label [op] = ls at h
    cases h <;> simp at hls
  | op :: right :: rest, r, operand, hoperand, hts, h => by
    obtain ⟨-, hright, hrest⟩ : op.Valid ∧ right.Valid ∧ ∀ c ∈ rest, c.Valid := by
      simpa only [List.forall_mem_cons] using hts
    generalize hls : List.map label (op :: right :: rest) = ls at h
    cases h with
    | nil => cases hls
    | cons hk hmore =>
      simp only [List.map_cons, List.cons.injEq] at hls
      obtain ⟨hop, hlabel, rfl⟩ := hls
      obtain ⟨op, rfl, rfl⟩ := label_eq_token hop
      obtain ⟨binaryOp, hbinary⟩ := exists_binaryOp? hk
      rw [buildFurther]
      simp only [operator?, hbinary]
      refine (shaped_buildChain level right hright hlabel
        (Rule.isChain_of_operand? hoperand)).bind fun x => ?_
      exact shaped_buildFurther _ p _ rest hoperand hrest hmore

theorem shaped_buildNegation (depth : Nat) : ∀ t : ParseTree, t.Valid → t.label = .rule .negation →
    Shaped (t.buildNegation depth)
  | leaf t, _, hl => nomatch hl
  | node r cs, h, hl => by
    cases hl
    obtain ⟨hls, hcs⟩ := valid_node_iff.1 h
    rw [buildNegation]
    exact shaped_buildNegated depth _ cs hcs hls

theorem shaped_buildNegated (depth : Nat) (p : Position) : ∀ cs : List ParseTree,
    (∀ c ∈ cs, c.Valid) → Rule.Production .negation (cs.map label) →
    Shaped (buildNegated depth p cs)
  | [], _, h => by
    simp [Rule.Production] at h
  | [first], hcs, h => by
    have hterm : Rule.isTerm first.label = true := by simpa [Rule.Production] using h
    rw [buildNegated, operator?_unaryOp?_of_isTerm hterm]
    exact shaped_buildTerm depth first (hcs first List.mem_cons_self) hterm
  | first :: operand :: rest, hcs, h => by
    obtain ⟨k, hk, hls⟩ | ⟨l, -, hls⟩ := h
    · simp only [List.map_cons, List.cons.injEq] at hls
      obtain ⟨hop, hlabel, -⟩ := hls
      obtain ⟨op, rfl, rfl⟩ := label_eq_token hop
      obtain ⟨unaryOp, hunary⟩ := exists_unaryOp? hk
      rw [buildNegated]
      simp only [operator?, hunary]
      refine (shaped_lift _).bind fun _ => ?_
      have hoperand := shaped_buildNegation (depth + 1) operand (hcs operand (by simp)) hlabel
      exact hoperand.bind fun _ => shaped_ok _
    · simp at hls

theorem shaped_buildTerm (depth : Nat) : ∀ t : ParseTree, t.Valid → Rule.isTerm t.label = true →
    Shaped (t.buildTerm depth)
  | leaf t, _, hl => by
    rw [buildTerm]
    split
    · exact shaped_ok _
    split
    · exact shaped_lift _
    · simp_all [label, Rule.isTerm]
  | node r cs, h, hl => by
    obtain ⟨hls, hcs⟩ := valid_node_iff.1 h
    cases r with
    | group =>
      rw [Rule.Production] at hls
      exact shaped_buildGroup depth _ cs hcs (by rw [hls]; simp)
    | call => exact shaped_buildCall depth _ cs hcs hls
    | incr => exact shaped_buildStep _ _ hls
    | decr => exact shaped_buildStep _ _ hls
    | _ => cases hl

theorem shaped_buildGroup (depth : Nat) (p : Position) : ∀ cs : List ParseTree,
    (∀ c ∈ cs, c.Valid) → .rule .expr ∈ cs.map label → Shaped (buildGroup depth p cs)
  | [], _, h => nomatch h
  | c :: cs, hcs, h => by
    obtain ⟨hc, hmore⟩ := List.forall_mem_cons.1 hcs
    rw [buildGroup]
    split
    next hlabel =>
      refine (shaped_lift _).bind fun _ => ?_
      exact (shaped_buildExpr (depth + 1) c hc hlabel).bind fun _ => shaped_ok _
    next hlabel =>
      refine shaped_buildGroup depth p cs hmore ?_
      simpa [Ne.symm hlabel] using h

theorem shaped_buildCall (depth : Nat) (p : Position) : ∀ cs : List ParseTree, (∀ c ∈ cs, c.Valid) →
    Rule.Production .call (cs.map label) → Shaped (buildCall depth p cs)
  | [], _, h | [_], _, h => by
    simp [Rule.Production] at h
  | id :: argList :: rest, hcs, h => by
    simp only [Rule.Production, List.map_cons, List.cons.injEq] at h
    obtain ⟨hid, hlabel, -⟩ := h
    obtain ⟨id, rfl, -⟩ := label_eq_token hid
    rw [buildCall]
    refine (shaped_ok id).bind fun id => (shaped_lift _).bind fun _ => ?_
    refine (shaped_buildArgList (depth + 1) argList (hcs argList (by simp))).bind fun args => ?_
    exact (shaped_lift _).bind fun _ => shaped_ok _

theorem shaped_buildArgList (depth : Nat) : ∀ t : ParseTree, t.Valid → Shaped (t.buildArgList depth)
  | leaf _, _ => shaped_ok _
  | node _ cs, h => shaped_buildArguments depth cs (valid_node_iff.1 h).2

theorem shaped_buildArguments (depth : Nat) : ∀ cs : List ParseTree, (∀ c ∈ cs, c.Valid) →
    Shaped (buildArguments depth cs)
  | [], _ => shaped_ok _
  | c :: cs, hcs => by
    obtain ⟨hc, hmore⟩ := List.forall_mem_cons.1 hcs
    rw [buildArguments]
    split
    next hlabel =>
      refine (shaped_buildExpr depth c hc hlabel).bind fun _ => ?_
      exact (shaped_buildArguments depth cs hmore).bind fun _ => shaped_ok _
    next => exact shaped_buildArguments depth cs hmore

end

end ParseTree

end FlagScript
