import FlagScript.Proofs.Grammar.Meaning

/-!
# Phrases spelled by tokens

`Spells n p ts`: whatever the phrase `p` stands for says exactly the words of the tokens `ts`, and
is an expression of level `n` that fits its grammar. There is one brick for every production, so
that a parser is sound if it glues the tokens it takes with them.
-/

namespace FlagScript

/-! ## What the tokens of a production say -/

/-- Whether a token of this class is an operator or punctuation. -/
def TokenClass.isMark (k : TokenClass) : Bool := k != .identifier && !k.isLiteral

theorem BinaryOp.isMark_kind (op : BinaryOp) : op.kind.isMark = true := by cases op <;> rfl

theorem UnaryOp.isMark_kind (op : UnaryOp) : op.kind.isMark = true := by cases op <;> rfl

theorem AssignOp.isMark_kind (op : AssignOp) : op.kind.isMark = true := by cases op <;> rfl

namespace Token

variable {t : Token}

theorem word?_of_identifier (h : t.kind = .identifier) : t.word? = some (.name t.name) := by
  simp [word?, h]

theorem word?_of_mark {k : TokenClass} (h : t.kind = k) (hk : k.isMark = true) :
    t.word? = some (.mark k) := by
  subst h
  simp only [TokenClass.isMark, Bool.and_eq_true, bne_iff_ne, ne_eq, Bool.not_eq_true'] at hk
  simp [word?, hk.1, hk.2]

/-- A literal token stands for a literal of its own class, quoted exactly if the token is. -/
theorem literal_eq_ok {e : Expr} (hk : t.kind.isLiteral = true) (h : t.literal = .ok e) :
    ∃ v, e = .literal v (t.kind == .quotedText) ∧ v.tokenKind (t.kind == .quotedText) = t.kind := by
  unfold Token.literal at h
  split at h
  next hn =>
    rw [hn]
    obtain ⟨v, hv, rfl⟩ : ∃ v, number t.lexeme = .ok v ∧ Expr.literal v false = e := by
      cases hv : number t.lexeme with
      | error c => rw [hv] at h; cases h
      | ok v => rw [hv] at h; exact ⟨v, rfl, by injection h⟩
    refine ⟨v, rfl, ?_⟩
    unfold number at hv
    split at hv <;> split at hv <;> cases hv <;> rfl
  next hn =>
    rw [hn]
    split at h
    · cases h; exact ⟨_, rfl, rfl⟩
    · cases h
  next hn => rw [hn]; cases h; exact ⟨_, rfl, rfl⟩
  next h₁ h₂ h₃ =>
    cases h
    -- the one class of literals that is left
    have hn : t.kind = .text := by
      cases hkind : t.kind <;> simp_all [TokenClass.isLiteral]
    rw [hn]
    exact ⟨_, rfl, rfl⟩

theorem word?_eq_some_iff_of_literal {w : Word} (hk : t.kind.isLiteral = true) :
    t.word? = some w ↔
      ∃ v, t.literal = .ok (.literal v (t.kind == .quotedText)) ∧ w = .literal t.kind v := by
  have hid : t.kind ≠ .identifier := by
    intro hid; rw [hid] at hk; cases hk
  simp only [word?, hid, hk, if_true, if_false]
  cases hl : t.literal with
  | error c => simp
  | ok e =>
    obtain ⟨v, rfl, _⟩ := literal_eq_ok hk hl
    simp [eq_comm (a := w)]

theorem word?_of_literal {e : Expr} (hk : t.kind.isLiteral = true) (h : t.literal = .ok e) :
    e.words.map some = [t.word?] ∧ e.level = 0 ∧ e.Fits := by
  obtain ⟨v, rfl, hv⟩ := literal_eq_ok hk h
  refine ⟨?_, rfl, by simp [Expr.Fits]⟩
  rw [(word?_eq_some_iff_of_literal hk).2 ⟨v, h, rfl⟩, Expr.words, hv]
  rfl

theorem kind_of_word? {w : Word} (h : t.word? = some w) : w.kind = t.kind := by
  unfold word? at h
  split at h
  next hid => cases h; exact hid.symm
  next =>
    split at h
    next => split at h <;> cases h; rfl
    next => cases h; rfl

theorem kinds_of_words : ∀ {ts : List Token} {ws : List Word},
    ts.map word? = ws.map some → ts.map kind = ws.map Word.kind
  | [], [], _ => rfl
  | t :: ts, w :: ws, h => by
    rw [List.map_cons, List.map_cons, List.cons.injEq] at h
    rw [List.map_cons, List.map_cons, kind_of_word? h.1, kinds_of_words h.2]

end Token

namespace Phrase

/-! ## The bricks -/

/-- What the phrase stands for says the words of the tokens, and is of level `n`. -/
def Spells (n : Nat) (p : Phrase) (ts : List Token) : Prop :=
  ∀ depth e, p.meaning depth = .ok e →
    e.words.map some = ts.map Token.word? ∧ e.level ≤ n ∧ e.Fits

/-- The same for the arguments of a call, with commas between them. -/
def SpellsAll (ps : List Phrase) (ts : List Token) : Prop :=
  ∀ depth es, meanings depth ps = .ok es →
    (Expr.argumentWords es).map some = ts.map Token.word? ∧ Expr.AllFit es

variable {t u v : Token} {ts us : List Token} {n m : Nat}

attribute [local simp] Expr.words Expr.argumentWords Expr.Fits Expr.AllFit

theorem Spells.weaken {p : Phrase} (h : p.Spells n ts) (hnm : n ≤ m) : p.Spells m ts := by
  intro depth e he
  obtain ⟨hw, hl, hf⟩ := h depth e he
  exact ⟨hw, Nat.le_trans hl hnm, hf⟩

theorem spells_literal (h : t.kind.isLiteral = true) : (literal t).Spells 0 [t] := by
  intro depth e he
  rw [meaning, faultAt_eq_ok_iff] at he
  obtain ⟨hw, hl, hf⟩ := Token.word?_of_literal h he
  exact ⟨hw, Nat.le_of_eq hl, hf⟩

theorem spells_flag (h : t.kind = .identifier) : (flag t).Spells 0 [t] := by
  intro depth e he
  rw [meaning] at he
  cases he
  refine ⟨?_, Nat.le_refl 0, by simp⟩
  simp [Token.word?_of_identifier h]

theorem spells_step {op : AssignOp} (h : t.kind = .identifier) (hu : u.kind = op.kind)
    (hop : op.takesValue = false) : (step t op).Spells 0 [t, u] := by
  intro depth e he
  rw [meaning] at he
  cases he
  refine ⟨?_, Nat.le_refl 0, hop⟩
  simp [Token.word?_of_identifier h, Token.word?_of_mark hu op.isMark_kind]

theorem spells_group {inner : Phrase} {p : Position} (ht : t.kind = .leftParen)
    (h : inner.Spells n ts) (hu : u.kind = .rightParen) :
    (group p inner).Spells 0 (t :: (ts ++ [u])) := by
  intro depth e he
  obtain ⟨_, x, hx, rfl⟩ := meaning_group_eq_ok_iff.1 he
  obtain ⟨hw, _, hf⟩ := h _ x hx
  refine ⟨?_, Nat.le_refl 0, hf⟩
  rw [Expr.words, List.map_cons, List.map_append, hw]
  simp [Token.word?_of_mark ht rfl, Token.word?_of_mark hu rfl]

theorem spells_call {args : List Phrase} {p : Position} (ht : t.kind = .identifier)
    (hu : u.kind = .leftParen) (h : SpellsAll args ts) (hv : v.kind = .rightParen) :
    (call t p args).Spells 0 (t :: u :: (ts ++ [v])) := by
  intro depth e he
  obtain ⟨_, xs, hxs, _, rfl⟩ := meaning_call_eq_ok_iff.1 he
  obtain ⟨hw, hf⟩ := h _ xs hxs
  refine ⟨?_, Nat.le_refl 0, hf⟩
  rw [Expr.words, List.map_cons, List.map_cons, List.map_append, hw]
  simp [Token.word?_of_identifier ht, Token.word?_of_mark hu rfl, Token.word?_of_mark hv rfl]

theorem spells_unary {op : UnaryOp} {operand : Phrase} {p : Position} (ht : t.kind = op.kind)
    (h : operand.Spells 0 ts) : (unary op p operand).Spells 0 (t :: ts) := by
  intro depth e he
  obtain ⟨_, x, hx, rfl⟩ := meaning_unary_eq_ok_iff.1 he
  obtain ⟨hw, hl, hf⟩ := h _ x hx
  refine ⟨?_, Nat.le_refl 0, Nat.le_zero.1 hl, hf⟩
  rw [Expr.words, List.map_cons, hw]
  simp [Token.word?_of_mark ht op.isMark_kind]

/-- An operator of level `n + 1` has operands of its own level on its left and of the next tighter
one on its right. -/
theorem spells_binary {op : BinaryOp} {left right : Phrase} {p : Position}
    (hop : op.level = n + 1) (hl : left.Spells (n + 1) ts) (hu : u.kind = op.kind)
    (hr : right.Spells n us) : (binary op p left right).Spells (n + 1) (ts ++ u :: us) := by
  intro depth e he
  obtain ⟨_, x, y, hx, hy, rfl⟩ := meaning_binary_eq_ok_iff.1 he
  -- the operands lie deeper, but what they say does not depend on the depth
  obtain ⟨hwx, hlx, hfx⟩ := hl _ x hx
  obtain ⟨hwy, hly, hfy⟩ := hr _ y hy
  refine ⟨?_, Nat.le_of_eq hop, by rw [hop]; exact hlx, by rw [hop]; omega, hfx, hfy⟩
  rw [Expr.words, List.map_append, List.map_cons, hwx, hwy]
  simp [Token.word?_of_mark hu op.isMark_kind]

theorem spells_assign {op : AssignOp} {value : Phrase} {p : Position} (ht : t.kind = .identifier)
    (hu : u.kind = op.kind) (hop : op.takesValue = true) (h : value.Spells n ts) :
    (assign t op p value).Spells 6 (t :: u :: ts) := by
  intro depth e he
  obtain ⟨_, x, hx, rfl⟩ := meaning_assign_eq_ok_iff.1 he
  obtain ⟨hw, _, hf⟩ := h _ x hx
  refine ⟨?_, Nat.le_refl 6, hop, hf⟩
  rw [Expr.words, List.map_cons, List.map_cons, hw]
  simp [Token.word?_of_identifier ht, Token.word?_of_mark hu op.isMark_kind]

theorem spellsAll_nil : SpellsAll [] [] := by
  intro depth es hes
  rw [meanings] at hes
  cases hes
  simp

theorem spellsAll_singleton {p : Phrase} (h : p.Spells n ts) : SpellsAll [p] ts := by
  intro depth es hes
  obtain ⟨x, xs, hx, hxs, rfl⟩ := meanings_cons_eq_ok_iff.1 hes
  rw [meanings] at hxs
  cases hxs
  obtain ⟨hw, _, hf⟩ := h _ x hx
  rw [Expr.argumentWords]
  exact ⟨hw, hf, trivial⟩

theorem spellsAll_cons {p q : Phrase} {qs : List Phrase} (h : p.Spells n ts)
    (hu : u.kind = .comma) (hq : SpellsAll (q :: qs) us) :
    SpellsAll (p :: q :: qs) (ts ++ u :: us) := by
  intro depth es hes
  obtain ⟨x, xs, hx, hxs, rfl⟩ := meanings_cons_eq_ok_iff.1 hes
  obtain ⟨hw, _, hf⟩ := h _ x hx
  obtain ⟨hws, hfs⟩ := hq _ xs hxs
  obtain ⟨y, ys, _, _, rfl⟩ := meanings_cons_eq_ok_iff.1 hxs
  refine ⟨?_, hf, hfs⟩
  rw [Expr.argumentWords, List.map_append, List.map_cons, hw, hws]
  simp [Token.word?_of_mark hu rfl]

end Phrase

end FlagScript
