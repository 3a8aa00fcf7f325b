import FlagScript.Proofs.Grammar.Meaning

/-!
# The form of a phrase

`Forms p e`: the phrase `p` and the expression `e` have the same nodes, and the names and literals
of `e` are those that the tokens of `p` stand for. A phrase has the form of its meaning, whatever
the depth at which it stands; what may be wrong with it besides, its depth and its calls, is left
out.
-/

namespace FlagScript

/-- A token that stands for anything stands for a literal, and only text is quoted. -/
theorem Token.eq_literal_of_eq_ok {t : Token} {e : Expr} (h : t.literal = .ok e) :
    ∃ v quoted, e = .literal v quoted ∧ (quoted = true → ∃ s, v = .text s) := by
  unfold Token.literal at h
  split at h
  next =>
    cases hv : Token.number t.lexeme with
    | error cause =>
      rw [hv] at h
      cases h
    | ok v =>
      rw [hv] at h
      cases h
      exact ⟨v, false, rfl, by simp⟩
  next =>
    split at h
    next b _ =>
      cases h
      exact ⟨.bool b, false, rfl, by simp⟩
    next => cases h
  next =>
    cases h
    exact ⟨_, true, rfl, fun _ => ⟨_, rfl⟩⟩
  next =>
    cases h
    exact ⟨_, false, rfl, by simp⟩

namespace Phrase

mutual

inductive Forms : Phrase → Expr → Prop where
  | literal {t : Token} {v : Value} {quoted : Bool} (h : t.literal = .ok (.literal v quoted)) :
      Forms (.literal t) (.literal v quoted)
  | flag {t : Token} : Forms (.flag t) (.flag t.name)
  | step {t : Token} {op : AssignOp} : Forms (.step t op) (.step t.name op)
  | assign {t : Token} {op : AssignOp} {opAt : Position} {value : Phrase} {v : Expr}
      (h : Forms value v) : Forms (.assign t op opAt value) (.assign t.name op v)
  | call {t : Token} {parenAt : Position} {args : List Phrase} {xs : List Expr}
      (h : FormsAll args xs) : Forms (.call t parenAt args) (.call t.name xs)
  | group {parenAt : Position} {inner : Phrase} {x : Expr} (h : Forms inner x) :
      Forms (.group parenAt inner) (.group x)
  | binary {op : BinaryOp} {opAt : Position} {left right : Phrase} {x y : Expr}
      (hleft : Forms left x) (hright : Forms right y) :
      Forms (.binary op opAt left right) (.binary op x y)
  | unary {op : UnaryOp} {opAt : Position} {operand : Phrase} {x : Expr} (h : Forms operand x) :
      Forms (.unary op opAt operand) (.unary op x)

inductive FormsAll : List Phrase → List Expr → Prop where
  | nil : FormsAll [] []
  | cons {p : Phrase} {ps : List Phrase} {e : Expr} {es : List Expr} (h : Forms p e)
      (hs : FormsAll ps es) : FormsAll (p :: ps) (e :: es)

end

mutual

theorem forms_of_meaning : ∀ {p : Phrase} {depth : Nat} {e : Expr}, p.meaning depth = .ok e →
    Forms p e
  | .literal t, _, _, h => by
    rw [meaning, faultAt_eq_ok_iff] at h
    obtain ⟨v, quoted, rfl, _⟩ := Token.eq_literal_of_eq_ok h
    exact .literal h
  | .flag _, _, _, h => by
    cases h
    exact .flag
  | .step _ _, _, _, h => by
    cases h
    exact .step
  | .assign _ _ _ _, _, _, h => by
    obtain ⟨_, v, hv, rfl⟩ := meaning_assign_eq_ok_iff.1 h
    exact .assign (forms_of_meaning hv)
  | .call _ _ _, _, _, h => by
    obtain ⟨_, xs, hxs, _, rfl⟩ := meaning_call_eq_ok_iff.1 h
    exact .call (formsAll_of_meanings hxs)
  | .group _ _, _, _, h => by
    obtain ⟨_, x, hx, rfl⟩ := meaning_group_eq_ok_iff.1 h
    exact .group (forms_of_meaning hx)
  | .binary _ _ _ _, _, _, h => by
    obtain ⟨_, x, y, hx, hy, rfl⟩ := meaning_binary_eq_ok_iff.1 h
    exact .binary (forms_of_meaning hx) (forms_of_meaning hy)
  | .unary _ _ _, _, _, h => by
    obtain ⟨_, x, hx, rfl⟩ := meaning_unary_eq_ok_iff.1 h
    exact .unary (forms_of_meaning hx)

theorem formsAll_of_meanings : ∀ {ps : List Phrase} {depth : Nat} {es : List Expr},
    meanings depth ps = .ok es → FormsAll ps es
  | [], _, _, h => by
    cases h
    exact .nil
  | _ :: _, _, _, h => by
    obtain ⟨x, xs, hx, hxs, rfl⟩ := meanings_cons_eq_ok_iff.1 h
    exact .cons (forms_of_meaning hx) (formsAll_of_meanings hxs)

end

end Phrase

end FlagScript
