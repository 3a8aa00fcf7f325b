import FlagScript.Proofs.Grammar.Word

/-!
# When a phrase has a meaning

For every form of phrases, when it stands for an expression and for which one: its parts have
meanings one level further down, it does not stand too deep, and a call fits its function.
-/

namespace FlagScript

theorem bind_eq_ok_iff {ε α β : Type} {x : Except ε α} {f : α → Except ε β} {b : β} :
    (x >>= f) = .ok b ↔ ∃ a, x = .ok a ∧ f a = .ok b := by
  cases x with
  | error _ => simp [bind, Except.bind]
  | ok a => simp [bind, Except.bind]

theorem bind_eq_error_iff {ε α β : Type} {x : Except ε α} {f : α → Except ε β} {e : ε} :
    (x >>= f) = .error e ↔ x = .error e ∨ ∃ a, x = .ok a ∧ f a = .error e := by
  cases x with
  | error _ => simp [bind, Except.bind]
  | ok a => simp [bind, Except.bind]

namespace Phrase

variable {depth : Nat} {p : Position} {e : Expr}

theorem checkDepth_eq_ok_iff {u : Unit} : checkDepth depth p = .ok u ↔ depth < maxDepth := by
  unfold checkDepth
  split
  · simp; omega
  · simp; omega

theorem faultAt_eq_ok_iff {α : Type} {x : Except Fault α} {a : α} :
    faultAt p x = .ok a ↔ x = .ok a := by
  cases x with
  | error _ => simp [faultAt]
  | ok _ => simp [faultAt]

theorem checkCall_eq_ok_iff {id : Token} {count : Nat} {u : Unit} :
    checkCall id count = .ok u ↔ ∃ b, Builtin.find? id.name = some b ∧ b.accepts count = true := by
  unfold checkCall
  cases Builtin.find? id.name with
  | none => simp
  | some b => simp

theorem meaning_assign_eq_ok_iff {id : Token} {op : AssignOp} {value : Phrase} :
    (assign id op p value).meaning depth = .ok e ↔
      depth < maxDepth ∧ ∃ v, value.meaning (depth + 1) = .ok v ∧ e = .assign id.name op v := by
  rw [meaning]
  simp only [bind_eq_ok_iff, checkDepth_eq_ok_iff, pure, Except.pure, Except.ok.injEq,
    exists_and_left, exists_const, eq_comm (a := e)]

theorem meaning_group_eq_ok_iff {inner : Phrase} :
    (group p inner).meaning depth = .ok e ↔
      depth < maxDepth ∧ ∃ x, inner.meaning (depth + 1) = .ok x ∧ e = .group x := by
  rw [meaning]
  simp only [bind_eq_ok_iff, checkDepth_eq_ok_iff, pure, Except.pure, Except.ok.injEq,
    exists_and_left, exists_const, eq_comm (a := e)]

theorem meaning_unary_eq_ok_iff {op : UnaryOp} {operand : Phrase} :
    (unary op p operand).meaning depth = .ok e ↔
      depth < maxDepth ∧ ∃ x, operand.meaning (depth + 1) = .ok x ∧ e = .unary op x := by
  rw [meaning]
  simp only [bind_eq_ok_iff, checkDepth_eq_ok_iff, pure, Except.pure, Except.ok.injEq,
    exists_and_left, exists_const, eq_comm (a := e)]

theorem meaning_call_eq_ok_iff {id : Token} {args : List Phrase} :
    (call id p args).meaning depth = .ok e ↔
      depth < maxDepth ∧ ∃ xs, meanings (depth + 1) args = .ok xs ∧
        (∃ b, Builtin.find? id.name = some b ∧ b.accepts xs.length = true) ∧
        e = .call id.name xs := by
  rw [meaning]
  simp only [bind_eq_ok_iff, checkDepth_eq_ok_iff, faultAt_eq_ok_iff, checkCall_eq_ok_iff, pure,
    Except.pure, Except.ok.injEq, exists_and_left, exists_const, eq_comm (a := e)]

theorem meaning_binary_eq_ok_iff {op : BinaryOp} {left right : Phrase} :
    (binary op p left right).meaning depth = .ok e ↔
      chainOverflow? depth op.level (binary op p left right) = none ∧
        ∃ x y, left.meaning (depth + 1) = .ok x ∧ right.meaning (depth + 1) = .ok y ∧
          e = .binary op x y := by
  rw [meaning]
  cases chainOverflow? depth op.level (binary op p left right) with
  | some place => simp
  | none =>
    simp only [bind_eq_ok_iff, pure, Except.pure, Except.ok.injEq, exists_and_left, true_and,
      eq_comm (a := e)]

theorem meanings_cons_eq_ok_iff {q : Phrase} {qs : List Phrase} {es : List Expr} :
    meanings depth (q :: qs) = .ok es ↔
      ∃ x xs, q.meaning depth = .ok x ∧ meanings depth qs = .ok xs ∧ es = x :: xs := by
  rw [meanings]
  simp only [bind_eq_ok_iff, pure, Except.pure, Except.ok.injEq, exists_and_left,
    eq_comm (a := es)]

end Phrase

end FlagScript
