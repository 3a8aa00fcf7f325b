import FlagScript.Proofs.Grammar.Meaning
import Mathlib.Logic.Relation

/-!
# Chains of operators

Operators of one level that follow each other hang on the left of the last one. Their meaning is
what a loop over the chain puts together (`ChainRuns.meaning`): it reads the first operand below all
operators, and the others with a counter for their depth that goes down by one with every operator.
The counter is the depth of the chain and the number of operators still to come
(`Chaining.counter_eq`), so it never falls below the depth; and a chain that is too long is refused
at one of its own operators.
-/

namespace FlagScript

/-- An operator of a chain and the operand behind it. -/
structure ChainPart where
  op : BinaryOp
  opAt : Position
  operand : Phrase

namespace Phrase

/-- The first operand of the chain of operators of one level at the root of a phrase. -/
def chainHead (level : Nat) : Phrase → Phrase
  | binary op opAt left right =>
    if op.level = level then chainHead level left else binary op opAt left right
  | p => p

/-- The operators of the chain, first one first. -/
def chainParts (level : Nat) : Phrase → List ChainPart
  | binary op opAt left right =>
    if op.level = level then chainParts level left ++ [⟨op, opAt, right⟩] else []
  | _ => []

/-- Reads the operands behind the operators, each one level less deep than the one before, and puts
them together with what stands in front. -/
def chainFold (counter : Nat) (left : Expr) : List ChainPart → Except Error Expr
  | [] => .ok left
  | part :: parts => do
    let right ← part.operand.meaning counter
    chainFold (counter - 1) (.binary part.op left right) parts

end Phrase

/-- Where the loop over a chain stands: the depth of the next operand, what was put together so far,
and the operators still to come. -/
structure Chaining where
  counter : Nat
  left : Expr
  parts : List ChainPart

namespace Chaining

/-- One turn of the loop: an operand is read. -/
inductive Step : Chaining → Chaining → Prop where
  | operand {counter : Nat} {left right : Expr} {part : ChainPart} {parts : List ChainPart}
      (h : part.operand.meaning counter = .ok right) :
      Step ⟨counter, left, part :: parts⟩ ⟨counter - 1, .binary part.op left right, parts⟩

/-- Where the loop begins, once the first operand of a chain at a depth is read. -/
def start (depth : Nat) (first : Expr) (parts : List ChainPart) : Chaining :=
  ⟨depth + parts.length, first, parts⟩

/-- What the loop makes of the rest. -/
def finish (s : Chaining) : Except Error Expr := Phrase.chainFold s.counter s.left s.parts

variable {depth : Nat} {s t : Chaining}

theorem Step.finish_eq (h : Step s t) : s.finish = t.finish := by
  cases h with
  | operand h =>
    simp only [finish, Phrase.chainFold, h]
    rfl

/-- However far the loop has come, what is left to do has the same outcome. -/
theorem finish_eq (h : Relation.ReflTransGen Step s t) : s.finish = t.finish := by
  induction h with
  | refl => rfl
  | tail _ hstep ih => rw [ih, hstep.finish_eq]

theorem Step.counter_eq (h : Step s t) (hs : s.counter = depth + s.parts.length) :
    t.counter = depth + t.parts.length := by
  cases h with
  | operand _ =>
    simp only [List.length_cons] at hs ⊢
    omega

/-- In every turn the counter is the depth of the chain and the number of operators left. -/
theorem counter_eq {first : Expr} {parts : List ChainPart}
    (h : Relation.ReflTransGen Step (start depth first parts) s) :
    s.counter = depth + s.parts.length := by
  induction h with
  | refl => rfl
  | tail _ hstep ih => exact hstep.counter_eq ih

end Chaining

namespace Phrase

variable {level : Nat}

/-! ## How long a chain is -/

theorem chainPlaces_eq (level : Nat) : ∀ (p : Phrase) (places : List Position),
    p.chainPlaces level places = (p.chainParts level).map ChainPart.opAt ++ places
  | binary op opAt left right, places => by
    rw [chainPlaces, chainParts]
    split
    next => rw [chainPlaces_eq level left, List.map_append, List.append_assoc]; rfl
    next => rfl
  | literal _, _ | flag _, _ | step _ _, _ | assign _ _ _ _, _ | call _ _ _, _ | group _ _, _
  | unary _ _ _, _ => rfl

/-- A chain with operators is refused exactly if its first operand would lie too deep, and then at
the operator whose number is the depth that is left. -/
theorem chainOverflow?_eq (depth : Nat) {p : Phrase} (h : p.chainParts level ≠ []) :
    (depth + (p.chainParts level).length ≤ maxDepth → chainOverflow? depth level p = none) ∧
      (maxDepth < depth + (p.chainParts level).length →
        ∃ hi : maxDepth - depth < (p.chainParts level).length,
          chainOverflow? depth level p =
            some ((p.chainParts level).get ⟨maxDepth - depth, hi⟩).opAt) := by
  have hpos : 0 < (p.chainParts level).length := List.length_pos_iff.2 h
  have hplaces : chainOverflow? depth level p =
      ((p.chainParts level).map ChainPart.opAt)[maxDepth - depth]? := by
    rw [chainOverflow?, chainPlaces_eq, List.append_nil]
  constructor
  · intro hshort
    rw [hplaces, List.getElem?_eq_none]
    rw [List.length_map]
    omega
  · intro hlong
    have hi : maxDepth - depth < (p.chainParts level).length := by omega
    refine ⟨hi, ?_⟩
    rw [hplaces, List.getElem?_map, List.getElem?_eq_getElem hi]
    rfl

theorem chainOverflow?_eq_none_iff (depth : Nat) {p : Phrase} (h : p.chainParts level ≠ []) :
    chainOverflow? depth level p = none ↔ depth + (p.chainParts level).length ≤ maxDepth := by
  obtain ⟨hshort, hlong⟩ := chainOverflow?_eq depth h
  refine ⟨fun hnone => Nat.le_of_not_lt fun hover => ?_, hshort⟩
  obtain ⟨_, hsome⟩ := hlong hover
  rw [hnone] at hsome
  cases hsome

theorem chainParts_ne_nil (op : BinaryOp) (opAt : Position) (left right : Phrase) :
    (binary op opAt left right).chainParts op.level ≠ [] := by
  rw [chainParts, if_pos rfl]
  exact List.append_ne_nil_of_right_ne_nil _ (List.cons_ne_nil _ _)

/-! ## The loop -/

theorem chainFold_append (counter : Nat) (left : Expr) (parts more : List ChainPart) :
    chainFold counter left (parts ++ more) =
      chainFold counter left parts >>= fun e => chainFold (counter - parts.length) e more := by
  induction parts generalizing counter left with
  | nil => rfl
  | cons part parts ih =>
    rw [List.cons_append, chainFold, chainFold, bind_assoc]
    congr 1
    funext right
    rw [ih, List.length_cons, Nat.sub_sub, Nat.add_comm 1]

/-- The loop goes through the operators of a chain from the first to the last, as the meaning of the
chain does from its root to its first operand. -/
theorem meaning_eq_chainFold (level : Nat) : ∀ (p : Phrase) {depth : Nat},
    depth + (p.chainParts level).length ≤ maxDepth →
      p.meaning depth =
        (p.chainHead level).meaning (depth + (p.chainParts level).length) >>= fun first =>
          chainFold (depth + (p.chainParts level).length) first (p.chainParts level)
  | binary op opAt left right, depth, h => by
    by_cases hop : op.level = level
    · subst hop
      have hparts : (binary op opAt left right).chainParts op.level =
          left.chainParts op.level ++ [⟨op, opAt, right⟩] := by
        rw [chainParts, if_pos rfl]
      have hhead : (binary op opAt left right).chainHead op.level = left.chainHead op.level := by
        rw [chainHead, if_pos rfl]
      have hnone := (chainOverflow?_eq_none_iff depth (chainParts_ne_nil op opAt left right)).2 h
      rw [hparts, List.length_append, List.length_singleton] at h
      -- the left operand is the chain without its last operator, one level further down
      have hleft := meaning_eq_chainFold op.level left
        (show depth + 1 + (left.chainParts op.level).length ≤ maxDepth by omega)
      rw [Nat.add_assoc, Nat.add_comm 1] at hleft
      have hcounter : depth + ((left.chainParts op.level).length + 1) -
          (left.chainParts op.level).length = depth + 1 := by omega
      rw [meaning, hnone, hparts, hhead, List.length_append, List.length_singleton]
      simp only [hleft, bind_assoc, chainFold_append, hcounter]
      rfl
    · have hparts : (binary op opAt left right).chainParts level = [] := by
        rw [chainParts, if_neg hop]
      have hhead : (binary op opAt left right).chainHead level = binary op opAt left right := by
        rw [chainHead, if_neg hop]
      rw [hparts, hhead]
      exact (bind_pure _).symm
  | literal _, _, _ | flag _, _, _ | step _ _, _, _ | assign _ _ _ _, _, _ | call _ _ _, _, _
  | group _ _, _, _ | unary _ _ _, _, _ => by
    simp only [chainParts, chainHead, List.length_nil, Nat.add_zero, chainFold]
    exact (bind_pure _).symm

/-- What holds of the loop over the chain of operators at the root of a phrase. -/
structure ChainRuns (depth level : Nat) (p : Phrase) : Prop where
  /-- Where the chain fits, its meaning is what the loop makes of it. -/
  meaning : depth + (p.chainParts level).length ≤ maxDepth →
    p.meaning depth =
      (p.chainHead level).meaning (depth + (p.chainParts level).length) >>= fun first =>
        (Chaining.start depth first (p.chainParts level)).finish
  /-- Every turn leads on to the same outcome, with a counter above the depth of the chain as long
  as an operator is left, and never below it. -/
  turns : ∀ first s,
    Relation.ReflTransGen Chaining.Step (.start depth first (p.chainParts level)) s →
      (Chaining.start depth first (p.chainParts level)).finish = s.finish ∧
        depth ≤ s.counter ∧ (s.parts ≠ [] → depth < s.counter)
  /-- Where the chain does not fit, an operator of the chain is named. -/
  reported : maxDepth < depth + (p.chainParts level).length →
    ∃ hi : maxDepth - depth < (p.chainParts level).length,
      p.meaning depth =
        .error (.tooDeep ((p.chainParts level).get ⟨maxDepth - depth, hi⟩).opAt maxDepth)

theorem chainRuns (depth : Nat) (op : BinaryOp) (opAt : Position) (left right : Phrase) :
    ChainRuns depth op.level (binary op opAt left right) where
  meaning h := meaning_eq_chainFold op.level _ h
  turns first s h := by
    have hcounter := Chaining.counter_eq h
    refine ⟨Chaining.finish_eq h, by omega, fun hparts => ?_⟩
    have hpos : 0 < s.parts.length := List.length_pos_iff.2 hparts
    omega
  reported h := by
    obtain ⟨hi, hplace⟩ :=
      (chainOverflow?_eq depth (chainParts_ne_nil op opAt left right)).2 h
    refine ⟨hi, ?_⟩
    rw [Phrase.meaning, hplace]

end Phrase

end FlagScript
