import FlagScript.Proofs.Grammar.Form
import FlagScript.Proofs.Grammar.Written

/-!
# How deep tokens nest

A token nests as deep as there are groups and lists of arguments around it and signs in front of it.
`Phrase.nested` goes through the tokens of a phrase with this depth, and `Expr.nesting` is what the
tree says of the same: the groups, calls and signs on a path from the root to a leaf
(`Forms.nested_le_iff`).
-/

namespace FlagScript

namespace Phrase

mutual

/-- The tokens of a phrase, each with how deep it nests, if the phrase itself stands `depth` deep.
Parentheses stand in the group or list that they enclose, and a sign in front of itself. -/
def nested (depth : Nat) : Phrase → List (TokenClass × Nat)
  | literal t => [(t.kind, depth)]
  | flag id => [(id.kind, depth)]
  | step id op => [(id.kind, depth), (op.kind, depth)]
  | assign id op _ value => (id.kind, depth) :: (op.kind, depth) :: nested depth value
  | call id _ args =>
    (id.kind, depth) :: (.leftParen, depth + 1) ::
      (nestedArguments (depth + 1) args ++ [(.rightParen, depth + 1)])
  | group _ inner =>
    (.leftParen, depth + 1) :: (nested (depth + 1) inner ++ [(.rightParen, depth + 1)])
  | binary op _ left right => nested depth left ++ (op.kind, depth) :: nested depth right
  | unary op _ operand => (op.kind, depth + 1) :: nested (depth + 1) operand

/-- The tokens of arguments, with commas between them. -/
def nestedArguments (depth : Nat) : List Phrase → List (TokenClass × Nat)
  | [] => []
  | [p] => nested depth p
  | p :: q :: ps => nested depth p ++ (.comma, depth) :: nestedArguments depth (q :: ps)

end

/-- Assignments of which each is the value of the one before, from this one on. -/
def links : Phrase → Nat
  | assign _ _ _ value => links value + 1
  | _ => 0

mutual

/-- A phrase and all phrases in it. -/
def parts : Phrase → List Phrase
  | literal t => [literal t]
  | flag id => [flag id]
  | step id op => [step id op]
  | assign id op opAt value => assign id op opAt value :: parts value
  | call id parenAt args => call id parenAt args :: partsOfAll args
  | group parenAt inner => group parenAt inner :: parts inner
  | binary op opAt left right => binary op opAt left right :: (parts left ++ parts right)
  | unary op opAt operand => unary op opAt operand :: parts operand

def partsOfAll : List Phrase → List Phrase
  | [] => []
  | p :: ps => parts p ++ partsOfAll ps

end

/-- No token of the statements nests deeper than `limit`, and no chain of assignments has more
links. -/
structure Within (limit : Nat) (ps : List Phrase) : Prop where
  nested : ∀ x ∈ ps.flatMap (nested 0), x.2 ≤ limit
  links : ∀ q ∈ ps.flatMap parts, q.links ≤ limit

/-! ## The tokens of a phrase -/

mutual

theorem Written.kinds_nested : ∀ {p : Phrase} {n : Nat} {ts : List Token}, Written n p ts →
    ∀ depth, (p.nested depth).map Prod.fst = ts.map Token.kind
  | .literal _, _, _, h, depth => by
    obtain ⟨_⟩ := h
    rfl
  | .flag _, _, _, h, depth => by
    obtain _ | ⟨_⟩ := h
    rfl
  | .step _ _, _, _, h, depth => by
    obtain _ | _ | ⟨_, hu, _⟩ := h
    simp [nested, hu]
  | .group _ _, _, _, h, depth => by
    obtain _ | _ | _ | ⟨ht, hinner, hu⟩ := h
    simp [nested, ht, hu, hinner.kinds_nested]
  | .call _ _ _, _, _, h, depth => by
    obtain _ | _ | _ | _ | ⟨_, hu, hargs, hv⟩ := h
    simp [nested, hu, hv, hargs.kinds_nested]
  | .unary _ _ _, _, _, h, depth => by
    obtain _ | _ | _ | _ | _ | ⟨ht, hoperand⟩ := h
    simp [nested, ht, hoperand.kinds_nested]
  | .binary _ _ _ _, _, _, h, depth => by
    obtain _ | _ | _ | _ | _ | _ | ⟨_, _, hleft, ht, hright⟩ := h
    simp [nested, ht, hleft.kinds_nested, hright.kinds_nested]
  | .assign _ _ _ _, _, _, h, depth => by
    obtain _ | _ | _ | _ | _ | _ | _ | ⟨_, _, hu, _, hvalue⟩ := h
    simp [nested, hu, hvalue.kinds_nested]

theorem WrittenArguments.kinds_nested : ∀ {ps : List Phrase} {ts : List Token},
    WrittenArguments ps ts → ∀ depth, (nestedArguments depth ps).map Prod.fst = ts.map Token.kind
  | [], _, h, depth => by
    cases h
    rfl
  | [_], _, h, depth => by
    cases h with
    | last hp => exact hp.kinds_nested depth
  | _ :: _ :: _, _, h, depth => by
    cases h with
    | cons hp ht hps =>
      simp [nestedArguments, ht, hp.kinds_nested, hps.kinds_nested]

end

theorem WrittenStatements.kinds_nested {ps : List Phrase} {ts : List Token}
    (h : WrittenStatements ps ts) :
    (ps.flatMap (nested 0)).map Prod.fst = ts.map Token.kind := by
  induction h with
  | nil => rfl
  | cons hp _ ih => rw [List.flatMap_cons, List.map_append, List.map_append, hp.kinds_nested, ih]

end Phrase

/-! ## Nesting of expressions -/

namespace Expr

mutual

/-- The groups, calls and prefix operators on a path from the root to a leaf, where there are most
of them. -/
def nesting : Expr → Nat
  | literal _ _ | flag _ | step _ _ => 0
  | assign _ _ value => nesting value
  | call _ args => nestingOfAll args + 1
  | group inner => nesting inner + 1
  | binary _ left right => max (nesting left) (nesting right)
  | unary _ operand => nesting operand + 1

def nestingOfAll : List Expr → Nat
  | [] => 0
  | e :: es => max (nesting e) (nestingOfAll es)

end

end Expr

namespace Phrase

variable {limit : Nat}

mutual

/-- The deepest token of a phrase nests as deep as the expression does that has its form. -/
theorem Forms.nested_le_iff : ∀ {p : Phrase} {e : Expr}, Forms p e → ∀ n,
    (∀ x ∈ p.nested n, x.2 ≤ limit) ↔ n + e.nesting ≤ limit
  | .literal _, _, h, n => by
    cases h
    simp [nested, Expr.nesting]
  | .flag _, _, h, n => by
    cases h
    simp [nested, Expr.nesting]
  | .step _ _, _, h, n => by
    cases h
    simp [nested, Expr.nesting]
  | .assign _ _ _ _, _, h, n => by
    cases h with
    | assign hv =>
      have ih := hv.nested_le_iff n
      simp only [nested, Expr.nesting, List.forall_mem_cons, ih]
      omega
  | .group _ _, _, h, n => by
    cases h with
    | group hx =>
      have ih := hx.nested_le_iff (n + 1)
      simp only [nested, Expr.nesting, List.forall_mem_cons, List.forall_mem_append,
        List.not_mem_nil, false_implies, implies_true, and_true, ih]
      omega
  | .unary _ _ _, _, h, n => by
    cases h with
    | unary hx =>
      have ih := hx.nested_le_iff (n + 1)
      simp only [nested, Expr.nesting, List.forall_mem_cons, ih]
      omega
  | .call _ _ _, _, h, n => by
    cases h with
    | call hxs =>
      have ih := hxs.nested_le_iff (n := n + 1)
      simp only [nested, Expr.nesting, List.forall_mem_cons, List.forall_mem_append,
        List.not_mem_nil, false_implies, implies_true, and_true]
      -- the parentheses are there even if there are no arguments
      constructor
      · rintro ⟨_, hparen, hargs, _⟩
        have hdeep := (ih hparen).1 hargs
        omega
      · intro hdeep
        have hargs := (ih (by omega)).2 (by omega)
        exact ⟨by omega, by omega, hargs, by omega⟩
  | .binary _ _ _ _, _, h, n => by
    cases h with
    | binary hx hy =>
      have ihx := hx.nested_le_iff n
      have ihy := hy.nested_le_iff n
      simp only [nested, Expr.nesting, List.forall_mem_cons, List.forall_mem_append, ihx, ihy]
      omega

theorem FormsAll.nested_le_iff : ∀ {ps : List Phrase} {es : List Expr}, FormsAll ps es →
    ∀ {n}, n ≤ limit →
      ((∀ x ∈ nestedArguments n ps, x.2 ≤ limit) ↔ n + Expr.nestingOfAll es ≤ limit)
  | [], _, h, n, hn => by
    cases h
    simp [nestedArguments, Expr.nestingOfAll, hn]
  | [_], _, h, n, hn => by
    obtain _ | ⟨hx, ⟨⟩⟩ := h
    have ih := hx.nested_le_iff n
    simp only [nestedArguments, Expr.nestingOfAll, ih]
    omega
  | _ :: _ :: _, _, h, n, hn => by
    obtain _ | ⟨hx, hxs⟩ := h
    have ih := hx.nested_le_iff n
    have ihs := hxs.nested_le_iff hn
    simp only [nestedArguments, Expr.nestingOfAll, List.forall_mem_append, List.forall_mem_cons,
      ih, ihs]
    omega

end

/-- The tokens of statements nest as deep as the statements do. -/
theorem FormsAll.nested_le_iff_nesting_le : ∀ {ps : List Phrase} {es : List Expr}, FormsAll ps es →
    ((∀ x ∈ ps.flatMap (nested 0), x.2 ≤ limit) ↔ ∀ e ∈ es, e.nesting ≤ limit)
  | [], _, h => by
    cases h
    simp
  | _ :: _, _, h => by
    obtain _ | ⟨hx, hxs⟩ := h
    have ih := hxs.nested_le_iff_nesting_le
    rw [List.flatMap_cons, List.forall_mem_append, List.forall_mem_cons, hx.nested_le_iff 0, ih,
      Nat.zero_add]

end Phrase

end FlagScript
