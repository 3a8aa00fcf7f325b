import FlagScript.Proofs.Grammar.Form
import FlagScript.Proofs.Grammar.Soundness
import FlagScript.Proofs.Nesting.Chain
import FlagScript.Script

/-!
# Height of expressions

Expressions are built from the root downwards, and how deep a node would stand is tested on the way.
`Phrase.built` is the meaning of a phrase without these tests. A phrase that stands for an
expression has this meaning if the expression is low enough for the depth of its root, and is
refused as too deep otherwise (`Phrase.meaning_of_built`); so a script that could be read but for
its depth is read exactly if no statement is higher than `maxDepth` (`Script.parse_of_built`).
-/

namespace FlagScript

namespace Expr

mutual

/-- The nodes on the longest path from the root to a leaf. -/
def height : Expr → Nat
  | literal _ _ | flag _ | step _ _ => 1
  | assign _ _ value => height value + 1
  | call _ args => heightOfAll args + 1
  | group inner => height inner + 1
  | binary _ left right => max (height left) (height right) + 1
  | unary _ operand => height operand + 1

/-- The height of the highest one, 0 if there is none. -/
def heightOfAll : List Expr → Nat
  | [] => 0
  | e :: es => max (height e) (heightOfAll es)

end

theorem height_pos (e : Expr) : 0 < e.height := by
  cases e <;> simp [height]

theorem heightOfAll_le_iff {n : Nat} {es : List Expr} :
    heightOfAll es ≤ n ↔ ∀ e ∈ es, e.height ≤ n := by
  induction es with
  | nil => simp [heightOfAll]
  | cons e es ih => rw [heightOfAll, Nat.max_le, ih, List.forall_mem_cons]

theorem heightOfAll_pos {es : List Expr} (h : es ≠ []) : 0 < heightOfAll es := by
  cases es with
  | nil => exact absurd rfl h
  | cons e es =>
    have he := e.height_pos
    rw [heightOfAll]
    omega

end Expr

namespace Phrase

/-! ## Meaning without tests of depth -/

mutual

/-- The expression that a phrase stands for, however deep it nests. -/
def built : Phrase → Except Error Expr
  | literal t => faultAt t.position t.literal
  | flag id => .ok (.flag id.name)
  | step id op => .ok (.step id.name op)
  | assign id op _ value => do
    return .assign id.name op (← built value)
  | group _ inner => do
    return .group (← built inner)
  | unary op _ operand => do
    return .unary op (← built operand)
  | call id _ args => do
    let args ← builtAll args
    faultAt id.position (checkCall id args.length)
    return .call id.name args
  | binary op _ left right => do
    let left ← built left
    return .binary op left (← built right)

def builtAll : List Phrase → Except Error (List Expr)
  | [] => .ok []
  | p :: ps => do
    let e ← built p
    return e :: (← builtAll ps)

end

/-- Every function takes an argument. -/
theorem accepts_zero (b : Builtin) : b.accepts 0 = false := by cases b <;> rfl

/-- The first operand of a chain of operators lies below all of them. -/
theorem length_chainParts_lt_height (level : Nat) : ∀ {p : Phrase} {e : Expr},
    p.built = .ok e → (p.chainParts level).length < e.height
  | binary op opAt left right, e, h => by
    rw [built] at h
    obtain ⟨x, hx, h⟩ := bind_eq_ok_iff.1 h
    obtain ⟨y, _, h⟩ := bind_eq_ok_iff.1 h
    cases h
    have hleft := length_chainParts_lt_height level hx
    rw [chainParts, Expr.height]
    split
    next =>
      rw [List.length_append, List.length_singleton]
      omega
    next => exact Nat.succ_pos _
  | literal _, e, _ | flag _, e, _ | step _ _, e, _ | assign _ _ _ _, e, _ | call _ _ _, e, _
  | group _ _, e, _ | unary _ _ _, e, _ => e.height_pos

/-! ## Meaning with tests of depth -/

/-- The outcome `a` if there is room for it, and otherwise a place that is too deep. -/
structure Settles {α : Type} (x : Except Error α) (a : α) (room : Prop) : Prop where
  fits : room → x = .ok a
  tooDeep : ¬ room → ∃ p, x = .error (.tooDeep p maxDepth)

variable {α β : Type} {depth : Nat}

theorem Settles.of_iff {x : Except Error α} {a : α} {P Q : Prop} (h : Settles x a P)
    (hiff : P ↔ Q) : Settles x a Q :=
  ⟨fun hq => h.fits (hiff.2 hq), fun hq => h.tooDeep fun hp => hq (hiff.1 hp)⟩

theorem settles_ok (a : α) {P : Prop} (h : P) : Settles (.ok a) a P :=
  ⟨fun _ => rfl, fun hno => absurd h hno⟩

/-- One step after the other: the second one is looked at only if there was room for the first. -/
theorem Settles.bind {x : Except Error α} {a : α} {P : Prop} {f : α → Except Error β} {b : β}
    {Q : Prop} (hx : Settles x a P) (hf : P → Settles (f a) b Q) :
    Settles (x >>= f) b (P ∧ Q) where
  fits h := by
    rw [hx.fits h.1]
    exact (hf h.1).fits h.2
  tooDeep h := by
    by_cases hp : P
    · rw [hx.fits hp]
      exact (hf hp).tooDeep fun hq => h ⟨hp, hq⟩
    · obtain ⟨p, hxp⟩ := hx.tooDeep hp
      exact ⟨p, by rw [hxp]; rfl⟩

/-- A step that always succeeds. -/
theorem Settles.map {x : Except Error α} {a : α} {P : Prop} {f : α → Except Error β} {b : β}
    (hx : Settles x a P) (hf : f a = .ok b) : Settles (x >>= f) b P where
  fits h := by
    rw [hx.fits h]
    exact hf
  tooDeep h := by
    obtain ⟨p, hxp⟩ := hx.tooDeep h
    exact ⟨p, by rw [hxp]; rfl⟩

theorem settles_checkDepth (depth : Nat) (p : Position) :
    Settles (checkDepth depth p) () (depth < maxDepth) where
  fits h := by rw [checkDepth, if_neg (Nat.not_le.2 h)]
  tooDeep h := ⟨p, by rw [checkDepth, if_pos (Nat.le_of_not_lt h)]⟩

/-- A node with operands of some height: the test of its depth, the operands one level further down,
and what is made of them. -/
theorem settles_operand {p : Position} {x : Except Error α} {a : α} {f : α → Except Error β} {b : β}
    {n : Nat} (hn : 0 < n) (hf : f a = .ok b)
    (hx : depth < maxDepth → Settles x a (depth + 1 + n ≤ maxDepth + 1)) :
    Settles (checkDepth depth p >>= fun _ => x >>= f) b (depth + (n + 1) ≤ maxDepth + 1) := by
  refine ((settles_checkDepth depth p).bind fun hroom => (hx hroom).map hf).of_iff ?_
  omega

mutual

/-- A phrase has its meaning at a depth if there is room for the height of what it stands for. -/
theorem meaning_of_built : ∀ {p : Phrase} {e : Expr} {depth : Nat}, p.built = .ok e →
    depth ≤ maxDepth → Settles (p.meaning depth) e (depth + e.height ≤ maxDepth + 1)
  | literal t, e, depth, h, hdepth => by
    rw [built] at h
    obtain ⟨v, quoted, rfl, _⟩ := Token.eq_literal_of_eq_ok (faultAt_eq_ok_iff.1 h)
    rw [meaning, h]
    exact settles_ok _ (by rw [Expr.height]; omega)
  | flag id, e, depth, h, hdepth => by
    cases h
    rw [meaning]
    exact settles_ok _ (by rw [Expr.height]; omega)
  | step id op, e, depth, h, hdepth => by
    cases h
    rw [meaning]
    exact settles_ok _ (by rw [Expr.height]; omega)
  | assign id op opAt value, e, depth, h, hdepth => by
    rw [built] at h
    obtain ⟨v, hv, h⟩ := bind_eq_ok_iff.1 h
    cases h
    rw [meaning, Expr.height]
    exact settles_operand v.height_pos rfl fun hroom => meaning_of_built hv hroom
  | group parenAt inner, e, depth, h, hdepth => by
    rw [built] at h
    obtain ⟨x, hx, h⟩ := bind_eq_ok_iff.1 h
    cases h
    rw [meaning, Expr.height]
    exact settles_operand x.height_pos rfl fun hroom => meaning_of_built hx hroom
  | unary op opAt operand, e, depth, h, hdepth => by
    rw [built] at h
    obtain ⟨x, hx, h⟩ := bind_eq_ok_iff.1 h
    cases h
    rw [meaning, Expr.height]
    exact settles_operand x.height_pos rfl fun hroom => meaning_of_built hx hroom
  | call id parenAt args, e, depth, h, hdepth => by
    rw [built] at h
    obtain ⟨xs, hxs, h⟩ := bind_eq_ok_iff.1 h
    obtain ⟨u, hcall, h⟩ := bind_eq_ok_iff.1 h
    cases h
    -- a function that takes no argument would be refused only for its arguments' depth
    have hargs : xs ≠ [] := by
      rintro rfl
      obtain ⟨b, _, hb⟩ := checkCall_eq_ok_iff.1 (faultAt_eq_ok_iff.1 hcall)
      rw [List.length_nil, accepts_zero] at hb
      cases hb
    rw [meaning, Expr.height]
    have hchecked : (faultAt id.position (checkCall id xs.length) >>= fun _ =>
        pure (Expr.call id.name xs)) = .ok (.call id.name xs) := by
      rw [hcall]
      rfl
    exact settles_operand (Expr.heightOfAll_pos hargs) hchecked
      fun hroom => meanings_of_built hxs hroom
  | binary op opAt left right, e, depth, h, hdepth => by
    have hlength := length_chainParts_lt_height op.level h
    have hchain := chainParts_ne_nil op opAt left right
    have hnone := chainOverflow?_eq_none_iff depth hchain
    rw [built] at h
    obtain ⟨x, hx, h⟩ := bind_eq_ok_iff.1 h
    obtain ⟨y, hy, h⟩ := bind_eq_ok_iff.1 h
    cases h
    rw [meaning, Expr.height]
    rw [Expr.height] at hlength
    cases hover : chainOverflow? depth op.level (binary op opAt left right) with
    | some place =>
      -- the first operand has no room below all operators
      have hlong : ¬ depth + ((binary op opAt left right).chainParts op.level).length ≤ maxDepth :=
        fun hshort => by rw [hnone.2 hshort] at hover; cases hover
      exact ⟨fun hroom => by omega, fun _ => ⟨place, rfl⟩⟩
    | none =>
      have hshort := hnone.1 hover
      have hpos := List.length_pos_iff.2 hchain
      have hdeeper : depth + 1 ≤ maxDepth := by omega
      have hright := (meaning_of_built hy hdeeper).map (f := fun r => pure (Expr.binary op x r)) rfl
      refine ((meaning_of_built hx hdeeper).bind fun _ => hright).of_iff ?_
      omega

theorem meanings_of_built : ∀ {ps : List Phrase} {es : List Expr} {depth : Nat},
    builtAll ps = .ok es → depth ≤ maxDepth →
      Settles (meanings depth ps) es (depth + Expr.heightOfAll es ≤ maxDepth + 1)
  | [], es, depth, h, hdepth => by
    cases h
    rw [meanings]
    exact settles_ok _ (by rw [Expr.heightOfAll]; omega)
  | p :: ps, es, depth, h, hdepth => by
    rw [builtAll] at h
    obtain ⟨x, hx, h⟩ := bind_eq_ok_iff.1 h
    obtain ⟨xs, hxs, h⟩ := bind_eq_ok_iff.1 h
    cases h
    rw [meanings, Expr.heightOfAll]
    have hmore := (meanings_of_built hxs hdepth).map (f := fun es => pure (x :: es)) rfl
    refine ((meaning_of_built hx hdepth).bind fun _ => hmore).of_iff ?_
    omega

end

end Phrase

namespace Script

/-- A script that is read but for its depth: it is read as what was built if no statement is higher
than `maxDepth`, and is refused as too deep otherwise. The chains of operators that are read on the
way keep their counters above their own depth, and are refused at operators of their own. -/
theorem parse_of_built {source : String} {ts : List Token} {ps : List Phrase} {script : Script}
    (hlex : Token.lex source.toList = .ok ts) (hnesting : Nesting.tooDeep? ts = none)
    (hps : Phrase.statements ts = .ok ps) (hbuilt : Phrase.builtAll ps = .ok script) :
    ((∀ e ∈ script, e.height ≤ maxDepth) → parse source = .ok script) ∧
      ((¬ ∀ e ∈ script, e.height ≤ maxDepth) →
        ∃ p, parse source = .error (.tooDeep p maxDepth)) ∧
      ∀ depth op opAt left right,
        Phrase.ChainRuns depth op.level (.binary op opAt left right) := by
  have hparse : parse source = Phrase.meanings 1 ps := by
    rw [parse]
    simp only [hlex, ofTokens, hnesting, hps, ofPhrases_eq_meanings]
  have hroom : 1 + Expr.heightOfAll script ≤ maxDepth + 1 ↔ ∀ e ∈ script, e.height ≤ maxDepth := by
    rw [← Expr.heightOfAll_le_iff]
    omega
  have hsettles := (Phrase.meanings_of_built hbuilt (show 1 ≤ maxDepth by decide)).of_iff hroom
  rw [hparse]
  exact ⟨hsettles.fits, hsettles.tooDeep, Phrase.chainRuns⟩

/-- A difference, three nodes high. -/
theorem parse_of_built_difference :
    parse "1 - -x" = .ok [.binary .sub (.literal (.int 1) false)
      (.unary .neg (.literal (.text "x") false))] := by
  have hlex : Token.lex "1 - -x".toList = .ok [⟨.number, ['1'], ⟨1, 1⟩⟩, ⟨.minus, ['-'], ⟨1, 3⟩⟩,
      ⟨.minus, ['-'], ⟨1, 5⟩⟩, ⟨.text, ['x'], ⟨1, 6⟩⟩] := by decide +kernel
  have hps : Phrase.statements [⟨.number, ['1'], ⟨1, 1⟩⟩, ⟨.minus, ['-'], ⟨1, 3⟩⟩,
      ⟨.minus, ['-'], ⟨1, 5⟩⟩, ⟨.text, ['x'], ⟨1, 6⟩⟩] =
        .ok [.binary .sub ⟨1, 3⟩ (.literal ⟨.number, ['1'], ⟨1, 1⟩⟩)
          (.unary .neg ⟨1, 5⟩ (.literal ⟨.text, ['x'], ⟨1, 6⟩⟩))] := rfl
  exact (parse_of_built hlex (by decide +kernel) hps (by decide +kernel)).1 (by decide +kernel)

end Script

end FlagScript
