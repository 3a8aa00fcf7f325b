import FlagScript.Proofs.Grammar.Acceptance

/-!
# Tokens behind a statement

The parser looks at the token behind what it takes, and takes the same if that token cannot go on
with it (`Parted`). So the statements of tokens with others behind them are those of both
(`statements_append`).
-/

namespace FlagScript

namespace Phrase

variable {ts us rest : List Token}

/-! ## What does not go on -/

/-- The second tokens do not go on with the last expression of the first ones: they begin with no
operator, and with no parenthesis where a name stands in front. -/
structure Parted (ts us : List Token) : Prop where
  operator : ∀ u ∈ us.head?, u.kind.binaryOp? = none
  step : ∀ u ∈ us.head?, u.kind.stepOp? = none
  assignment : ∀ u ∈ us.head?, u.kind.assignOp? = none
  call : ∀ t ∈ ts.getLast?, t.kind = .identifier → ∀ u ∈ us.head?, u.kind ≠ .leftParen

theorem parted_nil (ts : List Token) : Parted ts [] := by
  constructor <;> simp

theorem Parted.suffix (used : List Token) (h : Parted (used ++ rest) us) : Parted rest us := by
  refine ⟨h.operator, h.step, h.assignment, fun t ht => h.call t ?_⟩
  rw [List.getLast?_append, Option.mem_def.1 ht]
  rfl

theorem Parted.tail {t : Token} (h : Parted (t :: ts) us) : Parted ts us :=
  suffix [t] h

theorem Parted.ofExpression {bound : Nat} {p : Phrase} (h : Parted ts us)
    (hp : expression bound ts = .ok (p, rest)) : Parted rest us := by
  obtain ⟨used, rfl, _⟩ := (productionsWritten bound).expression hp
  exact h.suffix used

theorem Parted.ofLevel {bound n : Nat} {p : Phrase} (h : Parted ts us)
    (hp : level bound n ts = .ok (p, rest)) : Parted rest us := by
  obtain ⟨used, rfl, _⟩ := (productionsWritten bound).level hp
  exact h.suffix used

/-! ## What is seen of the tokens -/

theorem operatorAt?_append (h : Parted ts us) (n : Nat) :
    operatorAt? n (ts ++ us) =
      (operatorAt? n ts).map fun (op, p, rest) => (op, p, rest ++ us) := by
  cases ts with
  | nil =>
    cases us with
    | nil => rfl
    | cons u us => simp [operatorAt?, h.operator u rfl]
  | cons t ts =>
    rw [List.cons_append, operatorAt?, operatorAt?]
    split
    · split <;> rfl
    · rfl

theorem assignmentAt?_append (h : Parted ts us) (hne : ts ≠ []) :
    assignmentAt? (ts ++ us) =
      (assignmentAt? ts).map fun (id, op, p, rest) => (id, op, p, rest ++ us) := by
  match ts, hne with
  | [t], _ =>
    cases us with
    | nil => rfl
    | cons u us => simp [assignmentAt?, h.assignment u rfl]
  | id :: t :: ts, _ =>
    rw [List.cons_append, List.cons_append, assignmentAt?, assignmentAt?]
    split
    · cases t.kind.assignOp? <;> rfl
    · rfl

theorem startsWith_append {k : TokenClass} (h : startsWith k ts = true) (us : List Token) :
    startsWith k (ts ++ us) = true ∧ (ts ++ us).tail = ts.tail ++ us := by
  cases ts with
  | nil => cases h
  | cons t ts => exact ⟨h, rfl⟩

/-! ## Productions -/

/-- An answer with tokens behind: it takes the same and leaves these as well. -/
def Grows (us : List Token) (x y : Parsed Phrase) : Prop :=
  ∀ p rest, x = .ok (p, rest) → y = .ok (p, rest ++ us)

theorem grows_error (s : Stuck) (y : Parsed Phrase) : Grows us (.error s) y := by
  intro p rest h
  cases h

theorem grows_ok (p : Phrase) (rest : List Token) :
    Grows us (.ok (p, rest)) (.ok (p, rest ++ us)) := by
  rintro _ _ ⟨⟩
  rfl

/-- A production that goes on where another one ended grows if both do. -/
theorem Grows.andThen {x y : Parsed Phrase} {f g : Phrase → List Token → Parsed Phrase} :
    Grows us x y →
    (∀ p rest, x = .ok (p, rest) → Grows us (f p rest) (g p (rest ++ us))) →
    Grows us (match x with | .error s => .error s | .ok (p, rest) => f p rest)
      (match y with | .error s => .error s | .ok (p, rest) => g p rest) := by
  intro h hfg
  cases x with
  | error s => exact grows_error s _
  | ok answer =>
    obtain ⟨p, rest⟩ := answer
    rw [h p rest rfl]
    exact hfg p rest rfl

/-- Every production takes the same with tokens behind that do not go on, and with more depth. -/
structure ProductionsGrow (bound : Nat) : Prop where
  expression : ∀ {limit ts us}, bound ≤ limit → Parted ts us →
    Grows us (expression bound ts) (expression limit (ts ++ us))
  level : ∀ {limit n ts us}, bound ≤ limit → Parted ts us →
    Grows us (level bound n ts) (level limit n (ts ++ us))
  chain : ∀ {limit n left ts us}, bound ≤ limit → Parted ts us →
    Grows us (chain bound n left ts) (chain limit n left (ts ++ us))
  prefixed : ∀ {limit ts us}, bound ≤ limit → Parted ts us →
    Grows us (prefixed bound ts) (prefixed limit (ts ++ us))
  operand : ∀ {limit t ts us}, bound ≤ limit → Parted (t :: ts) us →
    Grows us (operand bound t ts) (operand limit t (ts ++ us))
  arguments : ∀ {limit id q ts us}, bound ≤ limit → Parted ts us →
    Grows us (arguments bound id q ts) (arguments limit id q (ts ++ us))
  furtherArguments : ∀ {limit id q done ts us}, bound ≤ limit → Parted ts us →
    Grows us (furtherArguments bound id q done ts) (furtherArguments limit id q done (ts ++ us))

variable {bound limit : Nat}

theorem level_grows (ih : ProductionsGrow bound) (n : Nat) (hlimit : bound ≤ limit)
    (h : Parted ts us) : Grows us (level (bound + 1) n ts) (level (limit + 1) n (ts ++ us)) := by
  cases n with
  | zero =>
    rw [level, level]
    exact ih.prefixed hlimit h
  | succ n =>
    rw [level, level]
    exact (ih.level hlimit h).andThen fun left rest hleft => ih.chain hlimit (h.ofLevel hleft)

theorem chain_grows (ih : ProductionsGrow bound) (n : Nat) (left : Phrase) (hlimit : bound ≤ limit)
    (h : Parted ts us) :
    Grows us (chain (bound + 1) n left ts) (chain (limit + 1) n left (ts ++ us)) := by
  rw [chain, chain, operatorAt?_append h]
  cases hat : operatorAt? (n + 1) ts with
  | none => exact grows_ok left ts
  | some found =>
    obtain ⟨op, opAt, rest⟩ := found
    obtain ⟨t, rfl, _⟩ := eq_cons_of_operatorAt? hat
    refine Grows.andThen (f := fun right rest => chain bound n (.binary op opAt left right) rest)
      (g := fun right rest => chain limit n (.binary op opAt left right) rest)
      (ih.level hlimit h.tail) fun right rest' hright => ?_
    exact ih.chain hlimit (h.tail.ofLevel hright)

theorem prefixed_grows (ih : ProductionsGrow bound) (hlimit : bound ≤ limit) (h : Parted ts us) :
    Grows us (prefixed (bound + 1) ts) (prefixed (limit + 1) (ts ++ us)) := by
  cases ts with
  | nil =>
    rw [prefixed]
    exact grows_error _ _
  | cons t ts =>
    rw [List.cons_append, prefixed, prefixed]
    cases t.kind.unaryOp? with
    | none => exact ih.operand hlimit h
    | some op =>
      refine (ih.prefixed hlimit h.tail).andThen fun x rest _ => ?_
      exact grows_ok (.unary op t.position x) rest

theorem expression_grows (ih : ProductionsGrow bound) (hlimit : bound ≤ limit) (h : Parted ts us) :
    Grows us (expression (bound + 1) ts) (expression (limit + 1) (ts ++ us)) := by
  by_cases hne : ts = []
  · -- of nothing nothing is read
    subst hne
    intro p rest hp
    exact absurd (length_of_expression hp) (Nat.not_lt_zero _)
  rw [expression, expression, assignmentAt?_append h hne]
  cases hat : assignmentAt? ts with
  | none => exact ih.level hlimit h
  | some found =>
    obtain ⟨id, op, opAt, rest⟩ := found
    obtain ⟨t, rfl, _⟩ := eq_cons_of_assignmentAt? hat
    refine (ih.expression hlimit h.tail.tail).andThen fun value rest' _ => ?_
    exact grows_ok (.assign id op opAt value) rest'

theorem operand_grows (ih : ProductionsGrow bound) (hlimit : bound ≤ limit) {t : Token}
    (h : Parted (t :: ts) us) :
    Grows us (operand (bound + 1) t ts) (operand (limit + 1) t (ts ++ us)) := by
  unfold operand
  split
  · refine (ih.expression hlimit h.tail).andThen fun inner rest _ => ?_
    by_cases hclose : startsWith .rightParen rest = true
    · obtain ⟨hclose', htail⟩ := startsWith_append hclose us
      rw [if_pos hclose, if_pos hclose', htail]
      exact grows_ok _ _
    · rw [if_neg hclose]
      exact grows_error _ _
  · split
    next hid =>
      cases ts with
      | nil =>
        -- a name that was at the end gets neither arguments nor a step
        cases us with
        | nil => exact grows_ok _ _
        | cons u us =>
          have hparen := h.call t rfl hid u rfl
          have hstep := h.step u rfl
          simp only [List.nil_append, hparen, if_false, hstep]
          exact grows_ok (.flag t) []
      | cons u rest =>
        simp only [List.cons_append]
        split
        · exact ih.arguments hlimit h.tail.tail
        · split
          · exact grows_ok _ _
          · exact grows_ok _ (u :: rest)
    next =>
      split
      · exact grows_ok _ _
      · exact grows_error _ _

theorem arguments_grows (ih : ProductionsGrow bound) (hlimit : bound ≤ limit) (id : Token)
    (q : Position) (h : Parted ts us) :
    Grows us (arguments (bound + 1) id q ts) (arguments (limit + 1) id q (ts ++ us)) := by
  rw [arguments, arguments]
  cases ts with
  | nil => exact grows_error _ _
  | cons t ts =>
    have hclose : startsWith .rightParen (t :: ts ++ us) = startsWith .rightParen (t :: ts) := rfl
    have hstarts : startsExpression (t :: ts ++ us) = startsExpression (t :: ts) := rfl
    rw [hclose, hstarts]
    split
    · exact grows_ok _ ts
    · split
      · exact ih.furtherArguments hlimit h
      · exact grows_error _ _

theorem furtherArguments_grows (ih : ProductionsGrow bound) (hlimit : bound ≤ limit) (id : Token)
    (q : Position) (done : List Phrase) (h : Parted ts us) :
    Grows us (furtherArguments (bound + 1) id q done ts)
      (furtherArguments (limit + 1) id q done (ts ++ us)) := by
  rw [furtherArguments, furtherArguments]
  refine (ih.expression hlimit h).andThen fun arg rest harg => ?_
  have hrest := h.ofExpression harg
  cases rest with
  | nil => exact grows_error _ _
  | cons t rest =>
    have hcomma : startsWith .comma (t :: rest ++ us) = startsWith .comma (t :: rest) := rfl
    have hclose : startsWith .rightParen (t :: rest ++ us) = startsWith .rightParen (t :: rest) :=
      rfl
    rw [hcomma, hclose]
    split
    · exact ih.furtherArguments hlimit hrest.tail
    · split
      · exact grows_ok _ rest
      · exact grows_error _ _

theorem productionsGrow (bound : Nat) : ProductionsGrow bound := by
  induction bound with
  | zero =>
    -- with nothing left of the bound every production is stuck
    constructor
    case expression => intros; rw [expression]; exact grows_error _ _
    case level => intros; rw [level]; exact grows_error _ _
    case chain => intros; rw [chain]; exact grows_error _ _
    case prefixed => intros; rw [prefixed]; exact grows_error _ _
    case operand => intros; rw [operand]; exact grows_error _ _
    case arguments => intros; rw [arguments]; exact grows_error _ _
    case furtherArguments => intros; rw [furtherArguments]; exact grows_error _ _
  | succ bound ih =>
    have hpred : ∀ {limit}, bound + 1 ≤ limit → ∃ l, limit = l + 1 ∧ bound ≤ l :=
      fun {limit} h => ⟨limit - 1, by omega, by omega⟩
    constructor
    case expression =>
      intro limit ts us hlimit h
      obtain ⟨limit, rfl, hle⟩ := hpred hlimit
      exact expression_grows ih hle h
    case level =>
      intro limit n ts us hlimit h
      obtain ⟨limit, rfl, hle⟩ := hpred hlimit
      exact level_grows ih n hle h
    case chain =>
      intro limit n left ts us hlimit h
      obtain ⟨limit, rfl, hle⟩ := hpred hlimit
      exact chain_grows ih n left hle h
    case prefixed =>
      intro limit ts us hlimit h
      obtain ⟨limit, rfl, hle⟩ := hpred hlimit
      exact prefixed_grows ih hle h
    case operand =>
      intro limit t ts us hlimit h
      obtain ⟨limit, rfl, hle⟩ := hpred hlimit
      exact operand_grows ih hle h
    case arguments =>
      intro limit id q ts us hlimit h
      obtain ⟨limit, rfl, hle⟩ := hpred hlimit
      exact arguments_grows ih hle id q h
    case furtherArguments =>
      intro limit id q done ts us hlimit h
      obtain ⟨limit, rfl, hle⟩ := hpred hlimit
      exact furtherArguments_grows ih hle id q done h

/-! ## Statements -/

/-- Statements are read behind others as they are read on their own. -/
theorem furtherStatements_behind {done ps : List Phrase} (before : List Phrase)
    (hlimit : bound ≤ limit) (h : furtherStatements bound done ts = .ok ps) :
    furtherStatements limit (done ++ before) ts = .ok (before.reverse ++ ps) := by
  induction bound generalizing limit done ts with
  | zero => unfold furtherStatements at h; cases h
  | succ bound ih =>
    obtain ⟨limit, rfl⟩ : ∃ l, limit = l + 1 := ⟨limit - 1, by omega⟩
    unfold furtherStatements at h ⊢
    split at h
    next hdone =>
      cases h
      simp only [Bool.and_eq_true, Bool.not_eq_true', List.isEmpty_eq_false_iff] at hdone
      rw [if_pos (by simp [hdone]), List.reverse_append]
    next hdone =>
      split at h
      next hstarts =>
        have hne : ts.isEmpty = false := by cases ts with | nil => cases hstarts | cons => rfl
        rw [hne, Bool.false_and, if_neg Bool.false_ne_true, if_pos hstarts]
        split at h
        · cases h
        next p rest hp =>
          have hdepth : depthBound bound ≤ depthBound limit := by unfold depthBound; omega
          -- a larger bound reads the same statement, since nothing is added behind the tokens
          have hgrown := (productionsGrow _).expression hdepth (parted_nil ts) p rest hp
          rw [List.append_nil, List.append_nil] at hgrown
          simp only [hgrown]
          exact ih (by omega) h
      next => split at h <;> cases h

/-- Statements with others behind them are read as both are. -/
theorem furtherStatements_append {done ps qs : List Phrase} {behind : Nat}
    (h : furtherStatements bound done ts = .ok ps) (hus : furtherStatements behind [] us = .ok qs)
    (hparted : Parted ts us) (hbound : bound ≤ limit) (hlimit : ts.length + behind ≤ limit) :
    furtherStatements limit done (ts ++ us) = .ok (ps ++ qs) := by
  induction bound generalizing limit done ts with
  | zero => unfold furtherStatements at h; cases h
  | succ bound ih =>
    unfold furtherStatements at h
    split at h
    next hend =>
      cases h
      simp only [Bool.and_eq_true, List.isEmpty_iff] at hend
      obtain ⟨rfl, _⟩ := hend
      -- the first tokens are used up, and the statements of the others are read on from here
      exact furtherStatements_behind done (by simpa using hlimit) hus
    next =>
      obtain ⟨limit, rfl⟩ : ∃ l, limit = l + 1 := ⟨limit - 1, by omega⟩
      split at h
      next hstarts =>
        split at h
        · cases h
        next p rest hp =>
          have hdepth : depthBound bound ≤ depthBound limit := by unfold depthBound; omega
          -- the statement in front does not reach into the tokens that were added
          have hgrown := (productionsGrow _).expression hdepth hparted p rest hp
          have hlen := length_of_expression hp
          unfold furtherStatements
          cases ts with
          | nil => cases hstarts
          | cons t ts =>
            have hstarts' : startsExpression (t :: ts ++ us) = true := hstarts
            have hempty : (t :: ts ++ us).isEmpty = false := rfl
            rw [hempty, Bool.false_and, if_neg Bool.false_ne_true, if_pos hstarts']
            simp only [hgrown]
            exact ih h (hparted.ofExpression hp) (by omega) (by omega)
      next => split at h <;> cases h

/-- Tokens with others behind them that do not go on with them are read as both are. -/
theorem statements_append {ps qs : List Phrase} (hts : statements ts = .ok ps)
    (hus : statements us = .ok qs) (h : Parted ts us) : statements (ts ++ us) = .ok (ps ++ qs) := by
  refine furtherStatements_append hts hus h ?_ ?_
  · rw [List.length_append]
    omega
  · rw [List.length_append]
    omega

end Phrase

end FlagScript
