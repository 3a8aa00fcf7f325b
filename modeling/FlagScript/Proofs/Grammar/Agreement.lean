import FlagScript.Proofs.Grammar.Soundness
import Mathlib.Data.List.Forall2

/-!
# Tokens that agree

Two lists of tokens agree if they say the same, token by token, in whatever places and spellings.
The parser decides by the classes of tokens only, so it takes as many tokens of one list as of the
other and its phrases are alike; phrases that are alike have the same meaning. So what is read from
tokens that agree differs at most in the places and source lines that errors name.
-/

namespace FlagScript

/-- The tokens say the same. -/
structure Token.Agrees (t u : Token) : Prop where
  kind : t.kind = u.kind
  name : t.kind = .identifier → t.name = u.name
  literal : t.kind.isLiteral = true → t.literal = u.literal

/-- Tokens that say one word agree. -/
theorem Token.agrees_of_word? {t u : Token} {w : Word} (ht : t.word? = some w)
    (hu : u.word? = some w) : t.Agrees u := by
  have hk : t.kind = u.kind := by rw [← kind_of_word? ht, kind_of_word? hu]
  refine ⟨hk, ?_, ?_⟩
  · intro hid
    rw [word?_of_identifier hid] at ht
    rw [word?_of_identifier (hk ▸ hid), ← ht] at hu
    simpa using hu.symm
  · intro hlit
    obtain ⟨v, hv, rfl⟩ := (word?_eq_some_iff_of_literal hlit).1 ht
    obtain ⟨v', hv', hw⟩ := (word?_eq_some_iff_of_literal (hk ▸ hlit)).1 hu
    injection hw with _ hvalue
    rw [hv, hv', hk, hvalue]

/-- Tokens that say the same words agree. -/
theorem Token.agree_of_words : ∀ {ws : List Word} {ts us : List Token},
    ts.map word? = ws.map some → us.map word? = ws.map some → List.Forall₂ Agrees ts us
  | [], [], [], _, _ => .nil
  | w :: ws, t :: ts, u :: us, ht, hu => by
    rw [List.map_cons, List.map_cons, List.cons.injEq] at ht hu
    exact .cons (agrees_of_word? ht.1 hu.1) (agree_of_words ht.2 hu.2)

/-! ## Phrases that are alike -/

namespace Phrase

mutual

/-- The phrases have one shape, and their tokens agree. -/
inductive Alike : Phrase → Phrase → Prop where
  | literal {t u : Token} (ht : t.Agrees u) (hk : t.kind.isLiteral = true) :
      Alike (.literal t) (.literal u)
  | flag {t u : Token} (hid : t.name = u.name) : Alike (.flag t) (.flag u)
  | step {t u : Token} {op : AssignOp} (hid : t.name = u.name) : Alike (.step t op) (.step u op)
  | assign {t u : Token} {op : AssignOp} {p q : Position} {x y : Phrase} (hid : t.name = u.name)
      (hxy : Alike x y) : Alike (.assign t op p x) (.assign u op q y)
  | call {t u : Token} {p q : Position} {xs ys : List Phrase} (hid : t.name = u.name)
      (hxys : AllAlike xs ys) : Alike (.call t p xs) (.call u q ys)
  | group {p q : Position} {x y : Phrase} (hxy : Alike x y) : Alike (.group p x) (.group q y)
  | unary {op : UnaryOp} {p q : Position} {x y : Phrase} (hxy : Alike x y) :
      Alike (.unary op p x) (.unary op q y)
  | binary {op : BinaryOp} {p q : Position} {x y x' y' : Phrase} (hl : Alike x y)
      (hr : Alike x' y') : Alike (.binary op p x x') (.binary op q y y')

inductive AllAlike : List Phrase → List Phrase → Prop where
  | nil : AllAlike [] []
  | cons {x y : Phrase} {xs ys : List Phrase} (hxy : Alike x y) (hxys : AllAlike xs ys) :
      AllAlike (x :: xs) (y :: ys)

end

theorem AllAlike.append {xs ys xs' ys' : List Phrase} (h : AllAlike xs ys)
    (h' : AllAlike xs' ys') : AllAlike (xs ++ xs') (ys ++ ys') := by
  induction xs generalizing ys with
  | nil => cases h; exact h'
  | cons x xs ih =>
    obtain _ | ⟨hxy, hxys⟩ := h
    exact .cons hxy (ih hxys)

theorem AllAlike.reverse {xs ys : List Phrase} (h : AllAlike xs ys) :
    AllAlike xs.reverse ys.reverse := by
  induction xs generalizing ys with
  | nil => cases h; exact .nil
  | cons x xs ih =>
    obtain _ | ⟨hxy, hxys⟩ := h
    rw [List.reverse_cons, List.reverse_cons]
    exact (ih hxys).append (.cons hxy .nil)

/-! ## The parser on tokens that agree -/

/-- Both parsers are stuck, or both take phrases that are alike and leave tokens that agree. -/
def AlikeAnswers (x y : Parsed Phrase) : Prop :=
  (∃ s s', x = .error s ∧ y = .error s') ∨
    ∃ p r q s, x = .ok (p, r) ∧ y = .ok (q, s) ∧ Alike p q ∧ List.Forall₂ Token.Agrees r s

theorem alikeAnswers_error {s s' : Stuck} : AlikeAnswers (.error s) (.error s') :=
  .inl ⟨s, s', rfl, rfl⟩

theorem alikeAnswers_ok {p q : Phrase} {r s : List Token} (hp : Alike p q)
    (hr : List.Forall₂ Token.Agrees r s) : AlikeAnswers (.ok (p, r)) (.ok (q, s)) :=
  .inr ⟨p, r, q, s, rfl, rfl, hp, hr⟩

/-- A production that goes on where another one ended answers alike if both do. -/
theorem AlikeAnswers.andThen {x y : Parsed Phrase} {f g : Phrase → List Token → Parsed Phrase} :
    AlikeAnswers x y →
    (∀ p q r s, Alike p q → List.Forall₂ Token.Agrees r s → AlikeAnswers (f p r) (g q s)) →
    AlikeAnswers (match x with | .error s => .error s | .ok (p, r) => f p r)
      (match y with | .error s => .error s | .ok (p, r) => g p r) := by
  rintro (⟨s, s', rfl, rfl⟩ | ⟨p, r, q, s, rfl, rfl, hpq, hr⟩) hfg
  · exact alikeAnswers_error
  · exact hfg p q r s hpq hr

variable {ts us : List Token}

theorem operatorAt?_agrees (n : Nat) (h : List.Forall₂ Token.Agrees ts us) :
    (operatorAt? n ts = none ∧ operatorAt? n us = none) ∨
      ∃ op p q r s, operatorAt? n ts = some (op, p, r) ∧ operatorAt? n us = some (op, q, s) ∧
        List.Forall₂ Token.Agrees r s := by
  cases h with
  | nil => exact .inl ⟨rfl, rfl⟩
  | @cons t u r s ht hr =>
    rw [operatorAt?, operatorAt?, ← ht.kind]
    cases t.kind.binaryOp? with
    | none => exact .inl ⟨rfl, rfl⟩
    | some op =>
      by_cases hn : op.level = n
      · exact .inr ⟨op, t.position, u.position, r, s, by simp [hn], by simp [hn], hr⟩
      · exact .inl ⟨by simp [hn], by simp [hn]⟩

theorem assignmentAt?_agrees (h : List.Forall₂ Token.Agrees ts us) :
    (assignmentAt? ts = none ∧ assignmentAt? us = none) ∨
      ∃ t u op p q r s, assignmentAt? ts = some (t, op, p, r) ∧
        assignmentAt? us = some (u, op, q, s) ∧ t.name = u.name ∧
        List.Forall₂ Token.Agrees r s := by
  cases h with
  | nil => exact .inl ⟨rfl, rfl⟩
  | @cons t u r s ht hr =>
    cases hr with
    | nil => exact .inl ⟨rfl, rfl⟩
    | @cons t' u' r s ht' hr =>
      simp only [assignmentAt?, ← ht.kind, ← ht'.kind]
      by_cases hid : t.kind = .identifier
      · cases t'.kind.assignOp? with
        | none => exact .inl ⟨by simp, by simp⟩
        | some op =>
          exact .inr ⟨t, u, op, t'.position, u'.position, r, s, by simp [hid], by simp [hid],
            ht.name hid, hr⟩
      · exact .inl ⟨by simp [hid], by simp [hid]⟩

theorem startsWith_agrees (k : TokenClass) (h : List.Forall₂ Token.Agrees ts us) :
    startsWith k ts = startsWith k us := by
  cases h with
  | nil => rfl
  | cons ht _ => rw [startsWith, startsWith, ht.kind]

theorem startsExpression_agrees (h : List.Forall₂ Token.Agrees ts us) :
    startsExpression ts = startsExpression us := by
  cases h with
  | nil => rfl
  | cons ht _ => rw [startsExpression, startsExpression, ht.kind]

theorem tail_agrees (h : List.Forall₂ Token.Agrees ts us) :
    List.Forall₂ Token.Agrees ts.tail us.tail := by
  cases h with
  | nil => exact .nil
  | cons _ hr => exact hr

/-- Every production answers alike on tokens that agree. -/
structure ProductionsAgree (bound : Nat) : Prop where
  expression : ∀ {ts us}, List.Forall₂ Token.Agrees ts us →
    AlikeAnswers (expression bound ts) (expression bound us)
  level : ∀ n {ts us}, List.Forall₂ Token.Agrees ts us →
    AlikeAnswers (level bound n ts) (level bound n us)
  chain : ∀ n {x y ts us}, Alike x y → List.Forall₂ Token.Agrees ts us →
    AlikeAnswers (chain bound n x ts) (chain bound n y us)
  prefixed : ∀ {ts us}, List.Forall₂ Token.Agrees ts us →
    AlikeAnswers (prefixed bound ts) (prefixed bound us)
  operand : ∀ {t u ts us}, t.Agrees u → List.Forall₂ Token.Agrees ts us →
    AlikeAnswers (operand bound t ts) (operand bound u us)
  arguments : ∀ {t u p q ts us}, t.name = u.name → List.Forall₂ Token.Agrees ts us →
    AlikeAnswers (arguments bound t p ts) (arguments bound u q us)
  furtherArguments : ∀ {t u p q xs ys ts us}, t.name = u.name → AllAlike xs ys →
    List.Forall₂ Token.Agrees ts us →
    AlikeAnswers (furtherArguments bound t p xs ts) (furtherArguments bound u q ys us)

variable {bound : Nat}

theorem expression_agrees (ih : ProductionsAgree bound) (h : List.Forall₂ Token.Agrees ts us) :
    AlikeAnswers (expression (bound + 1) ts) (expression (bound + 1) us) := by
  rw [expression, expression]
  obtain ⟨hx, hy⟩ | ⟨t, u, op, p, q, r, s, hx, hy, hid, hr⟩ := assignmentAt?_agrees h
  · rw [hx, hy]
    exact ih.level 5 h
  · rw [hx, hy]
    exact (ih.expression hr).andThen fun v w r s hvw hr => alikeAnswers_ok (.assign hid hvw) hr

theorem level_agrees (n : Nat) (ih : ProductionsAgree bound)
    (h : List.Forall₂ Token.Agrees ts us) :
    AlikeAnswers (level (bound + 1) n ts) (level (bound + 1) n us) := by
  cases n with
  | zero =>
    rw [level, level]
    exact ih.prefixed h
  | succ n =>
    rw [level, level]
    exact (ih.level n h).andThen fun p q r s hpq hr => ih.chain n hpq hr

theorem chain_agrees (n : Nat) {x y : Phrase} (ih : ProductionsAgree bound) (hxy : Alike x y)
    (h : List.Forall₂ Token.Agrees ts us) :
    AlikeAnswers (chain (bound + 1) n x ts) (chain (bound + 1) n y us) := by
  rw [chain, chain]
  obtain ⟨hat, hat'⟩ | ⟨op, p, q, r, s, hat, hat', hr⟩ := operatorAt?_agrees (n + 1) h
  · rw [hat, hat']
    exact alikeAnswers_ok hxy h
  · rw [hat, hat']
    -- the chain goes on with the operator applied as its left operand
    exact (ih.level n hr).andThen fun v w r s hvw hr => ih.chain n (.binary hxy hvw) hr

theorem prefixed_agrees (ih : ProductionsAgree bound) (h : List.Forall₂ Token.Agrees ts us) :
    AlikeAnswers (prefixed (bound + 1) ts) (prefixed (bound + 1) us) := by
  cases h with
  | nil => exact alikeAnswers_error
  | @cons t u r s ht hr =>
    rw [prefixed, prefixed, ← ht.kind]
    cases t.kind.unaryOp? with
    | none => exact ih.operand ht hr
    | some op =>
      exact (ih.prefixed hr).andThen fun v w r s hvw hr => alikeAnswers_ok (.unary hvw) hr

theorem operand_agrees {t u : Token} (ih : ProductionsAgree bound) (ht : t.Agrees u)
    (h : List.Forall₂ Token.Agrees ts us) :
    AlikeAnswers (operand (bound + 1) t ts) (operand (bound + 1) u us) := by
  unfold operand
  rw [← ht.kind]
  by_cases hparen : t.kind = .leftParen
  · simp only [hparen, if_true]
    refine (ih.expression h).andThen fun v w r s hvw hr => ?_
    rw [← startsWith_agrees .rightParen hr]
    split
    · exact alikeAnswers_ok (.group hvw) (tail_agrees hr)
    · exact alikeAnswers_error
  · rw [if_neg hparen, if_neg hparen]
    by_cases hid : t.kind = .identifier
    · simp only [hid, if_true]
      have hname := ht.name hid
      cases h with
      | nil => exact alikeAnswers_ok (.flag hname) .nil
      | @cons t' u' r s ht' hr =>
        simp only [← ht'.kind]
        split
        · exact ih.arguments hname hr
        · cases t'.kind.stepOp? with
          | some op => exact alikeAnswers_ok (.step hname) hr
          | none => exact alikeAnswers_ok (.flag hname) (.cons ht' hr)
    · rw [if_neg hid, if_neg hid]
      split
      next hlit => exact alikeAnswers_ok (.literal ht hlit) h
      next => exact alikeAnswers_error

theorem arguments_agrees {t u : Token} {p q : Position} (ih : ProductionsAgree bound)
    (hid : t.name = u.name) (h : List.Forall₂ Token.Agrees ts us) :
    AlikeAnswers (arguments (bound + 1) t p ts) (arguments (bound + 1) u q us) := by
  rw [arguments, arguments, ← startsWith_agrees .rightParen h, ← startsExpression_agrees h]
  split
  · exact alikeAnswers_ok (.call hid .nil) (tail_agrees h)
  · split
    · exact ih.furtherArguments hid .nil h
    · exact alikeAnswers_error

theorem furtherArguments_agrees {t u : Token} {p q : Position} {xs ys : List Phrase}
    (ih : ProductionsAgree bound) (hid : t.name = u.name) (hxys : AllAlike xs ys)
    (h : List.Forall₂ Token.Agrees ts us) :
    AlikeAnswers (furtherArguments (bound + 1) t p xs ts)
      (furtherArguments (bound + 1) u q ys us) := by
  rw [furtherArguments, furtherArguments]
  refine (ih.expression h).andThen fun v w r s hvw hr => ?_
  rw [← startsWith_agrees .comma hr, ← startsWith_agrees .rightParen hr]
  split
  · exact ih.furtherArguments hid (.cons hvw hxys) (tail_agrees hr)
  · split
    · exact alikeAnswers_ok (.call hid (AllAlike.cons hvw hxys).reverse) (tail_agrees hr)
    · exact alikeAnswers_error

theorem productionsAgree (bound : Nat) : ProductionsAgree bound := by
  induction bound with
  | zero =>
    -- with nothing left of the bound every production is stuck
    constructor
    case expression => intro ts us _; rw [expression, expression]; exact alikeAnswers_error
    case level => intro n ts us _; rw [level, level]; exact alikeAnswers_error
    case chain => intro n x y ts us _ _; rw [chain, chain]; exact alikeAnswers_error
    case prefixed => intro ts us _; rw [prefixed, prefixed]; exact alikeAnswers_error
    case operand => intro t u ts us _ _; rw [operand, operand]; exact alikeAnswers_error
    case arguments => intro t u p q ts us _ _; rw [arguments, arguments]; exact alikeAnswers_error
    case furtherArguments =>
      intro t u p q xs ys ts us _ _ _
      rw [furtherArguments, furtherArguments]
      exact alikeAnswers_error
  | succ bound ih =>
    exact ⟨expression_agrees ih, fun n => level_agrees n ih, fun n => chain_agrees n ih,
      prefixed_agrees ih, operand_agrees ih, arguments_agrees ih, furtherArguments_agrees ih⟩

/-- Statements are read alike: both readings are stuck, or their phrases are alike. -/
theorem furtherStatements_agrees (bound : Nat) {xs ys : List Phrase} (hxys : AllAlike xs ys)
    (h : List.Forall₂ Token.Agrees ts us) :
    (∃ s s', furtherStatements bound xs ts = .error s ∧
        furtherStatements bound ys us = .error s') ∨
      ∃ ps qs, furtherStatements bound xs ts = .ok ps ∧
        furtherStatements bound ys us = .ok qs ∧ AllAlike ps qs := by
  induction bound generalizing xs ys ts us with
  | zero => exact .inl ⟨_, _, by rw [furtherStatements], by rw [furtherStatements]⟩
  | succ bound ih =>
    unfold furtherStatements
    have hempty : ts.isEmpty = us.isEmpty := by cases h <;> rfl
    have hdone : xs.isEmpty = ys.isEmpty := by cases hxys <;> rfl
    rw [← hempty, ← hdone, ← startsExpression_agrees h]
    split
    · exact .inr ⟨_, _, rfl, rfl, hxys.reverse⟩
    · split
      · obtain ⟨_, _, hx, hy⟩ | ⟨v, r, w, s, hx, hy, hvw, hr⟩ := (productionsAgree _).expression h
        · rw [hx, hy]
          exact .inl ⟨_, _, rfl, rfl⟩
        · rw [hx, hy]
          exact ih (.cons hvw hxys) hr
      · cases hxys <;> exact .inl ⟨_, _, rfl, rfl⟩

end Phrase

/-! ## Answers apart from places -/

/-- An error apart from the places that it names, and from what it says about a broken grammar. -/
def Error.placeless : Error → Error
  | unexpected _ _ _ => unexpected .start [] []
  | fault _ cause => fault .start cause
  | tooDeep _ limit => tooDeep .start limit
  | condition _ cause => condition .start cause.placeless
  | changes _ what => changes .start what
  | flagName name => flagName name
  | inFile file cause => inFile file cause.placeless
  | unreadable => unreadable

/-- The answers are the same, or errors that differ in places only. -/
def SameAnswer {α : Type} (x y : Except Error α) : Prop :=
  x.mapError Error.placeless = y.mapError Error.placeless

namespace SameAnswer

variable {α β : Type} {x y : Except Error α}

theorem refl (x : Except Error α) : SameAnswer x x := rfl

theorem bind {f g : α → Except Error β} (h : SameAnswer x y) (hfg : ∀ a, SameAnswer (f a) (g a)) :
    SameAnswer (x >>= f) (y >>= g) := by
  unfold SameAnswer at h
  cases x with
  | ok a =>
    cases y with
    | ok b => cases h; exact hfg a
    | error e => cases h
  | error e =>
    cases y with
    | ok b => cases h
    | error e' => exact congrArg Except.error (Except.error.inj h)

theorem eq_ok {a : α} (h : SameAnswer x y) (hx : x = .ok a) : y = .ok a := by
  subst hx
  unfold SameAnswer at h
  cases y with
  | ok b => cases h; rfl
  | error e => cases h

end SameAnswer

namespace Phrase

/-! ## The meaning of phrases that are alike -/

theorem checkDepth_same (depth : Nat) (p q : Position) :
    SameAnswer (checkDepth depth p) (checkDepth depth q) := by
  unfold checkDepth
  split <;> rfl

theorem faultAt_same {α : Type} (p q : Position) (x : Except Fault α) :
    SameAnswer (faultAt p x) (faultAt q x) := by
  cases x <;> rfl

theorem checkCall_eq {t u : Token} (hid : t.name = u.name) (count : Nat) :
    checkCall t count = checkCall u count := by
  unfold checkCall
  rw [hid]

theorem length_chainPlaces_eq (n : Nat) : ∀ {x y : Phrase} {ps qs : List Position}, Alike x y →
    ps.length = qs.length → (chainPlaces n ps x).length = (chainPlaces n qs y).length
  | .binary op p left right, _, ps, qs, h, hlen => by
    obtain _ | _ | _ | _ | _ | _ | _ | ⟨hl, _⟩ := h
    rw [chainPlaces, chainPlaces]
    split
    · exact length_chainPlaces_eq n hl (by simp [hlen])
    · exact hlen
  | .literal _, _, _, _, h, hlen => by cases h; exact hlen
  | .flag _, _, _, _, h, hlen => by cases h; exact hlen
  | .step _ _, _, _, _, h, hlen => by cases h; exact hlen
  | .assign _ _ _ _, _, _, _, h, hlen => by cases h; exact hlen
  | .call _ _ _, _, _, _, h, hlen => by cases h; exact hlen
  | .group _ _, _, _, _, h, hlen => by cases h; exact hlen
  | .unary _ _ _, _, _, _, h, hlen => by cases h; exact hlen

mutual

/-- Phrases that are alike stand for the same expression, or for none for the same reason. -/
theorem meaning_same (depth : Nat) : ∀ {x y : Phrase}, Alike x y →
    SameAnswer (x.meaning depth) (y.meaning depth)
  | .literal t, _, h => by
    obtain ⟨ht, hk⟩ := h
    rw [meaning, meaning, ht.literal hk]
    exact faultAt_same _ _ _
  | .flag t, _, h => by
    obtain _ | ⟨hid⟩ := h
    rw [meaning, meaning, hid]
    exact .refl _
  | .step t op, _, h => by
    obtain _ | _ | ⟨hid⟩ := h
    rw [meaning, meaning, hid]
    exact .refl _
  | .assign t op p x, _, h => by
    obtain _ | _ | _ | ⟨hid, hxy⟩ := h
    rw [meaning, meaning, hid]
    refine .bind (checkDepth_same _ _ _) fun _ => .bind (meaning_same _ hxy) fun _ => .refl _
  | .call t p xs, _, h => by
    obtain _ | _ | _ | _ | ⟨hid, hxys⟩ := h
    rw [meaning, meaning]
    refine .bind (checkDepth_same _ _ _) fun _ => .bind (meanings_same _ hxys) fun es => ?_
    rw [checkCall_eq hid, hid]
    exact .bind (faultAt_same _ _ _) fun _ => .refl _
  | .group p x, _, h => by
    obtain _ | _ | _ | _ | _ | ⟨hxy⟩ := h
    rw [meaning, meaning]
    exact .bind (checkDepth_same _ _ _) fun _ => .bind (meaning_same _ hxy) fun _ => .refl _
  | .unary op p x, _, h => by
    obtain _ | _ | _ | _ | _ | _ | ⟨hxy⟩ := h
    rw [meaning, meaning]
    exact .bind (checkDepth_same _ _ _) fun _ => .bind (meaning_same _ hxy) fun _ => .refl _
  | .binary op p left right, _, h => by
    have hlen := length_chainPlaces_eq op.level h (Eq.refl ([] : List Position).length)
    obtain _ | _ | _ | _ | _ | _ | _ | ⟨hl, hr⟩ := h
    rw [meaning, meaning]
    -- chains have equally many operators, so both are too long or neither is
    simp only [chainOverflow?]
    split
    next place hplace =>
      rw [List.getElem?_eq_some_iff] at hplace
      obtain ⟨hlt, _⟩ := hplace
      rw [hlen] at hlt
      rw [List.getElem?_eq_getElem hlt]
      rfl
    next hplace =>
      rw [List.getElem?_eq_none_iff, hlen, ← List.getElem?_eq_none_iff] at hplace
      rw [hplace]
      exact .bind (meaning_same _ hl) fun _ => .bind (meaning_same _ hr) fun _ => .refl _

theorem meanings_same (depth : Nat) : ∀ {xs ys : List Phrase}, AllAlike xs ys →
    SameAnswer (meanings depth xs) (meanings depth ys)
  | [], _, h => by cases h; exact .refl _
  | x :: xs, _, h => by
    obtain _ | ⟨hxy, hxys⟩ := h
    rw [meanings, meanings]
    exact .bind (meaning_same _ hxy) fun _ => .bind (meanings_same _ hxys) fun _ => .refl _

end

end Phrase

/-! ## Scripts -/

/-- Tokens that agree nest equally deep. -/
theorem Nesting.isSome_findTooDeep_eq {ts us : List Token} (h : List.Forall₂ Token.Agrees ts us)
    (s : Nesting) : (s.findTooDeep ts).isSome = (s.findTooDeep us).isSome := by
  induction h generalizing s with
  | nil => rfl
  | cons ht _ ih =>
    rw [findTooDeep, findTooDeep, ht.kind]
    split
    · rfl
    · exact ih _

/-- Scripts read from tokens that agree are the same. -/
theorem Script.ofTokens_same {ts us : List Token} (h : List.Forall₂ Token.Agrees ts us)
    (source source' : List Char) : SameAnswer (ofTokens source ts) (ofTokens source' us) := by
  have hdeep := Nesting.isSome_findTooDeep_eq h ⟨[], 0, 0, []⟩
  unfold ofTokens Nesting.tooDeep?
  cases hts : Nesting.findTooDeep ⟨[], 0, 0, []⟩ ts with
  | some t =>
    obtain ⟨u, hu⟩ := Option.isSome_iff_exists.1 (hdeep.symm.trans (by rw [hts]; rfl))
    rw [hu]
    rfl
  | none =>
    rw [hts] at hdeep
    rw [Option.isSome_eq_false_iff.1 hdeep.symm |> Option.isNone_iff_eq_none.1]
    have hstatements := Phrase.furtherStatements_agrees (ts.length + 1) .nil h
    unfold Phrase.statements
    rw [← h.length_eq]
    obtain ⟨_, _, hx, hy⟩ | ⟨ps, qs, hx, hy, hpq⟩ := hstatements
    · simp only [hx, hy]
      rfl
    · simp only [hx, hy, ofPhrases_eq_meanings]
      exact Phrase.meanings_same 1 hpq

end FlagScript
