import FlagScript.Proofs.Nesting.Limit
import FlagScript.Proofs.Source.RoundTrip
import Mathlib.Data.List.Chain

/-!
# Reading expressions that only call

An expression of groups, calls, flags and literals is read from any tokens that say its words, if
what stands behind them does not go on with it (`readsOperand`). No operator has to be found
its operands, so this goes by the expression alone.
-/

namespace FlagScript

namespace Expr

mutual

/-- No operators and no assignments, every call fits its function, and only text is quoted. -/
def Plain : Expr → Prop
  | literal v quoted => quoted = true → ∃ s, v = .text s
  | flag _ => True
  | call name args =>
    (∃ b, Builtin.find? name = some b ∧ b.accepts args.length = true) ∧ AllPlain args
  | group inner => Plain inner
  | assign _ _ _ | step _ _ | binary _ _ _ | unary _ _ => False

def AllPlain : List Expr → Prop
  | [] => True
  | e :: es => Plain e ∧ AllPlain es

end

theorem argumentWords_eq_cons (e : Expr) (es : List Expr) :
    ∃ w ws, argumentWords (e :: es) = w :: ws ∧ w.kind.startsExpression = true := by
  obtain ⟨w, ws, hwords, hw⟩ := e.words_eq_cons
  cases es with
  | nil => exact ⟨w, ws, hwords, hw⟩
  | cons e' es =>
    exact ⟨w, ws ++ .mark .comma :: argumentWords (e' :: es),
      by rw [argumentWords, hwords, List.cons_append], hw⟩

def isFlag : Expr → Bool
  | flag _ => true
  | _ => false

def isGroup : Expr → Bool
  | group _ => true
  | _ => false

/-- One statement may stand in front of another one: a name and a group would be read as a call. -/
def KeepsApart (e e' : Expr) : Prop := e.isFlag = true → e'.isGroup = false

end Expr

/-! ## Literals among the tokens -/

namespace TokenClass

variable {k : TokenClass}

theorem unaryOp?_of_isLiteral (h : k.isLiteral = true) : k.unaryOp? = none := by
  revert h
  cases k <;> decide

theorem ends_of_isLiteral (h : k.isLiteral = true) :
    k.binaryOp? = none ∧ k.stepOp? = none ∧ k.assignOp? = none := by
  revert h
  cases k <;> decide

theorem ne_of_isLiteral (h : k.isLiteral = true) : k ≠ .leftParen ∧ k ≠ .identifier := by
  revert h
  cases k <;> decide

end TokenClass

namespace Phrase

variable {bound : Nat} {t u : Token} {ts us rest : List Token} {p : Phrase}

/-! ## What stands behind an expression -/

/-- The tokens do not go on with an expression in front of them: they begin with no operator, and
with no parenthesis if a name stands there. -/
def Apart (e : Expr) (rest : List Token) : Prop :=
  ∀ u ∈ rest.head?, u.kind.binaryOp? = none ∧ u.kind.stepOp? = none ∧ u.kind.assignOp? = none ∧
    (e.isFlag = true → u.kind ≠ .leftParen)

theorem apart_nil (e : Expr) : Apart e [] := by simp [Apart]

theorem apart_of_closing (e : Expr) (hu : u.kind = .comma ∨ u.kind = .rightParen) :
    Apart e (u :: rest) := by
  simp only [Apart, List.head?_cons, Option.mem_some_iff]
  rintro _ rfl
  rcases hu with hu | hu <;> simp [hu, TokenClass.binaryOp?, TokenClass.stepOp?,
    TokenClass.assignOp?]

theorem operatorAt?_eq_none {n : Nat} (h : ∀ u ∈ rest.head?, u.kind.binaryOp? = none) :
    operatorAt? n rest = none := by
  cases rest with
  | nil => rfl
  | cons u rest => simp [operatorAt?, h u (by simp)]

/-- An operand is an expression if no operator stands behind it. -/
theorem expression_of_operand (hunary : t.kind.unaryOp? = none)
    (hassign : assignmentAt? (t :: ts) = none) (h : operand bound t ts = .ok (p, rest))
    (hrest : ∀ u ∈ rest.head?, u.kind.binaryOp? = none) :
    expression (bound + 8) (t :: ts) = .ok (p, rest) := by
  have hlevel : ∀ n, level (bound + 2 + n) n (t :: ts) = .ok (p, rest) := by
    intro n
    induction n with
    | zero =>
      rw [level, prefixed]
      simp only [hunary, h]
    | succ n ih =>
      rw [show bound + 2 + (n + 1) = bound + 1 + n + 1 + 1 by omega, level,
        show bound + 1 + n + 1 = bound + 2 + n by omega, ih]
      simp only
      rw [show bound + 2 + n = bound + 1 + n + 1 by omega, chain, operatorAt?_eq_none hrest]
  rw [expression, hassign]
  exact hlevel 5

/-! ## Tokens and words -/

/-- A token that says a literal stands for it. -/
theorem literal_of_word? {v : Value} {quoted : Bool} (hv : quoted = true → ∃ s, v = .text s)
    (h : t.word? = some (.literal (v.tokenKind quoted) v)) :
    t.kind.isLiteral = true ∧ t.literal = .ok (.literal v quoted) := by
  have hkind : v.tokenKind quoted = t.kind := Token.kind_of_word? h
  have hlit : t.kind.isLiteral = true := by
    rw [← hkind]
    cases v <;> cases quoted <;> rfl
  obtain ⟨w, hw, heq⟩ := (Token.word?_eq_some_iff_of_literal hlit).1 h
  obtain ⟨_, rfl⟩ := Word.literal.inj heq
  refine ⟨hlit, hw.trans ?_⟩
  rw [← hkind]
  cases quoted with
  | true =>
    obtain ⟨s, rfl⟩ := hv rfl
    rfl
  | false => cases v <;> rfl

theorem name_of_word? {name : String} (h : t.word? = some (.name name)) :
    t.kind = .identifier ∧ t.name = name := by
  have hkind : t.kind = .identifier := (Token.kind_of_word? h).symm
  rw [Token.word?_of_identifier hkind] at h
  cases h
  exact ⟨hkind, rfl⟩

/-- Tokens that say a word, and then others. -/
theorem exists_of_words_cons {w : Word} {ws : List Word}
    (h : ts.map Token.word? = (w :: ws).map some) :
    ∃ t us, ts = t :: us ∧ t.word? = some w ∧ us.map Token.word? = ws.map some := by
  obtain ⟨t, us, rfl, ht, hus⟩ := List.map_eq_cons_iff.1 h
  exact ⟨t, us, rfl, ht, hus⟩

/-- Tokens that say what stands in front of a closing parenthesis, and then it. -/
theorem exists_of_words_append {ws : List Word}
    (h : ts.map Token.word? = (ws ++ [Word.mark .rightParen]).map some) :
    ∃ us u, ts = us ++ [u] ∧ us.map Token.word? = ws.map some ∧ u.kind = .rightParen := by
  rw [List.map_append] at h
  obtain ⟨us, vs, rfl, hus, hvs⟩ := List.map_eq_append_iff.1 h
  obtain ⟨u, _, rfl, hu, hnil⟩ := exists_of_words_cons hvs
  obtain rfl := List.map_eq_nil_iff.1 hnil
  exact ⟨us, u, rfl, hus, (Token.kind_of_word? hu).symm⟩

/-! ## Reading -/

/-- Wherever an expression stands, its operand is read from tokens that say its words. -/
def ReadsOperand (e : Expr) : Prop :=
  ∀ (bound : Nat) (t : Token) (ts rest : List Token), (t :: ts).map Token.word? = e.words.map some →
    10 * (t :: ts).length ≤ bound → Apart e rest →
      ∃ p, operand bound t (ts ++ rest) = .ok (p, rest) ∧ Forms p e

/-- The same for the whole expression. -/
def ReadsExpression (e : Expr) : Prop :=
  ∀ (bound : Nat) (ts rest : List Token), ts.map Token.word? = e.words.map some →
    10 * ts.length + 8 ≤ bound → Apart e rest →
      ∃ p, expression bound (ts ++ rest) = .ok (p, rest) ∧ Forms p e

theorem assignmentAt?_cons_eq_none (h : t.kind = .identifier → ∀ u ∈ ts.head?,
    u.kind.assignOp? = none) : assignmentAt? (t :: ts) = none := by
  cases ts with
  | nil => rfl
  | cons u us =>
    rw [assignmentAt?]
    split
    next hid =>
      rw [h hid u (by simp)]
      rfl
    next => rfl

/-- A plain expression does not begin like a sign or an assignment. -/
theorem begins_of_words {e : Expr} (he : e.Plain)
    (hw : (t :: ts).map Token.word? = e.words.map some) (hrest : Apart e rest) :
    t.kind.unaryOp? = none ∧ assignmentAt? (t :: (ts ++ rest)) = none := by
  cases e with
  | literal v quoted =>
    obtain ⟨_, _, heq, ht, hts⟩ := exists_of_words_cons hw
    obtain ⟨rfl, rfl⟩ := List.cons.inj heq
    obtain ⟨hlit, _⟩ := literal_of_word? he ht
    refine ⟨?_, assignmentAt?_cons_eq_none fun hid => ?_⟩
    · exact TokenClass.unaryOp?_of_isLiteral hlit
    · exact absurd hid (TokenClass.ne_of_isLiteral hlit).2
  | flag name =>
    obtain ⟨_, _, heq, ht, hts⟩ := exists_of_words_cons hw
    obtain ⟨rfl, rfl⟩ := List.cons.inj heq
    obtain rfl := List.map_eq_nil_iff.1 hts
    rw [(name_of_word? ht).1]
    refine ⟨rfl, assignmentAt?_cons_eq_none fun _ u hu => ?_⟩
    -- behind a bare name, what follows must not be an assignment's operator
    exact (hrest u hu).2.2.1
  | group inner =>
    obtain ⟨_, _, heq, ht, _⟩ := exists_of_words_cons hw
    obtain ⟨rfl, rfl⟩ := List.cons.inj heq
    have hkind : t.kind = .leftParen := (Token.kind_of_word? ht).symm
    rw [hkind]
    refine ⟨rfl, assignmentAt?_cons_eq_none fun hid => ?_⟩
    rw [hkind] at hid
    cases hid
  | call name args =>
    obtain ⟨_, _, heq, ht, hts⟩ := exists_of_words_cons hw
    obtain ⟨rfl, rfl⟩ := List.cons.inj heq
    obtain ⟨u, us, rfl, hu, _⟩ := exists_of_words_cons hts
    rw [(name_of_word? ht).1]
    refine ⟨rfl, assignmentAt?_cons_eq_none fun _ v hv => ?_⟩
    cases hv
    -- behind the name of a call stands its parenthesis
    rw [← Token.kind_of_word? hu]
    rfl
  | assign | step | binary | unary => cases he

theorem ReadsOperand.expression {e : Expr} (h : ReadsOperand e) (he : e.Plain) :
    ReadsExpression e := by
  intro bound ts rest hw hb hrest
  obtain ⟨bound, rfl⟩ : ∃ b, bound = b + 8 := ⟨bound - 8, by omega⟩
  have hne : ts ≠ [] := by
    rintro rfl
    cases e <;> first | cases hw | cases he
  obtain ⟨t, ts, rfl⟩ := List.exists_cons_of_ne_nil hne
  obtain ⟨p, hp, hform⟩ := h bound t ts rest hw (by omega) hrest
  obtain ⟨hunary, hassign⟩ := begins_of_words he hw hrest
  exact ⟨p, expression_of_operand hunary hassign hp fun u hu => (hrest u hu).1, hform⟩

/-- Arguments, at least one, are read up to the parenthesis behind them. -/
def ReadsArguments (es : List Expr) : Prop :=
  ∀ (bound : Nat) (id u : Token) (q : Position) (done : List Phrase) (ts rest : List Token),
    ts.map Token.word? = (Expr.argumentWords es).map some → 10 * ts.length + 9 ≤ bound →
      u.kind = .rightParen →
        ∃ ps, furtherArguments bound id q done (ts ++ u :: rest) =
          .ok (.call id q (done.reverse ++ ps), rest) ∧ FormsAll ps es

theorem readsOperand_literal {v : Value} {quoted : Bool} (hv : quoted = true → ∃ s, v = .text s) :
    ReadsOperand (.literal v quoted) := by
  intro bound t ts rest hw hb _
  obtain ⟨bound, rfl⟩ : ∃ b, bound = b + 1 := ⟨bound - 1, by simp at hb; omega⟩
  obtain ⟨_, _, heq, ht, hts⟩ := exists_of_words_cons hw
  obtain ⟨rfl, rfl⟩ := List.cons.inj heq
  obtain rfl := List.map_eq_nil_iff.1 hts
  obtain ⟨hlit, hliteral⟩ := literal_of_word? hv ht
  obtain ⟨hparen, hname⟩ := TokenClass.ne_of_isLiteral hlit
  refine ⟨.literal t, ?_, .literal hliteral⟩
  unfold operand
  simp only [hparen, hname, hlit, if_false, if_true, List.nil_append]

theorem readsOperand_flag (name : String) : ReadsOperand (.flag name) := by
  intro bound t ts rest hw hb hrest
  obtain ⟨bound, rfl⟩ : ∃ b, bound = b + 1 := ⟨bound - 1, by simp at hb; omega⟩
  obtain ⟨_, _, heq, ht, hts⟩ := exists_of_words_cons hw
  obtain ⟨rfl, rfl⟩ := List.cons.inj heq
  obtain rfl := List.map_eq_nil_iff.1 hts
  obtain ⟨hkind, rfl⟩ := name_of_word? ht
  refine ⟨.flag t, ?_, .flag⟩
  unfold operand
  simp only [hkind, reduceCtorEq, if_false, if_true, List.nil_append]
  cases rest with
  | nil => rfl
  | cons u rest =>
    obtain ⟨_, hstep, _, hparen⟩ := hrest u (by simp)
    simp only [hparen rfl, if_false, hstep]

theorem readsOperand_group {inner : Expr} (h : ReadsExpression inner) :
    ReadsOperand (.group inner) := by
  intro bound t ts rest hw hb _
  obtain ⟨bound, rfl⟩ : ∃ b, bound = b + 1 := ⟨bound - 1, by simp at hb; omega⟩
  obtain ⟨_, _, heq, ht, hts⟩ := exists_of_words_cons hw
  obtain ⟨rfl, rfl⟩ := List.cons.inj heq
  obtain ⟨us, u, rfl, hus, hu⟩ := exists_of_words_append hts
  have hkind : t.kind = .leftParen := (Token.kind_of_word? ht).symm
  simp only [List.length_cons, List.length_append, List.length_nil] at hb
  obtain ⟨p, hp, hform⟩ :=
    h bound us (u :: rest) hus (by omega) (apart_of_closing inner (.inr hu))
  refine ⟨.group t.position p, ?_, .group hform⟩
  unfold operand
  simp only [hkind, if_true, List.append_assoc, List.singleton_append, hp, startsWith, hu,
    decide_true, List.tail_cons]

theorem readsOperand_call {name : String} {args : List Expr}
    (h : args ≠ [] → ReadsArguments args) : ReadsOperand (.call name args) := by
  intro bound t ts rest hw hb _
  obtain ⟨bound, rfl⟩ : ∃ b, bound = b + 1 + 1 := ⟨bound - 2, by simp at hb; omega⟩
  obtain ⟨_, _, heq, ht, hts⟩ := exists_of_words_cons hw
  obtain ⟨rfl, rfl⟩ := List.cons.inj heq
  obtain ⟨u, us, rfl, hu, hus⟩ := exists_of_words_cons hts
  obtain ⟨us, v, rfl, hus, hv⟩ := exists_of_words_append hus
  obtain ⟨hkind, rfl⟩ := name_of_word? ht
  have hparen : u.kind = .leftParen := (Token.kind_of_word? hu).symm
  simp only [List.length_cons, List.length_append, List.length_nil] at hb
  unfold operand
  simp only [hkind, reduceCtorEq, if_false, if_true, List.cons_append, hparen, List.append_assoc,
    List.nil_append]
  rw [arguments]
  cases args with
  | nil =>
    obtain rfl := List.map_eq_nil_iff.1 hus
    refine ⟨.call t u.position [], ?_, .call .nil⟩
    simp [startsWith, hv]
  | cons e es =>
    obtain ⟨ps, hps, hforms⟩ := h (by simp) bound t v u.position [] us rest hus (by omega) hv
    obtain ⟨w, ws, hws, hstarts⟩ := e.argumentWords_eq_cons es
    rw [hws] at hus
    obtain ⟨a, us, rfl, ha, _⟩ := exists_of_words_cons hus
    rw [Token.kind_of_word? ha] at hstarts
    -- an argument does not begin with a parenthesis that closes
    have hclose : a.kind ≠ .rightParen := by
      intro h
      rw [h] at hstarts
      cases hstarts
    refine ⟨.call t u.position ps, ?_, .call hforms⟩
    simp only [List.cons_append, startsWith, startsExpression, hclose, hstarts, decide_false,
      Bool.false_eq_true, if_false, if_true]
    exact hps

theorem readsArguments_singleton {e : Expr} (h : ReadsExpression e) : ReadsArguments [e] := by
  intro bound id u q done ts rest hw hb hu
  obtain ⟨bound, rfl⟩ : ∃ b, bound = b + 1 := ⟨bound - 1, by omega⟩
  obtain ⟨p, hp, hform⟩ := h bound ts (u :: rest) hw (by omega) (apart_of_closing e (.inr hu))
  refine ⟨[p], ?_, .cons hform .nil⟩
  rw [furtherArguments, hp]
  simp [startsWith, hu]

theorem readsArguments_cons {e e' : Expr} {es : List Expr} (h : ReadsExpression e)
    (hmore : ReadsArguments (e' :: es)) : ReadsArguments (e :: e' :: es) := by
  intro bound id u q done ts rest hw hb hu
  obtain ⟨bound, rfl⟩ : ∃ b, bound = b + 1 := ⟨bound - 1, by omega⟩
  rw [Expr.argumentWords, List.map_append] at hw
  obtain ⟨us, vs, rfl, hus, hvs⟩ := List.map_eq_append_iff.1 hw
  obtain ⟨v, vs, rfl, hv, hvs⟩ := exists_of_words_cons hvs
  have hcomma : v.kind = .comma := (Token.kind_of_word? hv).symm
  rw [List.length_append, List.length_cons] at hb
  obtain ⟨p, hp, hform⟩ :=
    h bound us (v :: (vs ++ u :: rest)) hus (by omega) (apart_of_closing e (.inl hcomma))
  obtain ⟨ps, hps, hforms⟩ := hmore bound id u q (p :: done) vs rest hvs (by omega) hu
  refine ⟨p :: ps, ?_, .cons hform hforms⟩
  rw [furtherArguments, List.append_assoc, List.cons_append, hp]
  simp only [startsWith, hcomma, decide_true, if_true, List.tail_cons, hps]
  simp

mutual

theorem readsOperand : ∀ {e : Expr}, e.Plain → ReadsOperand e
  | .literal _ _, he => readsOperand_literal he
  | .flag name, _ => readsOperand_flag name
  | .group inner, he => readsOperand_group ((readsOperand (e := inner) he).expression he)
  | .call _ _, he => readsOperand_call (readsArguments he.2)

theorem readsArguments : ∀ {es : List Expr}, Expr.AllPlain es → es ≠ [] → ReadsArguments es
  | [], _, hne => absurd rfl hne
  | [_], he, _ => readsArguments_singleton ((readsOperand he.1).expression he.1)
  | _ :: _ :: _, he, _ =>
    readsArguments_cons ((readsOperand he.1).expression he.1) (readsArguments he.2 (by simp))

end

/-! ## Statements -/

/-- A literal and a name do not go on with what stands in front of them. -/
theorem apart_of_word {e : Expr} (hu : u.kind.isLiteral = true ∨ u.kind = .identifier) :
    Apart e (u :: rest) := by
  rintro _ ⟨⟩
  rcases hu with hu | hu
  · obtain ⟨hbinary, hstep, hassign⟩ := TokenClass.ends_of_isLiteral hu
    exact ⟨hbinary, hstep, hassign, fun _ => (TokenClass.ne_of_isLiteral hu).1⟩
  · rw [hu]
    exact ⟨rfl, rfl, rfl, fun _ => by decide⟩

theorem apart_of_words {e e' : Expr} {ws : List Word} (he' : e'.Plain) (h : e.KeepsApart e')
    (hw : ts.map Token.word? = (e'.words ++ ws).map some) : Apart e ts := by
  cases e' with
  | literal v quoted =>
    obtain ⟨t, ts, rfl, ht, _⟩ := exists_of_words_cons hw
    exact apart_of_word (.inl (literal_of_word? he' ht).1)
  | flag name =>
    obtain ⟨t, ts, rfl, ht, _⟩ := exists_of_words_cons hw
    exact apart_of_word (.inr (name_of_word? ht).1)
  | call name args =>
    obtain ⟨t, ts, rfl, ht, _⟩ := exists_of_words_cons hw
    exact apart_of_word (.inr (name_of_word? ht).1)
  | group inner =>
    obtain ⟨t, ts, rfl, ht, _⟩ := exists_of_words_cons hw
    rintro _ ⟨⟩
    rw [← Token.kind_of_word? ht]
    refine ⟨rfl, rfl, rfl, fun hflag => ?_⟩
    cases h hflag
  | assign | step | binary | unary => cases he'

theorem furtherStatements_of_words {es : Script} (hes : ∀ e ∈ es, e.Plain)
    (hapart : es.IsChain Expr.KeepsApart) {bound : Nat} {done : List Phrase} {ts : List Token}
    (hw : ts.map Token.word? = es.words.map some) (hb : ts.length < bound)
    (hne : done ≠ [] ∨ es ≠ []) :
    ∃ ps, furtherStatements bound done ts = .ok (done.reverse ++ ps) ∧ FormsAll ps es := by
  induction es generalizing bound done ts with
  | nil =>
    obtain rfl := List.map_eq_nil_iff.1 hw
    obtain ⟨bound, rfl⟩ : ∃ b, bound = b + 1 := ⟨bound - 1, by omega⟩
    refine ⟨[], ?_, .nil⟩
    unfold furtherStatements
    have hdone : done.isEmpty = false := by simpa using hne
    simp [hdone]
  | cons e es ih =>
    obtain ⟨bound, rfl⟩ : ∃ b, bound = b + 1 := ⟨bound - 1, by omega⟩
    rw [Script.words, List.flatMap_cons, List.map_append] at hw
    obtain ⟨us, vs, rfl, hus, hvs⟩ := List.map_eq_append_iff.1 hw
    rw [List.length_append] at hb
    have hplain := hes e (by simp)
    -- the next statement, or the end, does not go on with this one
    have hrest : Apart e vs := by
      cases es with
      | nil =>
        obtain rfl := List.map_eq_nil_iff.1 hvs
        exact apart_nil e
      | cons e' es =>
        rw [List.flatMap_cons] at hvs
        exact apart_of_words (hes e' (by simp)) (List.isChain_cons_cons.1 hapart).1 hvs
    have hdepth : 10 * us.length + 8 ≤ depthBound bound := by
      unfold depthBound
      omega
    obtain ⟨p, hp, hform⟩ := (readsOperand hplain).expression hplain _ us vs hus hdepth hrest
    obtain ⟨w, ws, hwords, hstarts⟩ := e.words_eq_cons
    rw [hwords] at hus
    obtain ⟨t, us, rfl, ht, _⟩ := exists_of_words_cons hus
    rw [Token.kind_of_word? ht] at hstarts
    rw [List.length_cons] at hb
    -- the words of the others are read in the same way behind it
    have hothers : ∃ ps, furtherStatements bound (p :: done) vs =
        .ok ((p :: done).reverse ++ ps) ∧ FormsAll ps es :=
      ih (fun x hx => hes x (by simp [hx])) hapart.tail hvs (by omega) (.inl (by simp))
    obtain ⟨ps, hps, hforms⟩ := hothers
    refine ⟨p :: ps, ?_, .cons hform hforms⟩
    unfold furtherStatements
    simp only [List.cons_append, List.isEmpty_cons, Bool.false_and, Bool.false_eq_true, if_false,
      startsExpression, hstarts, if_true]
    rw [List.cons_append] at hp
    simp [hp, hps]

/-! ## What is read -/

mutual

/-- A phrase of the form of a plain expression means it, if it does not nest too deep: only groups
and calls have anything below them. -/
theorem Forms.meaning_of_plain : ∀ {p : Phrase} {e : Expr}, Forms p e → e.Plain →
    ∀ (depth : Nat), depth + e.nesting ≤ maxDepth → p.meaning depth = .ok e
  | .literal t, _, h, _, depth, _ => by
    cases h with
    | literal ht => rw [meaning, ht, faultAt]
  | .flag t, _, h, _, depth, _ => by
    cases h
    rw [meaning]
  | .group q inner, _, h, he, depth, hd => by
    cases h with
    | group hx =>
      rw [Expr.nesting] at hd
      have hmeaning := hx.meaning_of_plain he (depth + 1) (by omega)
      exact meaning_group_eq_ok_iff.2 ⟨by omega, _, hmeaning, rfl⟩
  | .call t q args, _, h, he, depth, hd => by
    cases h with
    | call hxs =>
      rw [Expr.nesting] at hd
      have hmeanings := hxs.meanings_of_plain he.2 (depth + 1) (by omega)
      exact meaning_call_eq_ok_iff.2 ⟨by omega, _, hmeanings, he.1, rfl⟩
  | .step _ _, _, h, he, _, _ => by cases h; cases he
  | .assign _ _ _ _, _, h, he, _, _ => by cases h; cases he
  | .binary _ _ _ _, _, h, he, _, _ => by cases h; cases he
  | .unary _ _ _, _, h, he, _, _ => by cases h; cases he

theorem FormsAll.meanings_of_plain : ∀ {ps : List Phrase} {es : List Expr}, FormsAll ps es →
    Expr.AllPlain es → ∀ (depth : Nat), depth + Expr.nestingOfAll es ≤ maxDepth →
      meanings depth ps = .ok es
  | [], _, h, _, depth, _ => by
    cases h
    rw [meanings]
  | p :: ps, _, h, he, depth, hd => by
    cases h with
    | cons hx hxs =>
      rw [Expr.nestingOfAll] at hd
      have hfirst := hx.meaning_of_plain he.1 depth (by omega)
      have hothers := hxs.meanings_of_plain he.2 depth (by omega)
      exact meanings_cons_eq_ok_iff.2 ⟨_, _, hfirst, hothers, rfl⟩

end

mutual

/-- There are no signs and no assignments in a phrase of the form of a plain expression. -/
theorem Forms.parts_of_plain : ∀ {p : Phrase} {e : Expr}, Forms p e → e.Plain →
    ∀ q ∈ p.parts, q.links = 0 ∧ q.isSignedCall = false ∧ q.startsSigned = false
  | .literal t, _, _, _ => by
    rw [parts, List.forall_mem_singleton]
    exact ⟨rfl, rfl, rfl⟩
  | .flag t, _, _, _ => by
    rw [parts, List.forall_mem_singleton]
    exact ⟨rfl, rfl, rfl⟩
  | .group q inner, _, h, he => by
    cases h with
    | group hx =>
      rw [parts, List.forall_mem_cons]
      exact ⟨⟨rfl, rfl, rfl⟩, hx.parts_of_plain he⟩
  | .call t q args, _, h, he => by
    cases h with
    | call hxs =>
      rw [parts, List.forall_mem_cons]
      exact ⟨⟨rfl, rfl, rfl⟩, hxs.parts_of_plain he.2⟩
  | .step _ _, _, h, he => by cases h; cases he
  | .assign _ _ _ _, _, h, he => by cases h; cases he
  | .binary _ _ _ _, _, h, he => by cases h; cases he
  | .unary _ _ _, _, h, he => by cases h; cases he

theorem FormsAll.parts_of_plain : ∀ {ps : List Phrase} {es : List Expr}, FormsAll ps es →
    Expr.AllPlain es →
      ∀ q ∈ partsOfAll ps, q.links = 0 ∧ q.isSignedCall = false ∧ q.startsSigned = false
  | [], _, _, _ => by simp [partsOfAll]
  | p :: ps, _, h, he => by
    cases h with
    | cons hx hxs =>
      rw [partsOfAll, List.forall_mem_append]
      exact ⟨hx.parts_of_plain he.1, hxs.parts_of_plain he.2⟩

end

end Phrase

/-! ## Scripts -/

open Phrase

theorem Expr.plain_text (s : String) (quoted : Bool) : (literal (.text s) quoted).Plain := by
  rw [Plain]
  exact fun _ => ⟨s, rfl⟩

/-- A literal that is not quoted is plain whatever its value. -/
theorem Expr.plain_unquoted (v : Value) : (literal v false).Plain := by
  rw [Plain]
  exact fun hquoted => nomatch hquoted

theorem Expr.allPlain_iff {es : List Expr} : AllPlain es ↔ ∀ e ∈ es, e.Plain := by
  induction es with
  | nil => simp [AllPlain]
  | cons e es ih => simp [AllPlain, ih]

theorem Expr.nestingOfAll_le_iff {es : List Expr} {limit : Nat} :
    nestingOfAll es ≤ limit ↔ ∀ e ∈ es, e.nesting ≤ limit := by
  induction es with
  | nil => simp [nestingOfAll]
  | cons e es ih => simp [nestingOfAll, ih]

theorem Phrase.partsOfAll_eq_flatMap (ps : List Phrase) : partsOfAll ps = ps.flatMap parts := by
  induction ps with
  | nil => rfl
  | cons p ps ih => rw [partsOfAll, ih, List.flatMap_cons]

/-- A plain script is read from every source that says its words, unless it nests deeper than the
limit; then it is refused. -/
theorem Script.parse_of_words {source : String} {ts : List Token} {script : Script}
    (hlex : Token.lex source.toList = .ok ts) (hw : ts.map Token.word? = script.words.map some)
    (hne : script ≠ []) (hplain : ∀ e ∈ script, e.Plain) (hapart : script.IsChain Expr.KeepsApart) :
    ((∀ e ∈ script, e.nesting ≤ maxNesting) → parse source = .ok script) ∧
      (¬ (∀ e ∈ script, e.nesting ≤ maxNesting) →
        ∃ p, parse source = .error (.tooDeep p maxNesting)) := by
  obtain ⟨ps, hps, hforms⟩ : ∃ ps, statements ts = .ok ps ∧ FormsAll ps script :=
    furtherStatements_of_words hplain hapart hw (Nat.lt_succ_self _) (.inr hne)
  have hall := Expr.allPlain_iff.2 hplain
  have hparts := hforms.parts_of_plain hall
  -- there are no signs and no assignments, so only brackets can nest
  have hsigns : SignsCounted ps := by
    rw [partsOfAll_eq_flatMap] at hparts
    refine ⟨fun q hq => (hparts q hq).2.1, fun p hp => (hparts p ?_).2.2⟩
    exact List.mem_flatMap.2 ⟨p, List.mem_of_mem_tail hp, p.mem_parts_self⟩
  -- the count over the tokens is then the nesting of the statements
  have hdeep : Nesting.tooDeep? ts = none ↔ ∀ e ∈ script, e.nesting ≤ maxNesting := by
    rw [← hforms.nested_le_iff_nesting_le]
    constructor
    · intro hnone
      exact (Nesting.within_of_tooDeep? (statements_written hps) hsigns hnone).nested
    · intro hnested
      refine Nesting.tooDeep?_of_within (statements_written hps) ⟨hnested, fun q hq => ?_⟩
      rw [partsOfAll_eq_flatMap] at hparts
      rw [(hparts q hq).1]
      exact Nat.zero_le _
  constructor
  · intro hnesting
    have hdepth : 1 + Expr.nestingOfAll script ≤ maxDepth := by
      have hle := Expr.nestingOfAll_le_iff.2 hnesting
      have hlimits : 1 + maxNesting ≤ maxDepth := by decide
      omega
    exact parse_eq_ok_iff.2
      ⟨ts, ps, hlex, hdeep.2 hnesting, hps, hforms.meanings_of_plain hall 1 hdepth⟩
  · intro hnesting
    cases hfound : Nesting.tooDeep? ts with
    | none => exact absurd (hdeep.1 hfound) hnesting
    | some t =>
      refine ⟨t.position, ?_⟩
      simp only [parse, hlex, ofTokens, hfound]

end FlagScript
