import FlagScript.Error
import FlagScript.Proofs.Grammar.Tree
import FlagScript.Proofs.Peg.Token

/-!
# The grammar of sources

The productions as parsing expressions over tokens. Between the parts of a sequence and between
repetitions there may be layout, within a token there is none. A grammar is read over an input,
which says where the tokens are: `charInput` looks for them among characters, by the pattern of
their class, and `tokenInput` has them already. `Runs` says what a form makes of an input, and it
makes only one thing of it (`Runs.unique`).
-/

namespace FlagScript

open ParseTree (leaf)

/-! ## Forms -/

/-- Parsing expressions over tokens. -/
inductive Form where
  | empty
  /-- Fits nowhere. -/
  | never
  | token (kind : TokenClass)
  | node (rule : Rule)
  | seq (a b : Form)
  | choice (a b : Form)
  | option (a : Form)
  | star (a : Form)
  /-- What stands behind the first of several: repetitions with layout in front of each. -/
  | further (a : Form)
  | finish

namespace Form

def plus (a : Form) : Form := seq a (star a)

/-- The first of these that fits. -/
def choices : List Form → Form
  | [] => never
  | a :: as => choice a (choices as)

/-- A token of one of these classes. -/
def oneOf (kinds : List TokenClass) : Form := choices (kinds.map token)

/-- An operator with the operand behind it. -/
def operation (operators : List TokenClass) (operand : Rule) : Form :=
  seq (oneOf operators) (node operand)

/-- Operands with operators between them. -/
def chain (operators : List TokenClass) (operand : Rule) : Form :=
  seq (node operand) (star (operation operators operand))

/-- A further argument of a call. -/
def nextArgument : Form := seq (token .comma) (node .expr)

def value : Form :=
  choices [node .incr, node .decr, token .identifier, token .number, token .quotedText,
    token .boolean, token .text]

def term : Form := choices [node .group, node .call, value]

end Form

open Form in
/-- What stands at the nodes of each kind. -/
def Rule.form : Rule → Form
  | .expr => choice (node .assign) (node .boolOp)
  | .assign =>
    seq (token .identifier) (seq (oneOf [.set, .incrementBy, .decrementBy]) (node .expr))
  | .boolOp => chain [.or, .and] .equality
  | .equality => chain [.equal, .notEqual] .comparison
  | .comparison => chain [.lessOrEqual, .greaterOrEqual, .less, .greater] .sum
  | .sum => chain [.plus, .minus] .product
  | .product => chain [.star, .slash] .negation
  | .negation => choice (seq (oneOf [.not, .minus]) (node .negation)) term
  | .group => seq (token .leftParen) (seq (node .expr) (token .rightParen))
  | .call => seq (token .identifier) (node .argList)
  | .argList =>
    seq (token .leftParen)
      (seq (option (seq (node .expr) (star nextArgument))) (token .rightParen))
  | .incr => seq (token .identifier) (token .increment)
  | .decr => seq (token .identifier) (token .decrement)

namespace Form

/-- All statements of a source, at least one. Nothing stands in front but layout. -/
def script : Form := seq empty (seq (plus (node .expr)) finish)

/-- The tokens of a source, in no order. -/
def tokens : Form := seq empty (seq (star (oneOf TokenClass.all)) finish)

end Form

/-! ## Inputs -/

/-- How a grammar sees what it is read over. -/
structure Input (σ : Type) where
  /-- The place behind layout. -/
  skip : σ → σ
  /-- A token of a class stands at a place, with another place behind it. -/
  Takes : TokenClass → σ → Token → σ → Prop
  /-- No token of a class stands there. -/
  Misses : TokenClass → σ → Prop
  AtEnd : σ → Prop
  takes_unique : ∀ {k s t u s' s''}, Takes k s t s' → Takes k s u s'' → t = u ∧ s' = s''
  takes_not_misses : ∀ {k s t s'}, Takes k s t s' → ¬ Misses k s

/-- A place among characters, and what stands from there on. -/
structure Cursor where
  position : Position
  rest : List Char

namespace Cursor

/-- The place behind so many characters. -/
def advance (c : Cursor) (n : Nat) : Cursor where
  position := c.position.advance (c.rest.take n)
  rest := c.rest.drop n

end Cursor

/-- Characters: a token is what the pattern of its class takes. -/
def charInput : Input Cursor where
  skip c := c.advance (c.rest.takeWhile Text.isLayout).length
  Takes k c t c' := ∃ n, k.pattern.Matches c.rest (some n) ∧
    t = ⟨k, c.rest.take n, c.position⟩ ∧ c' = c.advance n
  Misses k c := k.pattern.Matches c.rest none
  AtEnd c := c.rest = []
  takes_unique := by
    rintro k c t u c' c'' ⟨n, hn, rfl, rfl⟩ ⟨m, hm, rfl, rfl⟩
    obtain rfl := Option.some.inj (hn.unique hm)
    exact ⟨rfl, rfl⟩
  takes_not_misses := by
    rintro k c t c' ⟨n, hn, -, -⟩ hnone
    cases hn.unique hnone

/-- Tokens of a text, with its end behind them if it is complete, or else something that begins no
token. A number or a truth word is not looked at for text. -/
def tokenInput (complete : Bool) : Input (List Token) where
  skip ts := ts
  Takes k ts t us := ts = t :: us ∧ t.kind = k
  Misses k ts := ∀ t ∈ ts.head?, t.kind.fits k = false
  AtEnd ts := ts = [] ∧ complete = true
  takes_unique := by
    rintro k ts t u us us' ⟨rfl, -⟩ ⟨h, -⟩
    cases h
    exact ⟨rfl, rfl⟩
  takes_not_misses := by
    rintro k ts t us ⟨rfl, rfl⟩ h
    have hfits := h t rfl
    simp [TokenClass.fits] at hfits

/-! ## Runs -/

/-- What a form makes of a place: it does not fit there, or it takes something. -/
inductive Outcome (σ : Type) where
  | failed
  | took (trees : List ParseTree) (rest : σ)

open Outcome

inductive Runs {σ : Type} (I : Input σ) : Form → σ → Outcome σ → Prop where
  | empty (s : σ) : Runs I .empty s (took [] s)
  | never (s : σ) : Runs I .never s failed
  | token {k : TokenClass} {s s' : σ} {t : Token} (h : I.Takes k s t s') :
      Runs I (.token k) s (took [leaf t] s')
  | noToken {k : TokenClass} {s : σ} (h : I.Misses k s) : Runs I (.token k) s failed
  | node {r : Rule} {s s' : σ} {cs : List ParseTree} (h : Runs I r.form s (took cs s')) :
      Runs I (.node r) s (took [.node r cs] s')
  | noNode {r : Rule} {s : σ} (h : Runs I r.form s failed) : Runs I (.node r) s failed
  | seq {a b : Form} {s s' s'' : σ} {cs ds : List ParseTree} (ha : Runs I a s (took cs s'))
      (hb : Runs I b (I.skip s') (took ds s'')) : Runs I (.seq a b) s (took (cs ++ ds) s'')
  | seqNotFirst {a b : Form} {s : σ} (ha : Runs I a s failed) : Runs I (.seq a b) s failed
  | seqNotSecond {a b : Form} {s s' : σ} {cs : List ParseTree} (ha : Runs I a s (took cs s'))
      (hb : Runs I b (I.skip s') failed) : Runs I (.seq a b) s failed
  | choiceFirst {a b : Form} {s s' : σ} {cs : List ParseTree} (ha : Runs I a s (took cs s')) :
      Runs I (.choice a b) s (took cs s')
  | choiceSecond {a b : Form} {s : σ} {o : Outcome σ} (ha : Runs I a s failed)
      (hb : Runs I b s o) : Runs I (.choice a b) s o
  | option {a : Form} {s s' : σ} {cs : List ParseTree} (h : Runs I a s (took cs s')) :
      Runs I (.option a) s (took cs s')
  | optionNone {a : Form} {s : σ} (h : Runs I a s failed) : Runs I (.option a) s (took [] s)
  | star {a : Form} {s s' s'' : σ} {cs ds : List ParseTree} (h : Runs I a s (took cs s'))
      (hmore : Runs I (.further a) s' (took ds s'')) : Runs I (.star a) s (took (cs ++ ds) s'')
  | starNone {a : Form} {s : σ} (h : Runs I a s failed) : Runs I (.star a) s (took [] s)
  | further {a : Form} {s s' s'' : σ} {cs ds : List ParseTree}
      (h : Runs I a (I.skip s) (took cs s')) (hmore : Runs I (.further a) s' (took ds s'')) :
      Runs I (.further a) s (took (cs ++ ds) s'')
  | furtherNone {a : Form} {s : σ} (h : Runs I a (I.skip s) failed) :
      Runs I (.further a) s (took [] s)
  | finish {s : σ} (h : I.AtEnd s) : Runs I .finish s (took [] s)
  | noFinish {s : σ} (h : ¬ I.AtEnd s) : Runs I .finish s failed

theorem Runs.unique {σ : Type} {I : Input σ} {e : Form} {s : σ} {o o' : Outcome σ}
    (h : Runs I e s o) (h' : Runs I e s o') : o = o' := by
  induction h generalizing o' with
  | empty | never => cases h'; rfl
  | token h =>
    cases h' with
    | token h' =>
      obtain ⟨rfl, rfl⟩ := I.takes_unique h h'
      rfl
    | noToken h' => exact absurd h' (I.takes_not_misses h)
  | noToken h =>
    cases h' with
    | token h' => exact absurd h (I.takes_not_misses h')
    | noToken _ => rfl
  | node _ ih =>
    cases h' with
    | node h => cases ih h; rfl
    | noNode h => cases ih h
  | noNode _ ih =>
    cases h' with
    | node h => cases ih h
    | noNode _ => rfl
  | seq _ _ iha ihb =>
    cases h' with
    | seq ha hb =>
      cases iha ha
      cases ihb hb
      rfl
    | seqNotFirst ha => cases iha ha
    | seqNotSecond ha hb =>
      cases iha ha
      cases ihb hb
  | seqNotFirst _ iha =>
    cases h' with
    | seq ha _ => cases iha ha
    | seqNotFirst _ => rfl
    | seqNotSecond _ _ => rfl
  | seqNotSecond _ _ iha ihb =>
    cases h' with
    | seq ha hb =>
      cases iha ha
      cases ihb hb
    | seqNotFirst _ => rfl
    | seqNotSecond _ _ => rfl
  | choiceFirst _ iha =>
    cases h' with
    | choiceFirst ha => exact iha ha
    | choiceSecond ha _ => cases iha ha
  | choiceSecond _ _ iha ihb =>
    cases h' with
    | choiceFirst ha => cases iha ha
    | choiceSecond _ hb => exact ihb hb
  | option _ ih =>
    cases h' with
    | option h => exact ih h
    | optionNone h => cases ih h
  | optionNone _ ih =>
    cases h' with
    | option h => cases ih h
    | optionNone _ => rfl
  | star _ _ ih ihmore =>
    cases h' with
    | star h hmore =>
      cases ih h
      cases ihmore hmore
      rfl
    | starNone h => cases ih h
  | starNone _ ih =>
    cases h' with
    | star h _ => cases ih h
    | starNone _ => rfl
  | further _ _ ih ihmore =>
    cases h' with
    | further h hmore =>
      cases ih h
      cases ihmore hmore
      rfl
    | furtherNone h => cases ih h
  | furtherNone _ ih =>
    cases h' with
    | further h _ => cases ih h
    | furtherNone _ => rfl
  | finish h =>
    cases h' with
    | finish _ => rfl
    | noFinish hno => exact absurd h hno
  | noFinish hno =>
    cases h' with
    | finish h => exact absurd h hno
    | noFinish _ => rfl

end FlagScript
