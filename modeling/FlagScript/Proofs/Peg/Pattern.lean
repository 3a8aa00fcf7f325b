import Mathlib.Data.List.Basic

/-!
# Patterns of characters

Patterns are parsing expressions over characters: a choice takes its first alternative that fits,
repetition takes as much as it can, and nothing that was taken is ever given back. `Matches` says
what a pattern makes of a text, by a rule for each way in which it fits or does not, and it makes
only one thing of it (`Matches.unique`).
-/

namespace FlagScript

inductive Pattern where
  | empty
  /-- One character of a set. -/
  | one (accepts : Char → Bool)
  | seq (a b : Pattern)
  | choice (a b : Pattern)
  /-- As often as it fits. -/
  | star (a : Pattern)
  /-- Takes nothing, and fits where the other pattern does not. -/
  | notAhead (a : Pattern)

namespace Pattern

/-- How many characters in front of a text a pattern takes, if it fits there. -/
inductive Matches : Pattern → List Char → Option Nat → Prop where
  | empty (cs : List Char) : Matches empty cs (some 0)
  | one {f : Char → Bool} {c : Char} (h : f c = true) (cs : List Char) :
      Matches (one f) (c :: cs) (some 1)
  | otherOne {f : Char → Bool} {c : Char} (h : f c = false) (cs : List Char) :
      Matches (one f) (c :: cs) none
  | noOne (f : Char → Bool) : Matches (one f) [] none
  | seq {a b : Pattern} {cs : List Char} {n m : Nat} (ha : Matches a cs (some n))
      (hb : Matches b (cs.drop n) (some m)) : Matches (seq a b) cs (some (n + m))
  | seqNotFirst {a b : Pattern} {cs : List Char} (ha : Matches a cs none) :
      Matches (seq a b) cs none
  | seqNotSecond {a b : Pattern} {cs : List Char} {n : Nat} (ha : Matches a cs (some n))
      (hb : Matches b (cs.drop n) none) : Matches (seq a b) cs none
  | choiceFirst {a b : Pattern} {cs : List Char} {n : Nat} (ha : Matches a cs (some n)) :
      Matches (choice a b) cs (some n)
  | choiceSecond {a b : Pattern} {cs : List Char} {r : Option Nat} (ha : Matches a cs none)
      (hb : Matches b cs r) : Matches (choice a b) cs r
  | starStop {a : Pattern} {cs : List Char} (h : Matches a cs none) :
      Matches (star a) cs (some 0)
  | star {a : Pattern} {cs : List Char} {n m : Nat} (h : Matches a cs (some n))
      (hmore : Matches (star a) (cs.drop n) (some m)) : Matches (star a) cs (some (n + m))
  | notAhead {a : Pattern} {cs : List Char} (h : Matches a cs none) :
      Matches (notAhead a) cs (some 0)
  | ahead {a : Pattern} {cs : List Char} {n : Nat} (h : Matches a cs (some n)) :
      Matches (notAhead a) cs none

theorem Matches.unique {a : Pattern} {cs : List Char} {r r' : Option Nat} (h : Matches a cs r)
    (h' : Matches a cs r') : r = r' := by
  induction h generalizing r' with
  | empty | noOne => cases h'; rfl
  | one h | otherOne h =>
    cases h' with
    | one h' => first | rfl | rw [h] at h'; cases h'
    | otherOne h' => first | rfl | rw [h] at h'; cases h'
  | seq _ _ iha ihb =>
    cases h' with
    | seq ha hb =>
      cases iha ha
      cases ihb hb
      rfl
    | seqNotFirst ha => cases iha ha
    | seqNotSecond ha hb =>
      cases iha ha
      cases ihb hb
  | seqNotFirst _ iha =>
    cases h' with
    | seq ha _ => cases iha ha
    | seqNotFirst _ => rfl
    | seqNotSecond ha _ => cases iha ha
  | seqNotSecond _ _ iha ihb =>
    cases h' with
    | seq ha hb =>
      cases iha ha
      cases ihb hb
    | seqNotFirst _ => rfl
    | seqNotSecond _ _ => rfl
  | choiceFirst _ iha =>
    cases h' with
    | choiceFirst ha => exact iha ha
    | choiceSecond ha _ => cases iha ha
  | choiceSecond _ _ iha ihb =>
    cases h' with
    | choiceFirst ha => cases iha ha
    | choiceSecond _ hb => exact ihb hb
  | starStop _ ih =>
    cases h' with
    | starStop _ => rfl
    | star h _ => cases ih h
  | star _ _ ih ihmore =>
    cases h' with
    | starStop h => cases ih h
    | star h hmore =>
      cases ih h
      cases ihmore hmore
      rfl
  | notAhead _ ih =>
    cases h' with
    | notAhead _ => rfl
    | ahead h => cases ih h
  | ahead _ ih =>
    cases h' with
    | notAhead h => cases ih h
    | ahead _ => rfl

/-! ## Further patterns -/

def any : Pattern := one fun _ => true

def char (c : Char) : Pattern := one (· == c)

/-- At least once, and as often as it fits. -/
def plus (a : Pattern) : Pattern := seq a (star a)

def option (a : Pattern) : Pattern := choice a empty

/-- Fits nowhere. -/
def never : Pattern := notAhead empty

/-- The first of these that fits. -/
def choices : List Pattern → Pattern
  | [] => never
  | a :: as => choice a (choices as)

/-- A word, whose letters are compared after `g`. -/
def spelled (g : Char → Char) : List Char → Pattern
  | [] => empty
  | c :: cs => seq (one (g · == c)) (spelled g cs)

/-- A length of nothing stands for a pattern that does not fit. -/
def found : Nat → Option Nat
  | 0 => none
  | n + 1 => some (n + 1)

theorem found_of_ne {n : Nat} (h : n ≠ 0) : found n = some n := by
  cases n with
  | zero => exact absurd rfl h
  | succ n => rfl

variable {a b : Pattern} {cs : List Char} {n : Nat}

theorem matches_never (cs : List Char) : Matches never cs none := .ahead (.empty cs)

theorem matches_one_none {f : Char → Bool} (h : ∀ c ∈ cs.head?, f c = false) :
    Matches (one f) cs none := by
  cases cs with
  | nil => exact .noOne f
  | cons c cs => exact .otherOne (h c rfl) cs

theorem matches_char_none {c : Char} (h : ∀ d ∈ cs.head?, d ≠ c) : Matches (char c) cs none :=
  matches_one_none fun d hd => beq_eq_false_iff_ne.2 (h d hd)

/-- A pattern behind another one that takes nothing. -/
theorem matches_seq_of_zero {r : Option Nat} (ha : Matches a cs (some 0)) (hb : Matches b cs r) :
    Matches (seq a b) cs r := by
  cases r with
  | none => exact .seqNotSecond ha hb
  | some m =>
    have hseq := Matches.seq ha hb
    rwa [Nat.zero_add] at hseq

theorem matches_option (h : Matches a cs (found n)) : Matches (option a) cs (some n) := by
  cases n with
  | zero => exact .choiceSecond h (.empty cs)
  | succ n => exact .choiceFirst h

/-- A pattern that takes something, with another one behind it that can do without. -/
theorem matches_seq {m : Nat} (ha : Matches a cs (found n))
    (hb : n ≠ 0 → Matches b (cs.drop n) (some m)) :
    Matches (seq a b) cs (found (if n = 0 then 0 else n + m)) := by
  cases n with
  | zero => exact .seqNotFirst ha
  | succ n =>
    rw [if_neg (Nat.succ_ne_zero n), found_of_ne (by omega)]
    exact .seq ha (hb (Nat.succ_ne_zero n))

/-- A pattern that takes something, behind another one. -/
theorem matches_behind {m : Nat} (ha : Matches a cs (some n))
    (hb : Matches b (cs.drop n) (found m)) :
    Matches (seq a b) cs (found (if m = 0 then 0 else n + m)) := by
  by_cases h0 : m = 0
  · rw [h0] at hb
    rw [if_pos h0]
    exact .seqNotSecond ha hb
  · rw [found_of_ne h0] at hb
    rw [if_neg h0, found_of_ne (by omega)]
    exact .seq ha hb

/-- A run of characters is taken to its end. -/
theorem matches_star_one (f : Char → Bool) (cs : List Char) :
    Matches (star (one f)) cs (some (cs.takeWhile f).length) := by
  induction cs with
  | nil => exact .starStop (.noOne f)
  | cons c cs ih =>
    cases hc : f c with
    | false =>
      rw [List.takeWhile_cons_of_neg (by simp [hc])]
      exact .starStop (.otherOne hc cs)
    | true =>
      rw [List.takeWhile_cons_of_pos hc, List.length_cons, Nat.add_comm]
      exact .star (.one hc cs) ih

theorem matches_plus_one (f : Char → Bool) (cs : List Char) :
    Matches (plus (one f)) cs (found (cs.takeWhile f).length) := by
  cases cs with
  | nil => exact .seqNotFirst (.noOne f)
  | cons c cs =>
    cases hc : f c with
    | false =>
      rw [List.takeWhile_cons_of_neg (by simp [hc])]
      exact .seqNotFirst (.otherOne hc cs)
    | true =>
      rw [List.takeWhile_cons_of_pos hc, List.length_cons, found, Nat.add_comm]
      exact .seq (.one hc cs) (matches_star_one f cs)

/-- A word is looked for letter by letter. -/
theorem matches_spelled (g : Char → Char) (w cs : List Char) :
    Matches (spelled g w) cs (if (cs.take w.length).map g = w then some w.length else none) := by
  induction w generalizing cs with
  | nil => exact .empty cs
  | cons d w ih =>
    cases cs with
    | nil => exact .seqNotFirst (.noOne _)
    | cons c cs =>
      simp only [List.length_cons, List.take_succ_cons, List.map_cons, List.cons.injEq]
      have hrest := ih cs
      by_cases hc : g c = d
      · have hone : Matches (one (g · == d)) (c :: cs) (some 1) := .one (by simp [hc]) cs
        by_cases hw : (cs.take w.length).map g = w
        · rw [if_pos hw] at hrest
          rw [if_pos ⟨hc, hw⟩, Nat.add_comm]
          exact .seq hone hrest
        · rw [if_neg hw] at hrest
          rw [if_neg fun h => hw h.2]
          exact .seqNotSecond hone hrest
      · rw [if_neg fun h => hc h.1]
        exact .seqNotFirst (.otherOne (by simp [hc]) cs)

end Pattern

end FlagScript
