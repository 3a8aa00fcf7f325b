import FlagScript.Proofs.Grammar.Acceptance
import Mathlib.Data.List.Chain

/-!
# Names at the end of a statement

Where a name stands in front of a parenthesis the parser reads a call, so no statement that is only
a name stands in front of a group (`isChain_of_statements`). By the grammar alone it could.
-/

namespace FlagScript

namespace Phrase

/-- Whether a phrase is only a name. -/
def isFlag : Phrase → Bool
  | flag _ => true
  | _ => false

def isGroup : Phrase → Bool
  | group _ _ => true
  | _ => false

/-- One statement may stand in front of another one. -/
def KeepsApart (p q : Phrase) : Prop := p.isFlag = true → q.isGroup = false

/-! ## Names -/

/-- Behind what is only a name no parenthesis opens. -/
def NameEnds (x : Parsed Phrase) : Prop :=
  ∀ p rest, x = .ok (p, rest) → p.isFlag = true → startsWith .leftParen rest = false

structure ProductionsNameEnds (bound : Nat) : Prop where
  expression : ∀ ts, NameEnds (expression bound ts)
  level : ∀ n ts, NameEnds (level bound n ts)
  chain : ∀ n left ts, (left.isFlag = true → startsWith .leftParen ts = false) →
    NameEnds (chain bound n left ts)
  prefixed : ∀ ts, NameEnds (prefixed bound ts)
  operand : ∀ t ts, NameEnds (operand bound t ts)

variable {bound : Nat}

theorem arguments_isFlag {id : Token} {q : Position} {ts rest : List Token} {p : Phrase}
    (h : arguments bound id q ts = .ok (p, rest)) : p.isFlag = false := by
  cases bound with
  | zero => rw [arguments] at h; cases h
  | succ bound =>
    rw [arguments] at h
    split at h
    · cases h
      rfl
    · split at h
      · obtain ⟨_, _, _, _, rfl, _⟩ := (productionsWritten bound).furtherArguments h
        rfl
      · cases h

theorem expression_nameEnds (ih : ProductionsNameEnds bound) (ts : List Token) :
    NameEnds (expression (bound + 1) ts) := by
  intro p rest h hflag
  rw [expression] at h
  split at h
  · split at h
    · cases h
    · cases h
      cases hflag
  · exact ih.level 5 ts p rest h hflag

theorem level_nameEnds (ih : ProductionsNameEnds bound) (n : Nat) (ts : List Token) :
    NameEnds (level (bound + 1) n ts) := by
  intro p rest h hflag
  cases n with
  | zero =>
    rw [level] at h
    exact ih.prefixed ts p rest h hflag
  | succ n =>
    rw [level] at h
    split at h
    · cases h
    next left rest' hleft =>
      exact ih.chain n left rest' (ih.level n ts left rest' hleft) p rest h hflag

theorem chain_nameEnds (ih : ProductionsNameEnds bound) (n : Nat) (left : Phrase) (ts : List Token)
    (hleft : left.isFlag = true → startsWith .leftParen ts = false) :
    NameEnds (chain (bound + 1) n left ts) := by
  intro p rest h hflag
  rw [chain] at h
  split at h
  · cases h
    exact hleft hflag
  next op opAt rest' hop =>
    split at h
    · cases h
    next right rest'' hright =>
      -- an operation is not only a name
      have hbinary : (binary op opAt left right).isFlag = true →
          startsWith .leftParen rest'' = false := by
        intro hbinary
        cases hbinary
      exact ih.chain n _ rest'' hbinary p rest h hflag

theorem prefixed_nameEnds (ih : ProductionsNameEnds bound) (ts : List Token) :
    NameEnds (prefixed (bound + 1) ts) := by
  intro p rest h hflag
  cases ts with
  | nil =>
    rw [prefixed] at h
    cases h
  | cons t ts =>
    rw [prefixed] at h
    split at h
    · exact ih.operand t ts p rest h hflag
    · split at h
      · cases h
      · cases h
        cases hflag

theorem operand_nameEnds (t : Token) (ts : List Token) : NameEnds (operand (bound + 1) t ts) := by
  intro p rest h hflag
  unfold operand at h
  split at h
  · split at h
    · cases h
    · split at h
      · cases h
        cases hflag
      · cases h
  · split at h
    · split at h
      · cases h
        rfl
      next u rest' =>
        split at h
        · rw [arguments_isFlag h] at hflag
          cases hflag
        next hparen =>
          split at h
          · cases h
            cases hflag
          · cases h
            -- a bare name is read only where no argument list opens
            simpa [startsWith] using hparen
    · split at h
      · cases h
        cases hflag
      · cases h

theorem productionsNameEnds (bound : Nat) : ProductionsNameEnds bound := by
  induction bound with
  | zero =>
    constructor
    case expression => intro ts p rest h; rw [expression] at h; cases h
    case level => intro n ts p rest h; rw [level] at h; cases h
    case chain => intro n left ts _ p rest h; rw [chain] at h; cases h
    case prefixed => intro ts p rest h; rw [prefixed] at h; cases h
    case operand => intro t ts p rest h; rw [operand] at h; cases h
  | succ bound ih =>
    exact ⟨expression_nameEnds ih, level_nameEnds ih, chain_nameEnds ih, prefixed_nameEnds ih,
      operand_nameEnds⟩

/-! ## Statements -/

/-- A group begins with a parenthesis. -/
theorem startsWith_of_isGroup {ts rest : List Token} {p : Phrase}
    (h : expression bound ts = .ok (p, rest)) (hgroup : p.isGroup = true) :
    startsWith .leftParen ts = true := by
  obtain ⟨used, rfl, hused⟩ := (productionsWritten bound).expression h
  cases hused with
  | group ht => simp [startsWith, ht]
  | literal | flag | step | call | unary | binary | assign => cases hgroup

theorem furtherStatements_isChain {done ps : List Phrase} {ts : List Token}
    (h : furtherStatements bound done ts = .ok ps) :
    ∃ new, ps = done.reverse ++ new ∧ new.IsChain KeepsApart ∧
      ∀ q ∈ new.head?, q.isGroup = true → startsWith .leftParen ts = true := by
  induction bound generalizing done ts with
  | zero => unfold furtherStatements at h; cases h
  | succ bound ih =>
    unfold furtherStatements at h
    split at h
    · cases h
      exact ⟨[], by simp, .nil, by simp⟩
    · split at h
      · split at h
        · cases h
        next p rest hp =>
          obtain ⟨new, rfl, hchain, hhead⟩ := ih h
          have hends := (productionsNameEnds _).expression ts p rest hp
          refine ⟨p :: new, by simp, List.isChain_cons.2 ⟨fun q hq hflag => ?_, hchain⟩, ?_⟩
          · -- the next statement begins where this one ended
            have hparen := hends hflag
            have hstarts := hhead q hq
            rw [hparen] at hstarts
            simpa using hstarts
          · rintro _ ⟨⟩ hgroup
            exact startsWith_of_isGroup hp hgroup
      · split at h <;> cases h

theorem isChain_of_statements {ts : List Token} {ps : List Phrase} (h : statements ts = .ok ps) :
    ps.IsChain KeepsApart := by
  obtain ⟨new, rfl, hchain, _⟩ := furtherStatements_isChain h
  exact hchain

end Phrase

end FlagScript
