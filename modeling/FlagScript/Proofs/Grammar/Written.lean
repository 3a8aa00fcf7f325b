import FlagScript.Phrase.Parser
import FlagScript.Proofs.Grammar.Word

/-!
# Phrases as they are written

`Written n p ts`: the tokens `ts` are the phrase `p`, from left to right, as a phrase of level `n`.
It has one rule for every production, and says nothing about where the tokens end: that is what the
parser finds out. Whatever the parser takes is written by the tokens it took (`productionsWritten`).
The productions call each other with a smaller bound, so each of them is proved at `bound + 1` from
all of them at `bound`.
-/

namespace FlagScript

namespace Phrase

mutual

inductive Written : Nat → Phrase → List Token → Prop where
  | literal {n : Nat} {t : Token} (ht : t.kind.isLiteral = true) : Written n (.literal t) [t]
  | flag {n : Nat} {t : Token} (ht : t.kind = .identifier) : Written n (.flag t) [t]
  | step {n : Nat} {t u : Token} {op : AssignOp} (ht : t.kind = .identifier)
      (hu : u.kind = op.kind) (hop : op.takesValue = false) : Written n (.step t op) [t, u]
  | group {n : Nat} {t u : Token} {inner : Phrase} {ts : List Token} (ht : t.kind = .leftParen)
      (hinner : Written 6 inner ts) (hu : u.kind = .rightParen) :
      Written n (.group t.position inner) (t :: (ts ++ [u]))
  | call {n : Nat} {t u v : Token} {args : List Phrase} {ts : List Token}
      (ht : t.kind = .identifier) (hu : u.kind = .leftParen) (hargs : WrittenArguments args ts)
      (hv : v.kind = .rightParen) : Written n (.call t u.position args) (t :: u :: (ts ++ [v]))
  | unary {n : Nat} {t : Token} {op : UnaryOp} {operand : Phrase} {ts : List Token}
      (ht : t.kind = op.kind) (hoperand : Written 0 operand ts) :
      Written n (.unary op t.position operand) (t :: ts)
  | binary {n m : Nat} {t : Token} {op : BinaryOp} {left right : Phrase} {ts us : List Token}
      (hm : m < n) (hop : op.level = m + 1) (hleft : Written (m + 1) left ts)
      (ht : t.kind = op.kind) (hright : Written m right us) :
      Written n (.binary op t.position left right) (ts ++ t :: us)
  | assign {n : Nat} {t u : Token} {op : AssignOp} {value : Phrase} {ts : List Token} (hn : 6 ≤ n)
      (ht : t.kind = .identifier) (hu : u.kind = op.kind) (hop : op.takesValue = true)
      (hvalue : Written 6 value ts) : Written n (.assign t op u.position value) (t :: u :: ts)

/-- The arguments of a call, with a comma between each two of them. -/
inductive WrittenArguments : List Phrase → List Token → Prop where
  | nil : WrittenArguments [] []
  | last {p : Phrase} {ts : List Token} (hp : Written 6 p ts) : WrittenArguments [p] ts
  | cons {p q : Phrase} {ps : List Phrase} {t : Token} {ts us : List Token} (hp : Written 6 p ts)
      (ht : t.kind = .comma) (hps : WrittenArguments (q :: ps) us) :
      WrittenArguments (p :: q :: ps) (ts ++ t :: us)

end

/-- Statements, which stand one behind the other. -/
inductive WrittenStatements : List Phrase → List Token → Prop where
  | nil : WrittenStatements [] []
  | cons {p : Phrase} {ps : List Phrase} {ts us : List Token} (hp : Written 6 p ts)
      (hps : WrittenStatements ps us) : WrittenStatements (p :: ps) (ts ++ us)

/-- A phrase of one level is a phrase of every looser one. -/
theorem Written.weaken {n m : Nat} {p : Phrase} {ts : List Token} (h : Written n p ts)
    (hnm : n ≤ m) : Written m p ts := by
  cases h with
  | literal ht => exact .literal ht
  | flag ht => exact .flag ht
  | step ht hu hop => exact .step ht hu hop
  | group ht hinner hu => exact .group ht hinner hu
  | call ht hu hargs hv => exact .call ht hu hargs hv
  | unary ht hoperand => exact .unary ht hoperand
  | binary hn hop hleft ht hright => exact .binary (by omega) hop hleft ht hright
  | assign hn ht hu hop hvalue => exact .assign (by omega) ht hu hop hvalue

theorem Written.ne_nil {n : Nat} {p : Phrase} {ts : List Token} (h : Written n p ts) : ts ≠ [] := by
  cases h <;> simp

/-! ## What a look at the tokens tells -/

theorem eq_cons_of_operatorAt? {n : Nat} {ts rest : List Token} {op : BinaryOp} {p : Position}
    (h : operatorAt? n ts = some (op, p, rest)) :
    ∃ t, ts = t :: rest ∧ t.position = p ∧ t.kind = op.kind ∧ op.level = n := by
  cases ts with
  | nil => cases h
  | cons t ts =>
    rw [operatorAt?] at h
    cases hop : t.kind.binaryOp? with
    | none => rw [hop] at h; cases h
    | some op' =>
      rw [hop] at h
      by_cases hn : op'.level = n
      · simp only [hn, if_true, Option.some.injEq, Prod.mk.injEq] at h
        obtain ⟨rfl, hp, rfl⟩ := h
        exact ⟨t, rfl, hp, TokenClass.eq_kind_of_binaryOp? hop, hn⟩
      · simp [hn] at h

theorem eq_cons_of_assignmentAt? {ts rest : List Token} {id : Token} {op : AssignOp}
    {p : Position} (h : assignmentAt? ts = some (id, op, p, rest)) :
    ∃ t, ts = id :: t :: rest ∧ t.position = p ∧ id.kind = .identifier ∧ t.kind = op.kind ∧
      op.takesValue = true := by
  unfold assignmentAt? at h
  split at h
  next i t ts =>
    by_cases hi : i.kind = .identifier
    · simp only [hi, if_true, Option.map_eq_some_iff, Prod.mk.injEq] at h
      obtain ⟨op', hop, rfl, rfl, hp, rfl⟩ := h
      obtain ⟨hk, hv⟩ := TokenClass.eq_kind_of_assignOp? hop
      exact ⟨t, rfl, hp, hi, hk, hv⟩
    · simp [hi] at h
  next => cases h

theorem eq_cons_of_startsWith {k : TokenClass} {ts : List Token} (h : startsWith k ts = true) :
    ∃ t, ts = t :: ts.tail ∧ t.kind = k := by
  cases ts with
  | nil => cases h
  | cons t ts => exact ⟨t, rfl, by simpa [startsWith] using h⟩

/-! ## Taking tokens -/

/-- The phrase is written by the tokens in front of the rest. -/
def Takes (n : Nat) (ts : List Token) (p : Phrase) (rest : List Token) : Prop :=
  ∃ used, ts = used ++ rest ∧ Written n p used

/-- Every production takes what its phrase is written by, as long as its calls nest no deeper than a
bound. -/
structure ProductionsWritten (bound : Nat) : Prop where
  expression : ∀ {ts p rest}, Phrase.expression bound ts = .ok (p, rest) → Takes 6 ts p rest
  level : ∀ {n ts p rest}, Phrase.level bound n ts = .ok (p, rest) → Takes n ts p rest
  chain : ∀ {n left ts p rest used}, Phrase.chain bound n left ts = .ok (p, rest) →
    Written (n + 1) left used → Takes (n + 1) (used ++ ts) p rest
  prefixed : ∀ {ts p rest}, Phrase.prefixed bound ts = .ok (p, rest) → Takes 0 ts p rest
  operand : ∀ {t ts p rest}, Phrase.operand bound t ts = .ok (p, rest) → Takes 0 (t :: ts) p rest
  arguments : ∀ {id u ts p rest}, Phrase.arguments bound id u.position ts = .ok (p, rest) →
    id.kind = .identifier → u.kind = .leftParen → Takes 0 (id :: u :: ts) p rest
  furtherArguments : ∀ {id q done ts p rest},
    Phrase.furtherArguments bound id q done ts = .ok (p, rest) →
      ∃ arg args used close, p = .call id q (done.reverse ++ arg :: args) ∧
        ts = used ++ close :: rest ∧ close.kind = .rightParen ∧ WrittenArguments (arg :: args) used

variable {bound : Nat} {ts rest : List Token} {p : Phrase}

theorem expression_takes (ih : ProductionsWritten bound)
    (h : expression (bound + 1) ts = .ok (p, rest)) : Takes 6 ts p rest := by
  rw [expression] at h
  split at h
  next id op opAt after hat =>
    obtain ⟨t, rfl, rfl, hid, ht, hop⟩ := eq_cons_of_assignmentAt? hat
    split at h
    · cases h
    next value after' hvalue =>
      cases h
      obtain ⟨used, rfl, hs⟩ := ih.expression hvalue
      exact ⟨id :: t :: used, rfl, .assign (Nat.le_refl 6) hid ht hop hs⟩
  next =>
    obtain ⟨used, hts, hs⟩ := ih.level h
    exact ⟨used, hts, hs.weaken (by decide)⟩

theorem level_takes {n : Nat} (ih : ProductionsWritten bound)
    (h : level (bound + 1) n ts = .ok (p, rest)) : Takes n ts p rest := by
  cases n with
  | zero =>
    rw [level] at h
    exact ih.prefixed h
  | succ n =>
    rw [level] at h
    split at h
    · cases h
    next left after hleft =>
      obtain ⟨used, rfl, hs⟩ := ih.level hleft
      exact ih.chain h (hs.weaken (Nat.le_succ n))

theorem chain_takes {n : Nat} {left : Phrase} {used : List Token} (ih : ProductionsWritten bound)
    (h : chain (bound + 1) n left ts = .ok (p, rest)) (hleft : Written (n + 1) left used) :
    Takes (n + 1) (used ++ ts) p rest := by
  rw [chain] at h
  split at h
  next =>
    cases h
    exact ⟨used, rfl, hleft⟩
  next op opAt after hat =>
    obtain ⟨t, rfl, rfl, ht, hop⟩ := eq_cons_of_operatorAt? hat
    split at h
    · cases h
    next right after' hright =>
      obtain ⟨usedRight, rfl, hs⟩ := ih.level hright
      -- the chain goes on with the operator applied as its left operand
      have hboth : Written (n + 1) (.binary op t.position left right) (used ++ t :: usedRight) :=
        .binary (Nat.lt_succ_self n) hop hleft ht hs
      have htakes := ih.chain h hboth
      rwa [List.append_assoc, List.cons_append] at htakes

theorem prefixed_takes (ih : ProductionsWritten bound)
    (h : prefixed (bound + 1) ts = .ok (p, rest)) : Takes 0 ts p rest := by
  cases ts with
  | nil => rw [prefixed] at h; cases h
  | cons t ts =>
    rw [prefixed] at h
    split at h
    next => exact ih.operand h
    next op hop =>
      split at h
      · cases h
      next x after hx =>
        cases h
        obtain ⟨used, rfl, hs⟩ := ih.prefixed hx
        exact ⟨t :: used, rfl, .unary (TokenClass.eq_kind_of_unaryOp? hop) hs⟩

theorem operand_takes {t : Token} (ih : ProductionsWritten bound)
    (h : operand (bound + 1) t ts = .ok (p, rest)) : Takes 0 (t :: ts) p rest := by
  unfold operand at h
  split at h
  next ht =>
    split at h
    · cases h
    next inner after hinner =>
      split at h
      next hclose =>
        cases h
        obtain ⟨used, rfl, hs⟩ := ih.expression hinner
        obtain ⟨u, hafter, hu⟩ := eq_cons_of_startsWith hclose
        refine ⟨t :: (used ++ [u]), ?_, .group ht hs hu⟩
        rw [List.cons_append, List.append_assoc, List.singleton_append, ← hafter]
      next => cases h
  next =>
    split at h
    next ht =>
      split at h
      next => cases h; exact ⟨[t], rfl, .flag ht⟩
      next u after =>
        split at h
        next hu => exact ih.arguments h ht hu
        next =>
          split at h
          next op hop =>
            cases h
            obtain ⟨hk, hv⟩ := TokenClass.eq_kind_of_stepOp? hop
            exact ⟨[t, u], rfl, .step ht hk hv⟩
          next => cases h; exact ⟨[t], rfl, .flag ht⟩
    next =>
      split at h
      next ht => cases h; exact ⟨[t], rfl, .literal ht⟩
      next => cases h

theorem arguments_takes {id u : Token} (ih : ProductionsWritten bound)
    (h : arguments (bound + 1) id u.position ts = .ok (p, rest)) (hid : id.kind = .identifier)
    (hu : u.kind = .leftParen) : Takes 0 (id :: u :: ts) p rest := by
  rw [arguments] at h
  split at h
  next hclose =>
    cases h
    obtain ⟨v, hts, hv⟩ := eq_cons_of_startsWith hclose
    refine ⟨id :: u :: ([] ++ [v]), ?_, .call hid hu .nil hv⟩
    simpa using hts
  next =>
    split at h
    next =>
      obtain ⟨arg, args, used, v, rfl, rfl, hv, hs⟩ := ih.furtherArguments h
      exact ⟨id :: u :: (used ++ [v]), by simp, .call hid hu hs hv⟩
    next => cases h

theorem furtherArguments_takes {id : Token} {q : Position} {done : List Phrase}
    (ih : ProductionsWritten bound)
    (h : furtherArguments (bound + 1) id q done ts = .ok (p, rest)) :
    ∃ arg args used close, p = .call id q (done.reverse ++ arg :: args) ∧
      ts = used ++ close :: rest ∧ close.kind = .rightParen ∧
      WrittenArguments (arg :: args) used := by
  rw [furtherArguments] at h
  split at h
  · cases h
  next arg after harg =>
    obtain ⟨used, rfl, hs⟩ := ih.expression harg
    split at h
    next hcomma =>
      -- behind a comma there is at least one more argument
      obtain ⟨u, hafter, hu⟩ := eq_cons_of_startsWith hcomma
      obtain ⟨arg', args, used', v, rfl, htail, hv, hs'⟩ := ih.furtherArguments h
      refine ⟨arg, arg' :: args, used ++ u :: used', v, by simp, ?_, hv, .cons hs hu hs'⟩
      rw [hafter, htail]
      simp
    next =>
      split at h
      next hclose =>
        cases h
        obtain ⟨v, hafter, hv⟩ := eq_cons_of_startsWith hclose
        exact ⟨arg, [], used, v, by simp, by rw [← hafter], hv, .last hs⟩
      next => cases h

theorem productionsWritten (bound : Nat) : ProductionsWritten bound := by
  induction bound with
  | zero =>
    -- with nothing left of the bound every production is stuck
    constructor
    case expression => intro ts p rest h; rw [expression] at h; cases h
    case level => intro n ts p rest h; rw [level] at h; cases h
    case chain => intro n left ts p rest used h _; rw [chain] at h; cases h
    case prefixed => intro ts p rest h; rw [prefixed] at h; cases h
    case operand => intro t ts p rest h; rw [operand] at h; cases h
    case arguments => intro id u ts p rest h _ _; rw [arguments] at h; cases h
    case furtherArguments => intro id q done ts p rest h; rw [furtherArguments] at h; cases h
  | succ bound ih =>
    exact ⟨expression_takes ih, level_takes ih, chain_takes ih, prefixed_takes ih,
      operand_takes ih, arguments_takes ih, furtherArguments_takes ih⟩

/-! ## Statements -/

/-- The statements that are read behind others are written by all tokens that are left. -/
theorem furtherStatements_written {done ps : List Phrase}
    (h : furtherStatements bound done ts = .ok ps) :
    ∃ new, ps = done.reverse ++ new ∧ WrittenStatements new ts := by
  induction bound generalizing done ts with
  | zero => unfold furtherStatements at h; cases h
  | succ bound ih =>
    unfold furtherStatements at h
    split at h
    next hend =>
      cases h
      have hts : ts = [] := by
        simp only [Bool.and_eq_true, List.isEmpty_iff] at hend
        exact hend.1
      subst hts
      exact ⟨[], by simp, .nil⟩
    next =>
      split at h
      next =>
        split at h
        · cases h
        next p rest hp =>
          obtain ⟨used, rfl, hs⟩ := (productionsWritten _).expression hp
          obtain ⟨new, rfl, hnew⟩ := ih h
          exact ⟨p :: new, by simp, .cons hs hnew⟩
      next => split at h <;> cases h

theorem statements_written {ps : List Phrase} (h : statements ts = .ok ps) :
    WrittenStatements ps ts := by
  obtain ⟨new, rfl, hnew⟩ := furtherStatements_written h
  exact hnew

end Phrase

end FlagScript
