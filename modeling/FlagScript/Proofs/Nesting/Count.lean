import FlagScript.Proofs.Grammar.Soundness
import FlagScript.Proofs.Nesting.Depth

/-!
# What is counted for nesting

The count goes through the tokens without their tree. `Phrase.counted` says what it comes to on the
tokens of a phrase: it knows every parenthesis, but not every sign. Behind the name of a function
the signs in front of it are forgotten, and a sign that begins a further statement is taken for an
operator. So what stays within the limit is never refused, and what is refused nests too deep; in
the other direction the count is right if all signs are of the kind it sees (`SignsCounted`).
-/

namespace FlagScript

namespace Nesting

variable {s s' : Nesting} {k : TokenClass} {ts us : List Token}

/-! ## One token -/

/-- The depth without the signs at the end. -/
def base (s : Nesting) : Nat := s.pending.length + s.pending.foldr (· + ·) 0

theorem depth_eq (s : Nesting) : s.depth = s.base + s.run := rfl

theorem base_eq_of_pending (h : s'.pending = s.pending) : s'.base = s.base := by
  rw [base, base, h]

theorem base_eq_of_pending_cons {run : Nat} (h : s'.pending = run :: s.pending) :
    s'.base = s.base + run + 1 := by
  rw [base, base, h, List.length_cons, List.foldr_cons]
  omega

theorem seen_step (s : Nesting) (k : TokenClass) : (s.step k).seen = k :: s.seen.take 1 := by
  simp only [step]
  split_ifs <;> rfl

theorem pending_step (s : Nesting) (k : TokenClass) :
    (s.step k).pending =
      if k = .leftParen then s.run :: s.pending
      else if k = .rightParen then s.pending.tail else s.pending := by
  simp only [step]
  split_ifs <;> simp_all

theorem run_step (s : Nesting) (k : TokenClass) :
    (s.step k).run =
      if (k = .not ∨ k = .minus) ∧ s.operandComes = true then s.run + 1 else 0 := by
  simp only [step]
  split_ifs <;> simp_all

theorem links_step (s : Nesting) (k : TokenClass) :
    (s.step k).links =
      if k.assigns = true then (if s.linksOn then s.links + 1 else 1) else s.links := by
  cases k <;> simp only [step, TokenClass.assigns] <;> split_ifs <;> simp_all

theorem operandComes_step (s : Nesting) (k : TokenClass) :
    (s.step k).operandComes = k.expectsOperand := by
  rw [operandComes, seen_step]

/-! ## Tokens one behind the other -/

/-- What tokens leave open. -/
def after (s : Nesting) : List Token → Nesting
  | [] => s
  | t :: ts => (s.step t.kind).after ts

/-- What is open behind each of the tokens. -/
def states (s : Nesting) : List Token → List Nesting
  | [] => []
  | t :: ts => s.step t.kind :: (s.step t.kind).states ts

theorem after_append (s : Nesting) (ts us : List Token) :
    s.after (ts ++ us) = (s.after ts).after us := by
  induction ts generalizing s with
  | nil => rfl
  | cons t ts ih => exact ih _

theorem states_append (s : Nesting) (ts us : List Token) :
    s.states (ts ++ us) = s.states ts ++ (s.after ts).states us := by
  induction ts generalizing s with
  | nil => rfl
  | cons t ts ih => exact congrArg (_ :: ·) (ih _)

theorem findTooDeep_eq_none_iff :
    s.findTooDeep ts = none ↔
      ∀ s' ∈ s.states ts, s'.depth ≤ maxNesting ∧ s'.links ≤ maxNesting := by
  induction ts generalizing s with
  | nil => simp [findTooDeep, states]
  | cons t ts ih =>
    rw [findTooDeep, states, List.forall_mem_cons]
    by_cases hdeep : (s.step t.kind).isTooDeep = true
    · have hover : ¬((s.step t.kind).depth ≤ maxNesting ∧ (s.step t.kind).links ≤ maxNesting) := by
        simp only [isTooDeep, Bool.or_eq_true, decide_eq_true_eq] at hdeep
        omega
      simp [hdeep, hover]
    · have hwithin : (s.step t.kind).depth ≤ maxNesting ∧ (s.step t.kind).links ≤ maxNesting := by
        simp only [isTooDeep, Bool.or_eq_true, decide_eq_true_eq] at hdeep
        omega
      rw [if_neg hdeep, ih, and_iff_right hwithin]

/-- Behind a phrase everything that it opened is closed again, and no operand comes. -/
structure Resumes (s s' : Nesting) : Prop where
  pending : s'.pending = s.pending
  run : s'.run = 0
  operandComes : s'.operandComes = false

/-- A word leaves nothing open. -/
theorem resumes_step (hk : k.expectsOperand = false) (hparen : k ≠ .rightParen) (s : Nesting) :
    Resumes s (s.step k) := by
  have hopen : k ≠ .leftParen := by rintro rfl; cases hk
  have hsign : ¬(k = .not ∨ k = .minus) := by rintro (rfl | rfl) <;> cases hk
  refine ⟨?_, ?_, ?_⟩
  · rw [pending_step, if_neg hopen, if_neg hparen]
  · rw [run_step, if_neg fun h => hsign h.1]
  · rw [operandComes_step, hk]

theorem resumes_name (s : Nesting) : Resumes s (s.step .identifier) :=
  resumes_step rfl (by decide) s

/-- Something that keeps what is open, between parentheses. -/
theorem resumes_parens (h : s'.pending = (s.step .leftParen).pending) :
    Resumes s (s'.step .rightParen) := by
  refine ⟨?_, ?_, ?_⟩
  · rw [pending_step, if_neg (by decide), if_pos rfl, h, pending_step, if_pos rfl, List.tail_cons]
  · rw [run_step, if_neg (by simp)]
  · rw [operandComes_step]
    rfl

theorem Resumes.trans {s'' : Nesting} (h : Resumes s s') (h' : Resumes s' s'') : Resumes s s'' :=
  ⟨h'.pending.trans h.pending, h'.run, h'.operandComes⟩

/-- An operator in front of something changes nothing of this. -/
theorem Resumes.behind (h : Resumes (s.step k) s') (hl : k ≠ .leftParen) (hr : k ≠ .rightParen) :
    Resumes s s' := by
  have hpending : (s.step k).pending = s.pending := by
    rw [pending_step, if_neg hl, if_neg hr]
  exact ⟨h.pending.trans hpending, h.run, h.operandComes⟩

/-- Where a phrase stands: parentheses and signs in front of it come to `base`, behind them `run`
more signs stand right in front of it, and `comes` says whether an operand is seen to come. -/
structure Stands (comes : Bool) (run base : Nat) (s : Nesting) : Prop where
  operandComes : s.operandComes = comes
  run : s.run = run
  base : s.base = base

section

variable {comes : Bool} {run base : Nat}

theorem Stands.depth (h : Stands comes run base s) : s.depth = base + run := by
  rw [depth_eq, h.base, h.run]

theorem Stands.resumes (h : Stands comes run base s) (hs : Resumes s s') :
    Stands false 0 base s' :=
  ⟨hs.operandComes, hs.run, (base_eq_of_pending hs.pending).trans h.base⟩

theorem Stands.leftParen (h : Stands comes run base s) :
    Stands true 0 (base + run + 1) (s.step .leftParen) := by
  have hpending : (s.step .leftParen).pending = s.run :: s.pending := by
    rw [pending_step, if_pos rfl]
  refine ⟨operandComes_step s _, by rw [run_step, if_neg (by simp)], ?_⟩
  rw [base_eq_of_pending_cons hpending, h.run, h.base]

theorem base_step (hl : k ≠ .leftParen) (hr : k ≠ .rightParen) : (s.step k).base = s.base :=
  base_eq_of_pending (by rw [pending_step, if_neg hl, if_neg hr])

theorem Stands.sign (h : Stands true run base s) (hk : k = .not ∨ k = .minus) :
    Stands true (run + 1) base (s.step k) := by
  refine ⟨?_, ?_, ?_⟩
  · rw [operandComes_step]
    rcases hk with rfl | rfl <;> rfl
  · rw [run_step, if_pos ⟨hk, h.operandComes⟩, h.run]
  · rw [base_step (by rintro rfl; simp at hk) (by rintro rfl; simp at hk), h.base]

/-- An operator between operands, a comma, or a sign that is not seen as one. -/
theorem Stands.operator (h : Stands comes run base s) (hk : k.expectsOperand = true)
    (hl : k ≠ .leftParen) (hsign : k = .not ∨ k = .minus → comes = false) :
    Stands true 0 base (s.step k) := by
  have hr : k ≠ .rightParen := by rintro rfl; cases hk
  refine ⟨by rw [operandComes_step, hk], ?_, by rw [base_step hl hr, h.base]⟩
  rw [run_step, if_neg]
  rintro ⟨hk, hcomes⟩
  rw [h.operandComes, hsign hk] at hcomes
  cases hcomes

end

end Nesting

open Nesting

theorem TokenClass.expectsOperand_of_isLiteral {k : TokenClass} (h : k.isLiteral = true) :
    k.expectsOperand = false ∧ k ≠ .rightParen := by
  revert h
  cases k <;> decide

theorem UnaryOp.kind_ne_paren (op : UnaryOp) : op.kind ≠ .leftParen ∧ op.kind ≠ .rightParen := by
  cases op <;> decide

theorem UnaryOp.kind_sign (op : UnaryOp) : op.kind = .not ∨ op.kind = .minus := by
  cases op <;> simp [UnaryOp.kind]

theorem BinaryOp.kind_ne_paren (op : BinaryOp) :
    op.kind ≠ .leftParen ∧ op.kind ≠ .rightParen := by
  cases op <;> decide

theorem AssignOp.kind_ne_paren (op : AssignOp) :
    op.kind ≠ .leftParen ∧ op.kind ≠ .rightParen := by
  cases op <;> decide

namespace Phrase

mutual

theorem Written.resumes : ∀ {p : Phrase} {n : Nat} {ts : List Token}, Written n p ts →
    ∀ s : Nesting, Resumes s (s.after ts)
  | .literal _, _, _, h, s => by
    obtain ⟨ht⟩ := h
    obtain ⟨hword, hparen⟩ := TokenClass.expectsOperand_of_isLiteral ht
    exact resumes_step hword hparen s
  | .flag _, _, _, h, s => by
    obtain _ | ⟨ht⟩ := h
    rw [after, after, ht]
    exact resumes_name s
  | .step _ op, _, _, h, s => by
    obtain _ | _ | ⟨ht, hu, hop⟩ := h
    rw [after, after, after, ht, hu]
    have hword : op.kind.expectsOperand = false := by
      revert hop
      cases op <;> decide
    exact (resumes_name s).trans (resumes_step hword op.kind_ne_paren.2 _)
  | .group _ _, _, _, h, s => by
    obtain _ | _ | _ | @⟨_, t, u, _, ts, ht, hinner, hu⟩ := h
    rw [after, after_append, after, after, ht, hu]
    exact resumes_parens (hinner.resumes _).pending
  | .call _ _ _, _, _, h, s => by
    obtain _ | _ | _ | _ | @⟨_, t, u, v, _, ts, ht, hu, hargs, hv⟩ := h
    rw [after, after, after_append, after, after, ht, hu, hv]
    -- the parentheses of a call are those of a group behind a name
    exact (resumes_name s).trans (resumes_parens (hargs.pending _))
  | .unary op _ _, _, _, h, s => by
    obtain _ | _ | _ | _ | _ | ⟨ht, hoperand⟩ := h
    rw [after, ht]
    exact (hoperand.resumes _).behind op.kind_ne_paren.1 op.kind_ne_paren.2
  | .binary op _ _ _, _, _, h, s => by
    obtain _ | _ | _ | _ | _ | _ | ⟨_, _, hleft, ht, hright⟩ := h
    rw [after_append, after, ht]
    refine (hleft.resumes s).trans ?_
    exact (hright.resumes _).behind op.kind_ne_paren.1 op.kind_ne_paren.2
  | .assign _ op _ _, _, _, h, s => by
    obtain _ | _ | _ | _ | _ | _ | _ | ⟨_, ht, hu, _, hvalue⟩ := h
    rw [after, after, ht, hu]
    refine (resumes_name s).trans ?_
    exact (hvalue.resumes _).behind op.kind_ne_paren.1 op.kind_ne_paren.2

/-- There may be no arguments, and then the parenthesis in front of them still stands last. -/
theorem WrittenArguments.pending : ∀ {ps : List Phrase} {ts : List Token}, WrittenArguments ps ts →
    ∀ s : Nesting, (s.after ts).pending = s.pending
  | [], _, h, s => by
    cases h
    rfl
  | [_], _, h, s => by
    cases h with
    | last hp => exact (hp.resumes s).pending
  | _ :: _ :: _, _, h, s => by
    cases h with
    | cons hp ht hps =>
      rw [after_append, after, hps.pending, ht, pending_step, if_neg (by decide),
        if_neg (by decide), (hp.resumes s).pending]

end

/-! ## What the count comes to -/

mutual

/-- The depths that are counted on the tokens of a phrase. In front of it stand parentheses and
signs that come to `base`, and behind them `run` more signs; `comes` says whether a sign at its
beginning is taken for one. -/
def counted (comes : Bool) (run base : Nat) : Phrase → List Nat
  | literal _ | flag _ => [base]
  | step _ _ => [base, base]
  | assign _ _ _ value => base :: base :: counted true 0 base value
  | call _ _ args => base :: (base + 1) :: (countedArguments (base + 1) args ++ [base])
  | group _ inner => (base + run + 1) :: (counted true 0 (base + run + 1) inner ++ [base])
  | binary _ _ left right => counted comes run base left ++ base :: counted true 0 base right
  | unary _ _ operand =>
    if comes then (base + run + 1) :: counted true (run + 1) base operand
    else base :: counted true 0 base operand

/-- The depths that are counted on the tokens of arguments. -/
def countedArguments (base : Nat) : List Phrase → List Nat
  | [] => []
  | [p] => counted true 0 base p
  | p :: q :: ps => counted true 0 base p ++ base :: countedArguments base (q :: ps)

end

mutual

theorem Written.depths : ∀ {p : Phrase} {n : Nat} {ts : List Token}, Written n p ts →
    ∀ {comes : Bool} {run base : Nat} {s : Nesting}, Stands comes run base s →
      (s.states ts).map Nesting.depth = p.counted comes run base
  | .literal _, _, _, h, _, _, base, s, hs => by
    have hword := hs.resumes (h.resumes s)
    obtain ⟨_⟩ := h
    exact congrArg (fun d => [d]) hword.depth
  | .flag _, _, _, h, _, _, base, s, hs => by
    have hword := hs.resumes (h.resumes s)
    obtain _ | ⟨_⟩ := h
    exact congrArg (fun d => [d]) hword.depth
  | .step _ op, _, _, h, _, _, base, s, hs => by
    have hstep := hs.resumes (h.resumes s)
    obtain _ | _ | ⟨ht, _, _⟩ := h
    have hname := hs.resumes (resumes_name s)
    rw [states, ht, List.map_cons, hname.depth]
    rw [after, ht] at hstep
    exact congrArg (fun d => [base, d]) hstep.depth
  | .group _ inner, _, _, h, _, run, base, s, hs => by
    have hend := hs.resumes (h.resumes s)
    obtain _ | _ | _ | ⟨ht, hinner, hu⟩ := h
    have hopen := hs.leftParen
    rw [after, after_append, ht] at hend
    rw [states, states_append, ht]
    simp only [List.map_cons, List.map_append, hopen.depth, hinner.depths hopen, counted]
    exact congrArg (fun d => _ :: (_ ++ [d])) hend.depth
  | .call _ _ _, _, _, h, _, _, base, s, hs => by
    have hend := hs.resumes (h.resumes s)
    obtain _ | _ | _ | _ | ⟨ht, hu, hargs, hv⟩ := h
    have hname := hs.resumes (resumes_name s)
    have hopen := hname.leftParen
    rw [after, after, after_append, ht, hu] at hend
    rw [states, states, states_append, ht, hu]
    simp only [List.map_cons, List.map_append, hname.depth, hopen.depth, hargs.depths hopen,
      counted]
    exact congrArg (fun d => _ :: _ :: (_ ++ [d])) hend.depth
  | .unary op _ _, _, _, h, comes, run, base, s, hs => by
    obtain _ | _ | _ | _ | _ | ⟨ht, hoperand⟩ := h
    rw [states, ht, List.map_cons, counted]
    cases comes with
    | true =>
      -- where an operand is expected the sign goes on with the run, elsewhere it is an operator
      have hsign := hs.sign op.kind_sign
      rw [hsign.depth, hoperand.depths hsign]
      rfl
    | false =>
      have hother := hs.operator (k := op.kind) (by cases op <;> rfl) op.kind_ne_paren.1
        fun _ => rfl
      rw [hother.depth, hoperand.depths hother]
      rfl
  | .binary op _ _ _, _, _, h, _, _, base, s, hs => by
    obtain _ | _ | _ | _ | _ | _ | ⟨_, _, hleft, ht, hright⟩ := h
    have hbehind := hs.resumes (hleft.resumes s)
    have hop := hbehind.operator (k := op.kind) (by cases op <;> rfl) op.kind_ne_paren.1
      fun _ => rfl
    rw [states_append, states, ht, List.map_append, List.map_cons, hleft.depths hs, hop.depth,
      hright.depths hop]
    rfl
  | .assign _ op _ _, _, _, h, _, _, base, s, hs => by
    obtain _ | _ | _ | _ | _ | _ | _ | ⟨_, ht, hu, hop, hvalue⟩ := h
    have hname := hs.resumes (resumes_name s)
    have hoperator : op.kind.expectsOperand = true := by
      revert hop
      cases op <;> decide
    have hassign := hname.operator hoperator op.kind_ne_paren.1 fun _ => rfl
    rw [states, states, ht, hu, List.map_cons, List.map_cons, hname.depth, hassign.depth,
      hvalue.depths hassign]
    rfl

theorem WrittenArguments.depths : ∀ {ps : List Phrase} {ts : List Token}, WrittenArguments ps ts →
    ∀ {base : Nat} {s : Nesting}, Stands true 0 base s →
      (s.states ts).map Nesting.depth = countedArguments base ps
  | [], _, h, _, s, _ => by
    cases h
    rfl
  | [_], _, h, _, s, hs => by
    cases h with
    | last hp => rw [hp.depths hs, countedArguments]
  | _ :: _ :: _, _, h, _, s, hs => by
    cases h with
    | cons hp ht hps =>
      have hbehind := hs.resumes (hp.resumes s)
      have hcomma := hbehind.operator (k := .comma) rfl (by decide) fun _ => rfl
      rw [states_append, states, ht, List.map_append, List.map_cons, hp.depths hs, hcomma.depth,
        hps.depths hcomma]
      rfl

end

end Phrase

end FlagScript
