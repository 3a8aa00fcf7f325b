import FlagScript.Proofs.Grammar.Soundness
import FlagScript.Proofs.Nesting.Count

/-!
# What the limit keeps

A chain of assignments is counted exactly, and the depth of a token never too high
(`counted_le_of_nested_le`): statements within the limits are not refused. In the other direction
two kinds of signs are missed: those in front of a call, whose arguments are counted as if the signs
were not there, and a sign that begins a further statement. Without such signs nothing that nests
too deep gets through.
-/

namespace FlagScript

namespace Nesting

variable {s s' : Nesting} {k : TokenClass} {t : Token} {ts us : List Token} {limit : Nat}

/-! ## Chains of assignments -/

/-- The links of the chain that an assignment would go on which comes next. -/
def linked (s : Nesting) : Nat :=
  match s.seen with
  | last :: _ => if last.assigns then s.links else 0
  | [] => 0

theorem linked_le (s : Nesting) : s.linked ≤ s.links := by
  unfold linked
  split
  · split_ifs
    · exact Nat.le_refl _
    · exact Nat.zero_le _
  · exact Nat.zero_le _

theorem links_step_of_not_assigns (hk : k.assigns = false) : (s.step k).links = s.links := by
  rw [links_step, if_neg (by rw [hk]; decide)]

theorem linked_step_of_not_assigns (hk : k.assigns = false) : (s.step k).linked = 0 := by
  rw [linked, seen_step]
  simp [hk]

/-- Behind a name and an operator that assigns, its value may go on the chain. -/
theorem links_assignment (hk : k.assigns = true) :
    ((s.step .identifier).step k).links = s.linked + 1 ∧
      ((s.step .identifier).step k).linked = s.linked + 1 := by
  have hlinks : ((s.step .identifier).step k).links = s.linked + 1 := by
    rw [links_step, if_pos hk, linksOn, seen_step, links_step_of_not_assigns rfl, linked]
    cases s.seen with
    | nil => rfl
    | cons last before =>
      by_cases hlast : last.assigns = true
      · simp [hlast]
      · simp [hlast]
  refine ⟨hlinks, ?_⟩
  rw [linked, seen_step]
  simp only [hk, if_true, hlinks]

theorem linked_eq_zero (h : s.operandComes = false) : s.linked = 0 := by
  unfold linked
  unfold operandComes at h
  split at h
  next hseen => cases h
  next last before hseen =>
    rw [hseen]
    have hassigns : last.assigns = false := by
      revert h
      cases last <;> decide
    simp [hassigns]

/-- No chain gets longer than the limit on the way through the tokens. -/
def LinksWithin (limit : Nat) (s : Nesting) (ts : List Token) : Prop :=
  ∀ s' ∈ s :: s.states ts, s'.links ≤ limit

theorem LinksWithin.start (h : LinksWithin limit s ts) : s.links ≤ limit := h s (by simp)

theorem linksWithin_nil : LinksWithin limit s [] ↔ s.links ≤ limit := by
  simp [LinksWithin, states]

theorem linksWithin_cons :
    LinksWithin limit s (t :: ts) ↔ s.links ≤ limit ∧ LinksWithin limit (s.step t.kind) ts := by
  rw [LinksWithin, List.forall_mem_cons, states]
  rfl

theorem linksWithin_cons_of_not_assigns (ht : t.kind.assigns = false) :
    LinksWithin limit s (t :: ts) ↔ LinksWithin limit (s.step t.kind) ts := by
  rw [linksWithin_cons, and_iff_right_iff_imp]
  intro h
  rw [← links_step_of_not_assigns ht]
  exact h.start

theorem linksWithin_append :
    LinksWithin limit s (ts ++ us) ↔
      LinksWithin limit s ts ∧ LinksWithin limit (s.after ts) us := by
  induction ts generalizing s with
  | nil =>
    rw [List.nil_append, after, linksWithin_nil, iff_and_self]
    exact LinksWithin.start
  | cons t ts ih => rw [List.cons_append, linksWithin_cons, linksWithin_cons, ih, and_assoc, after]

theorem LinksWithin.last (h : LinksWithin limit s ts) : (s.after ts).links ≤ limit := by
  have happend : LinksWithin limit s (ts ++ []) := by rwa [List.append_nil]
  exact (linksWithin_append.1 happend).2.start

/-- A token at the end that does not assign changes nothing. -/
theorem linksWithin_append_singleton (ht : t.kind.assigns = false) :
    LinksWithin limit s (ts ++ [t]) ↔ LinksWithin limit s ts := by
  rw [linksWithin_append, linksWithin_cons_of_not_assigns ht, linksWithin_nil,
    links_step_of_not_assigns ht, and_iff_left_iff_imp]
  exact LinksWithin.last

theorem linksWithin_of_not_assigns (h : ∀ t ∈ ts, t.kind.assigns = false) :
    LinksWithin limit s ts ↔ s.links ≤ limit := by
  induction ts generalizing s with
  | nil => exact linksWithin_nil
  | cons t ts ih =>
    rw [List.forall_mem_cons] at h
    rw [linksWithin_cons_of_not_assigns h.1, ih h.2, links_step_of_not_assigns h.1]

/-- Behind tokens that keep within the limit the chain does so, too. -/
theorem linksWithin_and_last {P : Prop} :
    (LinksWithin limit s ts ∧ (s.after ts).links ≤ limit ∧ P) ↔ LinksWithin limit s ts ∧ P := by
  constructor
  · rintro ⟨h, _, hp⟩
    exact ⟨h, hp⟩
  · rintro ⟨h, hp⟩
    exact ⟨h, h.last, hp⟩

end Nesting

open Nesting

theorem BinaryOp.kind_assigns (op : BinaryOp) : op.kind.assigns = false := by cases op <;> rfl

theorem UnaryOp.kind_assigns (op : UnaryOp) : op.kind.assigns = false := by cases op <;> rfl

theorem AssignOp.kind_assigns (op : AssignOp) : op.kind.assigns = op.takesValue := by
  cases op <;> rfl

theorem TokenClass.assigns_of_isLiteral {k : TokenClass} (h : k.isLiteral = true) :
    k.assigns = false := by
  revert h
  cases k <;> decide

namespace Phrase

theorem mem_parts_self (p : Phrase) : p ∈ p.parts := by cases p <;> simp [parts]

theorem Written.links_eq_zero {n : Nat} {p : Phrase} {ts : List Token} (h : Written n p ts)
    (hn : n < 6) : p.links = 0 := by
  cases h with
  | assign hn' => omega
  | literal | flag | step | group | call | unary | binary => rfl

variable {limit : Nat}

/-- The links of a chain that a phrase goes on, and of the chains within it. -/
theorem links_zero_iff {p : Phrase} :
    (0 + p.links ≤ limit ∧ ∀ q ∈ p.parts, q.links ≤ limit) ↔ ∀ q ∈ p.parts, q.links ≤ limit := by
  rw [Nat.zero_add, and_iff_right_iff_imp]
  intro h
  exact h p p.mem_parts_self

theorem links_word_iff {s : Nesting} :
    (s.links ≤ limit ∧ s.linked + 0 ≤ limit ∧ 0 ≤ limit) ↔ s.links ≤ limit := by
  have hlinked := s.linked_le
  omega

/-- A phrase that is no assignment ends the chain in front of it. -/
theorem links_end_iff {s : Nesting} {P : Prop} :
    (s.links ≤ limit ∧ s.linked + 0 ≤ limit ∧ 0 ≤ limit ∧ P) ↔ s.links ≤ limit ∧ P := by
  have hlinked := s.linked_le
  constructor
  · rintro ⟨hs, _, _, hp⟩
    exact ⟨hs, hp⟩
  · rintro ⟨hs, hp⟩
    exact ⟨hs, by omega, Nat.zero_le _, hp⟩

mutual

theorem Written.linksWithin_iff : ∀ {p : Phrase} {n : Nat} {ts : List Token}, Written n p ts →
    ∀ s : Nesting, LinksWithin limit s ts ↔
      s.links ≤ limit ∧ s.linked + p.links ≤ limit ∧ ∀ q ∈ p.parts, q.links ≤ limit
  | .literal _, _, _, h, s => by
    obtain ⟨ht⟩ := h
    have hquiet := TokenClass.assigns_of_isLiteral ht
    rw [linksWithin_of_not_assigns (by simpa using hquiet), parts, List.forall_mem_singleton]
    exact links_word_iff.symm
  | .flag _, _, _, h, s => by
    obtain _ | ⟨ht⟩ := h
    have hquiet : TokenClass.identifier.assigns = false := rfl
    rw [linksWithin_of_not_assigns (by simpa [ht] using hquiet), parts, List.forall_mem_singleton]
    exact links_word_iff.symm
  | .step _ op, _, _, h, s => by
    obtain _ | _ | ⟨ht, hu, hop⟩ := h
    have hquiet : TokenClass.identifier.assigns = false ∧ op.kind.assigns = false :=
      ⟨rfl, op.kind_assigns.trans hop⟩
    rw [linksWithin_of_not_assigns (by simpa [ht, hu] using hquiet), parts,
      List.forall_mem_singleton]
    exact links_word_iff.symm
  | .group _ inner, _, _, h, s => by
    obtain _ | _ | _ | ⟨ht, hinner, hu⟩ := h
    rw [linksWithin_cons_of_not_assigns (by rw [ht]; rfl),
      linksWithin_append_singleton (by rw [hu]; rfl), hinner.linksWithin_iff, ht,
      links_step_of_not_assigns rfl, linked_step_of_not_assigns rfl, links_zero_iff, parts,
      List.forall_mem_cons]
    exact links_end_iff.symm
  | .call _ _ _, _, _, h, s => by
    obtain _ | _ | _ | _ | ⟨ht, hu, hargs, hv⟩ := h
    rw [linksWithin_cons_of_not_assigns (by rw [ht]; rfl),
      linksWithin_cons_of_not_assigns (by rw [hu]; rfl),
      linksWithin_append_singleton (by rw [hv]; rfl), ht, hu,
      hargs.linksWithin_iff _ (linked_step_of_not_assigns rfl), links_step_of_not_assigns rfl,
      links_step_of_not_assigns rfl, parts, List.forall_mem_cons]
    exact links_end_iff.symm
  | .unary op _ _, _, _, h, s => by
    obtain _ | _ | _ | _ | _ | ⟨ht, hoperand⟩ := h
    have hquiet := op.kind_assigns
    rw [linksWithin_cons_of_not_assigns (by rw [ht, hquiet]), hoperand.linksWithin_iff, ht,
      links_step_of_not_assigns hquiet, linked_step_of_not_assigns hquiet, links_zero_iff, parts,
      List.forall_mem_cons]
    exact links_end_iff.symm
  | .binary op _ _ _, _, _, h, s => by
    obtain _ | _ | _ | _ | _ | _ | ⟨_, hop, hleft, ht, hright⟩ := h
    -- a left operand is never an assignment, so no chain reaches over the operator
    have hlevel := Expr.level_binaryOp_lt op
    have hquiet := op.kind_assigns
    rw [linksWithin_append, linksWithin_cons_of_not_assigns (by rw [ht, hquiet]),
      hright.linksWithin_iff, ht, links_step_of_not_assigns hquiet,
      linked_step_of_not_assigns hquiet, links_zero_iff, linksWithin_and_last,
      hleft.linksWithin_iff, hleft.links_eq_zero (by omega), parts, List.forall_mem_cons,
      List.forall_mem_append, and_assoc, and_assoc]
    simp [links]
  | .assign _ op _ _, _, _, h, s => by
    obtain _ | _ | _ | _ | _ | _ | _ | ⟨_, ht, hu, hop, hvalue⟩ := h
    obtain ⟨hlinks, hlinked⟩ := links_assignment (s := s) (op.kind_assigns.trans hop)
    rw [linksWithin_cons_of_not_assigns (by rw [ht]; rfl), linksWithin_cons,
      hvalue.linksWithin_iff, ht, hu, hlinks, hlinked, links_step_of_not_assigns rfl, parts,
      List.forall_mem_cons]
    -- an assignment adds one link to the chain its value goes on with
    simp only [links]
    constructor
    · rintro ⟨hs, hlink, hchain, hparts⟩
      exact ⟨hs, by omega, by omega, hparts⟩
    · rintro ⟨hs, hchain, hself, hparts⟩
      exact ⟨hs, by omega, by omega, hparts⟩

theorem WrittenArguments.linksWithin_iff : ∀ {ps : List Phrase} {ts : List Token},
    WrittenArguments ps ts → ∀ s : Nesting, s.linked = 0 →
      (LinksWithin limit s ts ↔ s.links ≤ limit ∧ ∀ q ∈ partsOfAll ps, q.links ≤ limit)
  | [], _, h, s, _ => by
    cases h
    simp [linksWithin_nil, partsOfAll]
  | [_], _, h, s, hs => by
    cases h with
    | last hp =>
      rw [hp.linksWithin_iff, hs, links_zero_iff, partsOfAll, partsOfAll, List.append_nil]
  | _ :: _ :: _, _, h, s, hs => by
    cases h with
    | cons hp ht hps =>
      rw [linksWithin_append, linksWithin_cons_of_not_assigns (by rw [ht]; rfl), ht,
        hps.linksWithin_iff _ (linked_step_of_not_assigns rfl), links_step_of_not_assigns rfl,
        linksWithin_and_last, hp.linksWithin_iff, hs, links_zero_iff, and_assoc]
      simp only [partsOfAll, List.forall_mem_append]

end

theorem WrittenStatements.linksWithin_iff {ps : List Phrase} {ts : List Token}
    (h : WrittenStatements ps ts) {s : Nesting} (hs : s.linked = 0) :
    LinksWithin limit s ts ↔ s.links ≤ limit ∧ ∀ q ∈ ps.flatMap parts, q.links ≤ limit := by
  induction h generalizing s with
  | nil => simp [linksWithin_nil]
  | @cons p ps ts us hp _ ih =>
    have hbehind := linked_eq_zero (hp.resumes s).operandComes
    rw [linksWithin_append, ih hbehind, linksWithin_and_last, hp.linksWithin_iff, hs,
      links_zero_iff, List.flatMap_cons, List.forall_mem_append, and_assoc]

/-! ## The depth of tokens -/

/-- The depths that are counted on statements, if the first of them stands where an operand is seen
to come or not. -/
def countedStatements (comes : Bool) : List Phrase → List Nat
  | [] => []
  | p :: ps => p.counted comes 0 0 ++ countedStatements false ps

theorem WrittenStatements.depths {ps : List Phrase} {ts : List Token}
    (h : WrittenStatements ps ts) {comes : Bool} {s : Nesting} (hs : Stands comes 0 0 s) :
    (s.states ts).map Nesting.depth = countedStatements comes ps := by
  induction h generalizing comes s with
  | nil => rfl
  | cons hp _ ih =>
    have hbehind := hs.resumes (hp.resumes s)
    rw [states_append, List.map_append, hp.depths hs, ih hbehind, countedStatements]

mutual

/-- No depth that is counted is greater than how deep a token nests. -/
theorem counted_le_of_nested_le : ∀ (p : Phrase) {comes : Bool} {run base depth : Nat},
    base + run ≤ depth → (∀ x ∈ p.nested depth, x.2 ≤ limit) →
      ∀ d ∈ p.counted comes run base, d ≤ limit
  | .literal _, _, run, base, depth, hle, h => by
    simp only [nested, counted, List.forall_mem_singleton] at h ⊢
    omega
  | .flag _, _, run, base, depth, hle, h => by
    simp only [nested, counted, List.forall_mem_singleton] at h ⊢
    omega
  | .step _ _, _, run, base, depth, hle, h => by
    simp only [nested, counted, List.forall_mem_cons, List.not_mem_nil, false_implies,
      implies_true, and_true] at h ⊢
    omega
  | .assign _ _ _ value, _, run, base, depth, hle, h => by
    simp only [nested, counted, List.forall_mem_cons] at h ⊢
    obtain ⟨_, _, hvalue⟩ := h
    exact ⟨by omega, by omega, counted_le_of_nested_le value (by omega) hvalue⟩
  | .call _ _ args, _, run, base, depth, hle, h => by
    simp only [nested, counted, List.forall_mem_cons, List.forall_mem_append] at h ⊢
    obtain ⟨_, _, hargs, _⟩ := h
    have hcounted : ∀ d ∈ countedArguments (base + 1) args, d ≤ limit :=
      countedArguments_le_of_nested_le args (by omega) hargs
    exact ⟨by omega, by omega, hcounted, by omega, by simp⟩
  | .group _ inner, _, run, base, depth, hle, h => by
    simp only [nested, counted, List.forall_mem_cons, List.forall_mem_append] at h ⊢
    obtain ⟨_, hinner, _⟩ := h
    exact ⟨by omega, counted_le_of_nested_le inner (by omega) hinner, by omega, by simp⟩
  | .binary _ _ left right, _, run, base, depth, hle, h => by
    simp only [nested, counted, List.forall_mem_cons, List.forall_mem_append] at h ⊢
    obtain ⟨hleft, _, hright⟩ := h
    exact ⟨counted_le_of_nested_le left hle hleft, by omega,
      counted_le_of_nested_le right (by omega) hright⟩
  | .unary _ _ operand, comes, run, base, depth, hle, h => by
    simp only [nested, counted, List.forall_mem_cons] at h ⊢
    obtain ⟨_, hoperand⟩ := h
    -- a sign that is not seen as one only makes the count smaller
    cases comes with
    | true =>
      rw [if_pos rfl, List.forall_mem_cons]
      exact ⟨by omega, counted_le_of_nested_le operand (by omega) hoperand⟩
    | false =>
      rw [if_neg (by decide), List.forall_mem_cons]
      exact ⟨by omega, counted_le_of_nested_le operand (by omega) hoperand⟩

theorem countedArguments_le_of_nested_le : ∀ (ps : List Phrase) {base depth : Nat}, base ≤ depth →
    (∀ x ∈ nestedArguments depth ps, x.2 ≤ limit) → ∀ d ∈ countedArguments base ps, d ≤ limit
  | [], _, _, _, _ => by simp [countedArguments]
  | [p], base, depth, hle, h => by
    exact counted_le_of_nested_le p (by omega) h
  | p :: q :: ps, base, depth, hle, h => by
    simp only [nestedArguments, countedArguments, List.forall_mem_cons,
      List.forall_mem_append] at h ⊢
    obtain ⟨hp, _, hps⟩ := h
    exact ⟨counted_le_of_nested_le p (by omega) hp, by omega,
      countedArguments_le_of_nested_le (q :: ps) hle hps⟩

end

theorem countedStatements_le_of_nested_le {ps : List Phrase} {comes : Bool}
    (h : ∀ x ∈ ps.flatMap (nested 0), x.2 ≤ limit) :
    ∀ d ∈ countedStatements comes ps, d ≤ limit := by
  induction ps generalizing comes with
  | nil => simp [countedStatements]
  | cons p ps ih =>
    rw [List.flatMap_cons, List.forall_mem_append] at h
    rw [countedStatements, List.forall_mem_append]
    exact ⟨counted_le_of_nested_le p (Nat.le_refl 0) h.1, ih h.2⟩

/-! ## Signs that are counted -/

def isCall : Phrase → Bool
  | call _ _ _ => true
  | _ => false

/-- Whether a phrase is a sign right in front of a call. -/
def isSignedCall : Phrase → Bool
  | unary _ _ operand => operand.isCall
  | _ => false

/-- Whether a phrase begins with a sign. -/
def startsSigned : Phrase → Bool
  | unary _ _ _ => true
  | binary _ _ left _ => startsSigned left
  | _ => false

/-- Every sign of the statements is counted on all that it stands in front of: none stands in front
of a call, and none begins a statement behind another one. -/
structure SignsCounted (ps : List Phrase) : Prop where
  calls : ∀ q ∈ ps.flatMap parts, q.isSignedCall = false
  statements : ∀ p ∈ ps.tail, p.startsSigned = false

mutual

/-- If all signs are counted, tokens nest as deep as is counted. -/
theorem Written.nested_le_of_counted_le : ∀ {p : Phrase} {n : Nat} {ts : List Token},
    Written n p ts → ∀ {comes : Bool} {run base depth : Nat}, base + run = depth → depth ≤ limit →
      (comes = true ∨ p.startsSigned = false) → (run = 0 ∨ n = 0 ∧ p.isCall = false) →
      (∀ q ∈ p.parts, q.isSignedCall = false) → (∀ d ∈ p.counted comes run base, d ≤ limit) →
      ∀ x ∈ p.nested depth, x.2 ≤ limit
  | .literal _, _, _, _, _, _, _, depth, _, hd, _, _, _, _ => by
    simpa only [nested, List.forall_mem_singleton] using hd
  | .flag _, _, _, _, _, _, _, depth, _, hd, _, _, _, _ => by
    simpa only [nested, List.forall_mem_singleton] using hd
  | .step _ _, _, _, _, _, _, _, depth, _, hd, _, _, _, _ => by
    simp only [nested, List.forall_mem_cons, List.not_mem_nil, false_implies, implies_true,
      and_true]
    exact ⟨hd, hd⟩
  | .group _ inner, _, _, h, _, run, base, depth, hdepth, hd, _, _, hparts, hc => by
    obtain _ | _ | _ | ⟨_, hinner, _⟩ := h
    rw [parts, List.forall_mem_cons] at hparts
    simp only [counted, List.forall_mem_cons, List.forall_mem_append] at hc
    obtain ⟨hopen, hin, _⟩ := hc
    have hnested : ∀ x ∈ inner.nested (depth + 1), x.2 ≤ limit :=
      hinner.nested_le_of_counted_le (by omega) (by omega) (.inl rfl) (.inl rfl) hparts.2 hin
    simp only [nested, List.forall_mem_cons, List.forall_mem_append]
    exact ⟨by omega, hnested, by omega, by simp⟩
  | .call _ _ args, _, _, h, _, run, base, depth, hdepth, hd, _, hrun, hparts, hc => by
    obtain _ | _ | _ | _ | ⟨_, _, hargs, _⟩ := h
    -- no sign stands right in front of it
    obtain rfl : run = 0 := by
      rcases hrun with hrun | ⟨_, hcall⟩
      · exact hrun
      · cases hcall
    rw [parts, List.forall_mem_cons] at hparts
    simp only [counted, List.forall_mem_cons, List.forall_mem_append] at hc
    obtain ⟨_, hopen, hin, _⟩ := hc
    obtain rfl : depth = base := by omega
    have hnested := hargs.nested_le_of_counted_le hopen hparts.2 hin
    simp only [nested, List.forall_mem_cons, List.forall_mem_append]
    exact ⟨hd, hopen, hnested, hopen, by simp⟩
  | .unary op _ operand, _, _, h, comes, run, base, depth, hdepth, hd, hcomes, _, hparts, hc => by
    obtain _ | _ | _ | _ | _ | ⟨_, hoperand⟩ := h
    obtain rfl : comes = true := by
      rcases hcomes with hcomes | hsigned
      · exact hcomes
      · cases hsigned
    rw [parts, List.forall_mem_cons] at hparts
    simp only [counted, if_true, List.forall_mem_cons] at hc
    obtain ⟨hsign, hin⟩ := hc
    have hnested : ∀ x ∈ operand.nested (depth + 1), x.2 ≤ limit :=
      hoperand.nested_le_of_counted_le (by omega) (by omega) (.inl rfl) (.inr ⟨rfl, hparts.1⟩)
        hparts.2 hin
    simp only [nested, List.forall_mem_cons]
    exact ⟨by omega, hnested⟩
  | .binary op _ left right, n, _, h, comes, run, base, depth, hdepth, hd, hcomes, hrun, hparts,
      hc => by
    obtain _ | _ | _ | _ | _ | _ | ⟨hm, _, hleft, _, hright⟩ := h
    -- an operand of a sign has no operators outside of parentheses
    obtain rfl : run = 0 := by
      rcases hrun with hrun | ⟨hn, _⟩
      · exact hrun
      · omega
    rw [parts, List.forall_mem_cons, List.forall_mem_append] at hparts
    simp only [counted, List.forall_mem_cons, List.forall_mem_append] at hc
    obtain ⟨hcleft, _, hcright⟩ := hc
    have hnleft := hleft.nested_le_of_counted_le hdepth hd hcomes (.inl rfl) hparts.2.1 hcleft
    have hnright :=
      hright.nested_le_of_counted_le hdepth hd (.inl rfl) (.inl rfl) hparts.2.2 hcright
    simp only [nested, List.forall_mem_cons, List.forall_mem_append]
    exact ⟨hnleft, hd, hnright⟩
  | .assign _ op _ value, n, _, h, _, run, base, depth, hdepth, hd, _, hrun, hparts, hc => by
    obtain _ | _ | _ | _ | _ | _ | _ | ⟨hn, _, _, _, hvalue⟩ := h
    obtain rfl : run = 0 := by omega
    rw [parts, List.forall_mem_cons] at hparts
    simp only [counted, List.forall_mem_cons] at hc
    obtain ⟨_, _, hin⟩ := hc
    have hnested := hvalue.nested_le_of_counted_le hdepth hd (.inl rfl) (.inl rfl) hparts.2 hin
    simp only [nested, List.forall_mem_cons]
    exact ⟨hd, hd, hnested⟩

theorem WrittenArguments.nested_le_of_counted_le : ∀ {ps : List Phrase} {ts : List Token},
    WrittenArguments ps ts → ∀ {depth : Nat}, depth ≤ limit →
      (∀ q ∈ partsOfAll ps, q.isSignedCall = false) →
      (∀ d ∈ countedArguments depth ps, d ≤ limit) → ∀ x ∈ nestedArguments depth ps, x.2 ≤ limit
  | [], _, _, _, _, _, _ => by simp [nestedArguments]
  | [p], _, h, _, hd, hparts, hc => by
    cases h with
    | last hp =>
      rw [partsOfAll, partsOfAll, List.append_nil] at hparts
      exact hp.nested_le_of_counted_le rfl hd (.inl rfl) (.inl rfl) hparts hc
  | p :: q :: ps, _, h, _, hd, hparts, hc => by
    cases h with
    | cons hp _ hps =>
      rw [partsOfAll, List.forall_mem_append] at hparts
      simp only [countedArguments, List.forall_mem_cons, List.forall_mem_append] at hc
      obtain ⟨hcp, _, hcps⟩ := hc
      have hnp := hp.nested_le_of_counted_le rfl hd (.inl rfl) (.inl rfl) hparts.1 hcp
      have hnps := hps.nested_le_of_counted_le hd hparts.2 hcps
      simp only [nestedArguments, List.forall_mem_cons, List.forall_mem_append]
      exact ⟨hnp, hd, hnps⟩

end

theorem WrittenStatements.nested_le_of_counted_le {ps : List Phrase} {ts : List Token}
    (h : WrittenStatements ps ts) {comes : Bool}
    (hcomes : ∀ p ∈ ps, comes = true ∨ p.startsSigned = false)
    (hbehind : ∀ p ∈ ps.tail, p.startsSigned = false)
    (hparts : ∀ q ∈ ps.flatMap parts, q.isSignedCall = false)
    (hc : ∀ d ∈ countedStatements comes ps, d ≤ limit) :
    ∀ x ∈ ps.flatMap (nested 0), x.2 ≤ limit := by
  induction h generalizing comes with
  | nil => simp
  | @cons p ps _ _ hp _ ih =>
    rw [List.flatMap_cons, List.forall_mem_append] at hparts ⊢
    rw [countedStatements, List.forall_mem_append] at hc
    have hothers : ∀ q ∈ ps, q.startsSigned = false := hbehind
    refine ⟨?_, ?_⟩
    · exact hp.nested_le_of_counted_le rfl (Nat.zero_le _) (hcomes p (by simp)) (.inl rfl)
        hparts.1 hc.1
    · exact ih (fun q hq => .inr (hothers q hq)) (fun q hq => hothers q (List.mem_of_mem_tail hq))
        hparts.2 hc.2

end Phrase

/-! ## Scripts -/

open Phrase

theorem Nesting.stands_start : Stands true 0 0 ⟨[], 0, 0, []⟩ := ⟨rfl, rfl, rfl⟩

/-- What is counted on the tokens of a script. -/
theorem Nesting.tooDeep?_eq_none_iff {ps : List Phrase} {ts : List Token}
    (h : WrittenStatements ps ts) :
    tooDeep? ts = none ↔ (∀ d ∈ countedStatements true ps, d ≤ maxNesting) ∧
      ∀ q ∈ ps.flatMap parts, q.links ≤ maxNesting := by
  have hdepths := h.depths stands_start
  have hlinks : LinksWithin maxNesting ⟨[], 0, 0, []⟩ ts ↔ _ := h.linksWithin_iff rfl
  rw [LinksWithin, List.forall_mem_cons, and_iff_right (Nat.zero_le _),
    and_iff_right (Nat.zero_le _)] at hlinks
  rw [tooDeep?, findTooDeep_eq_none_iff, ← hdepths, ← hlinks, List.forall_mem_map]
  constructor
  · intro hall
    exact ⟨fun s hs => (hall s hs).1, fun s hs => (hall s hs).2⟩
  · rintro ⟨hd, hl⟩ s hs
    exact ⟨hd s hs, hl s hs⟩

/-- Statements within the limits are not refused. -/
theorem Nesting.tooDeep?_of_within {ps : List Phrase} {ts : List Token}
    (h : WrittenStatements ps ts) (hwithin : Within maxNesting ps) : tooDeep? ts = none := by
  have hcounted : ∀ d ∈ countedStatements true ps, d ≤ maxNesting :=
    countedStatements_le_of_nested_le hwithin.nested
  exact (tooDeep?_eq_none_iff h).2 ⟨hcounted, hwithin.links⟩

/-- If all signs are counted, no others get through. -/
theorem Nesting.within_of_tooDeep? {ps : List Phrase} {ts : List Token}
    (h : WrittenStatements ps ts) (hsigns : SignsCounted ps) (hnone : tooDeep? ts = none) :
    Within maxNesting ps := by
  obtain ⟨hcounted, hlinks⟩ := (tooDeep?_eq_none_iff h).1 hnone
  refine ⟨?_, hlinks⟩
  exact h.nested_le_of_counted_le (fun _ _ => .inl rfl) hsigns.statements hsigns.calls hcounted

/-- For every source that follows the grammar: what keeps within the limits is not refused, and if
all its signs are counted nothing else gets through, so that no path in a tree that is read has more
groups, calls and prefix operators on it than the limit. -/
theorem Script.tooDeep?_iff_within {source : String} {ts : List Token} {ps : List Phrase}
    (hlex : Token.lex source.toList = .ok ts) (hps : statements ts = .ok ps) :
    (ps.flatMap (nested 0)).map Prod.fst = ts.map Token.kind ∧
      (Within maxNesting ps → Nesting.tooDeep? ts = none) ∧
      (SignsCounted ps → (Nesting.tooDeep? ts = none ↔ Within maxNesting ps) ∧
        ∀ script, parse source = .ok script → ∀ e ∈ script, e.nesting ≤ maxNesting) := by
  have hwritten := statements_written hps
  have hkept := Nesting.tooDeep?_of_within hwritten
  refine ⟨hwritten.kinds_nested, hkept, fun hsigns => ?_⟩
  have hfound := Nesting.within_of_tooDeep? hwritten hsigns
  refine ⟨⟨hfound, hkept⟩, ?_⟩
  intro script hparse
  obtain ⟨ts', ps', hlex', hnone, hps', hes⟩ := parse_eq_ok_iff.1 hparse
  obtain rfl : ts = ts' := Except.ok.inj (hlex.symm.trans hlex')
  obtain rfl : ps = ps' := Except.ok.inj (hps.symm.trans hps')
  have hforms := formsAll_of_meanings hes
  exact hforms.nested_le_iff_nesting_le.1 (hfound hnone).nested

/-- Signs in front of a group, of a word and of another sign, a list of arguments and a chain of
assignments. -/
theorem Script.tooDeep?_iff_within_of_signs :
    ∃ ts ps, Token.lex "!(- -$A) $B = $C += $ADD(-2, !@x@)".toList = .ok ts ∧
      statements ts = .ok ps ∧ SignsCounted ps ∧
      (Nesting.tooDeep? ts = none ↔ Within maxNesting ps) := by
  obtain ⟨ts, hlex, ps, hps, hcalls, hstatements⟩ : ∃ ts,
      Token.lex "!(- -$A) $B = $C += $ADD(-2, !@x@)".toList = .ok ts ∧
        ∃ ps, statements ts = .ok ps ∧ (∀ q ∈ ps.flatMap parts, q.isSignedCall = false) ∧
          ∀ p ∈ ps.tail, p.startsSigned = false := by decide +kernel
  have hsigns : SignsCounted ps := ⟨hcalls, hstatements⟩
  exact ⟨ts, ps, hlex, hps, hsigns, ((tooDeep?_iff_within hlex hps).2.2 hsigns).1⟩

/-- A source is read although its phrases go beyond the limit, and so does a path in its tree. -/
def Script.ReadTooDeep (source : String) : Prop :=
  ∃ ts ps script, Token.lex source.toList = .ok ts ∧ statements ts = .ok ps ∧
    Nesting.tooDeep? ts = none ∧ ¬ Within maxNesting ps ∧
    parse source = .ok script ∧ ∃ e ∈ script, maxNesting < e.nesting

theorem Script.readTooDeep_of_parse {source : String}
    (h : ∃ script, parse source = .ok script ∧ ∃ e ∈ script, maxNesting < e.nesting) :
    ReadTooDeep source := by
  obtain ⟨script, hscript, e, he, hdeep⟩ := h
  obtain ⟨ts, ps, hlex, hnone, hps, hes⟩ := parse_eq_ok_iff.1 hscript
  refine ⟨ts, ps, script, hlex, hps, hnone, fun hwithin => ?_, hscript, e, he, hdeep⟩
  -- within the limit no path would be that long
  have hle := (formsAll_of_meanings hes).nested_le_iff_nesting_le.1 hwithin.nested e he
  omega

/-- Signs in front of a call and in front of its argument, more than the limit together, and signs
of which the first begins a second statement. -/
theorem Script.tooDeep?_misses_signs :
    ReadTooDeep (String.ofList (List.replicate 33 '!' ++ "$NOT(".toList ++ List.replicate 33 '!' ++
      "1)".toList)) ∧
    ReadTooDeep (String.ofList ("1 ".toList ++ List.replicate 65 '!' ++ ['1'])) := by
  constructor
  · exact readTooDeep_of_parse (by decide +kernel)
  · exact readTooDeep_of_parse (by decide +kernel)

end FlagScript
