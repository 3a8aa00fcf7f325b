import FlagScript.Proofs.Grammar.Meaning
import FlagScript.Proofs.Nesting.Depth

/-!
# Where phrases are refused

A phrase without a meaning is refused at one of its nodes, on account of that node alone: a literal
that cannot be read, a call that does not fit its function, or a node with operands that stands too
deep (`meaning_error`). The nodes of a phrase are written by some of its tokens
(`Written.of_mem_parts`), so whatever is refused can be traced back to a token.
-/

namespace FlagScript

namespace Phrase

/-- The errors for which a node is refused, whatever its operands are. -/
inductive Refuses : Phrase → Error → Prop where
  | literal {t : Token} {f : Fault} (h : t.literal = .error f) :
      Refuses (.literal t) (.fault t.position f)
  | call {id : Token} {parenAt : Position} {args : List Phrase} {f : Fault}
      (h : checkCall id args.length = .error f) :
      Refuses (.call id parenAt args) (.fault id.position f)
  | arguments (id : Token) (parenAt : Position) (args : List Phrase) :
      Refuses (.call id parenAt args) (.tooDeep parenAt maxDepth)
  | group (parenAt : Position) (inner : Phrase) :
      Refuses (.group parenAt inner) (.tooDeep parenAt maxDepth)
  | assign (id : Token) (op : AssignOp) (opAt : Position) (value : Phrase) :
      Refuses (.assign id op opAt value) (.tooDeep opAt maxDepth)
  | unary (op : UnaryOp) (opAt : Position) (operand : Phrase) :
      Refuses (.unary op opAt operand) (.tooDeep opAt maxDepth)
  | binary (op : BinaryOp) (opAt : Position) (left right : Phrase) :
      Refuses (.binary op opAt left right) (.tooDeep opAt maxDepth)

variable {p q : Phrase} {e : Error} {depth : Nat}

/-! ## Nodes that are refused -/

theorem checkDepth_eq_error {place : Position} (h : checkDepth depth place = .error e) :
    e = .tooDeep place maxDepth := by
  unfold checkDepth at h
  split at h
  · cases h
    rfl
  · cases h

/-- What fails behind the check of the depth fails at its place, or on its own. -/
theorem checkDepth_bind_eq_error {α : Type} {place : Position} {x : Except Error α}
    (h : (checkDepth depth place >>= fun _ => x) = .error e) :
    e = .tooDeep place maxDepth ∨ x = .error e := by
  rcases bind_eq_error_iff.1 h with h | ⟨_, -, h⟩
  · exact .inl (checkDepth_eq_error h)
  · exact .inr h

theorem bind_pure_eq_error {α β : Type} {x : Except Error α} {g : α → β}
    (h : (x >>= fun a => pure (g a)) = .error e) : x = .error e := by
  rcases bind_eq_error_iff.1 h with h | ⟨_, -, h⟩
  · exact h
  · cases h

theorem faultAt_eq_error {α : Type} {place : Position} {x : Except Fault α}
    (h : faultAt place x = .error e) : ∃ f, x = .error f ∧ e = .fault place f := by
  cases x with
  | error f =>
    cases h
    exact ⟨f, rfl, rfl⟩
  | ok a => cases h

theorem length_of_meanings {ps : List Phrase} {es : List Expr}
    (h : meanings depth ps = .ok es) : es.length = ps.length := by
  induction ps generalizing es with
  | nil => cases h; rfl
  | cons p ps ih =>
    obtain ⟨x, xs, -, hxs, rfl⟩ := meanings_cons_eq_ok_iff.1 h
    rw [List.length_cons, List.length_cons, ih hxs]

/-- The operators of a chain are nodes of the phrase whose root it is. -/
theorem exists_of_mem_chainPlaces {level : Nat} {place : Position} :
    ∀ (p : Phrase) {places : List Position}, place ∈ p.chainPlaces level places →
      place ∈ places ∨ ∃ op left right, .binary op place left right ∈ p.parts
  | .binary op opAt left right, places, h => by
    rw [chainPlaces] at h
    split at h
    next =>
      -- the operator at the root was put in front before its left operand was looked at
      rcases exists_of_mem_chainPlaces left h with h | ⟨op', l, r, hmem⟩
      · rcases List.mem_cons.1 h with rfl | h
        · exact .inr ⟨op, left, right, List.mem_cons_self⟩
        · exact .inl h
      · exact .inr ⟨op', l, r, List.mem_cons_of_mem _ (List.mem_append_left _ hmem)⟩
    next => exact .inl h
  | .literal _, _, h | .flag _, _, h | .step _ _, _, h | .assign _ _ _ _, _, h
  | .call _ _ _, _, h | .group _ _, _, h | .unary _ _ _, _, h => .inl h

theorem refuses_of_chainOverflow? {level : Nat} {place : Position}
    (h : chainOverflow? depth level p = some place) :
    ∃ q ∈ p.parts, q.Refuses (.tooDeep place maxDepth) := by
  rcases exists_of_mem_chainPlaces p (List.mem_of_getElem? h) with hnone | ⟨op, left, right, hmem⟩
  · exact nomatch hnone
  · exact ⟨_, hmem, .binary op place left right⟩

mutual

/-- What has no meaning is refused at one of its nodes. -/
theorem meaning_error : ∀ (p : Phrase) {depth : Nat}, p.meaning depth = .error e →
    ∃ q ∈ p.parts, q.Refuses e
  | .literal t, depth, h => by
    rw [meaning] at h
    obtain ⟨f, hf, rfl⟩ := faultAt_eq_error h
    exact ⟨_, List.mem_cons_self, .literal hf⟩
  | .flag id, depth, h => by
    rw [meaning] at h
    cases h
  | .step id op, depth, h => by
    rw [meaning] at h
    cases h
  | .assign id op opAt value, depth, h => by
    rw [meaning] at h
    rcases checkDepth_bind_eq_error h with rfl | h
    · exact ⟨_, List.mem_cons_self, .assign id op opAt value⟩
    · obtain ⟨q, hq, hrefuses⟩ := meaning_error value (bind_pure_eq_error h)
      exact ⟨q, List.mem_cons_of_mem _ hq, hrefuses⟩
  | .group parenAt inner, depth, h => by
    rw [meaning] at h
    rcases checkDepth_bind_eq_error h with rfl | h
    · exact ⟨_, List.mem_cons_self, .group parenAt inner⟩
    · obtain ⟨q, hq, hrefuses⟩ := meaning_error inner (bind_pure_eq_error h)
      exact ⟨q, List.mem_cons_of_mem _ hq, hrefuses⟩
  | .unary op opAt operand, depth, h => by
    rw [meaning] at h
    rcases checkDepth_bind_eq_error h with rfl | h
    · exact ⟨_, List.mem_cons_self, .unary op opAt operand⟩
    · obtain ⟨q, hq, hrefuses⟩ := meaning_error operand (bind_pure_eq_error h)
      exact ⟨q, List.mem_cons_of_mem _ hq, hrefuses⟩
  | .call id parenAt args, depth, h => by
    rw [meaning] at h
    rcases checkDepth_bind_eq_error h with rfl | h
    · exact ⟨_, List.mem_cons_self, .arguments id parenAt args⟩
    rcases bind_eq_error_iff.1 h with h | ⟨es, hes, h⟩
    · obtain ⟨q, hq, hrefuses⟩ := meanings_error args h
      exact ⟨q, List.mem_cons_of_mem _ hq, hrefuses⟩
    · -- the call is checked last, against as many arguments as were read
      obtain ⟨f, hf, rfl⟩ := faultAt_eq_error (bind_pure_eq_error h)
      rw [length_of_meanings hes] at hf
      exact ⟨_, List.mem_cons_self, .call hf⟩
  | .binary op opAt left right, depth, h => by
    rw [meaning] at h
    split at h
    next place hplace =>
      cases h
      exact refuses_of_chainOverflow? hplace
    next =>
      -- the left side is read before the right one
      rcases bind_eq_error_iff.1 h with h | ⟨_, -, h⟩
      · obtain ⟨q, hq, hrefuses⟩ := meaning_error left h
        exact ⟨q, List.mem_cons_of_mem _ (List.mem_append_left _ hq), hrefuses⟩
      · obtain ⟨q, hq, hrefuses⟩ := meaning_error right (bind_pure_eq_error h)
        exact ⟨q, List.mem_cons_of_mem _ (List.mem_append_right _ hq), hrefuses⟩

theorem meanings_error : ∀ (ps : List Phrase) {depth : Nat}, meanings depth ps = .error e →
    ∃ q ∈ partsOfAll ps, q.Refuses e
  | [], depth, h => by
    rw [meanings] at h
    cases h
  | p :: ps, depth, h => by
    rw [meanings] at h
    rcases bind_eq_error_iff.1 h with h | ⟨_, -, h⟩
    · obtain ⟨q, hq, hrefuses⟩ := meaning_error p h
      exact ⟨q, List.mem_append_left _ hq, hrefuses⟩
    · obtain ⟨q, hq, hrefuses⟩ := meanings_error ps (bind_pure_eq_error h)
      exact ⟨q, List.mem_append_right _ hq, hrefuses⟩

end

/-! ## The tokens of a node -/

/-- A phrase is written by some of these tokens. -/
def WrittenWithin (ts : List Token) (q : Phrase) : Prop :=
  ∃ n us, Written n q us ∧ us ⊆ ts

theorem WrittenWithin.mono {ts us : List Token} (h : WrittenWithin ts q) (hsub : ts ⊆ us) :
    WrittenWithin us q := by
  obtain ⟨n, vs, hvs, hvsub⟩ := h
  exact ⟨n, vs, hvs, List.Subset.trans hvsub hsub⟩

theorem Written.within {n : Nat} {ts : List Token} (h : Written n p ts) : WrittenWithin ts p :=
  ⟨n, ts, h, List.Subset.refl ts⟩

mutual

/-- Every node of a phrase is written by some of the tokens of the phrase. -/
theorem Written.of_mem_parts : ∀ {p : Phrase} {n : Nat} {ts : List Token}, Written n p ts →
    ∀ {q : Phrase}, q ∈ p.parts → WrittenWithin ts q
  | .literal _, _, _, h, q, hq => List.mem_singleton.1 hq ▸ h.within
  | .flag _, _, _, h, q, hq => List.mem_singleton.1 hq ▸ h.within
  | .step _ _, _, _, h, q, hq => List.mem_singleton.1 hq ▸ h.within
  | .group _ _, _, _, h, q, hq => by
    rcases List.mem_cons.1 hq with rfl | hmem
    · exact h.within
    obtain _ | _ | _ | ⟨_, hinner, _⟩ := h
    exact (hinner.of_mem_parts hmem).mono fun t ht => by simp [ht]
  | .call _ _ _, _, _, h, q, hq => by
    rcases List.mem_cons.1 hq with rfl | hmem
    · exact h.within
    obtain _ | _ | _ | _ | ⟨_, _, hargs, _⟩ := h
    exact (hargs.of_mem_parts hmem).mono fun t ht => by simp [ht]
  | .unary _ _ _, _, _, h, q, hq => by
    rcases List.mem_cons.1 hq with rfl | hmem
    · exact h.within
    obtain _ | _ | _ | _ | _ | ⟨_, hoperand⟩ := h
    exact (hoperand.of_mem_parts hmem).mono fun t ht => by simp [ht]
  | .binary _ _ _ _, _, _, h, q, hq => by
    rcases List.mem_cons.1 hq with rfl | hmem
    · exact h.within
    obtain _ | _ | _ | _ | _ | _ | ⟨_, _, hleft, _, hright⟩ := h
    rcases List.mem_append.1 hmem with hmem | hmem
    · exact (hleft.of_mem_parts hmem).mono fun t ht => by simp [ht]
    · exact (hright.of_mem_parts hmem).mono fun t ht => by simp [ht]
  | .assign _ _ _ _, _, _, h, q, hq => by
    rcases List.mem_cons.1 hq with rfl | hmem
    · exact h.within
    obtain _ | _ | _ | _ | _ | _ | _ | ⟨_, _, _, _, hvalue⟩ := h
    exact (hvalue.of_mem_parts hmem).mono fun t ht => by simp [ht]

theorem WrittenArguments.of_mem_parts : ∀ {ps : List Phrase} {ts : List Token},
    WrittenArguments ps ts → ∀ {q : Phrase}, q ∈ partsOfAll ps → WrittenWithin ts q
  | [], _, _, q, hq => nomatch hq
  | [_], _, h, q, hq => by
    cases h with
    | last hp =>
      rw [partsOfAll, partsOfAll, List.append_nil] at hq
      exact hp.of_mem_parts hq
  | _ :: _ :: _, _, h, q, hq => by
    cases h with
    | cons hp _ hps =>
      rcases List.mem_append.1 hq with hq | hq
      · exact (hp.of_mem_parts hq).mono fun t ht => by simp [ht]
      · exact (hps.of_mem_parts hq).mono fun t ht => by simp [ht]

end

theorem WrittenStatements.of_mem_parts {ps : List Phrase} {ts : List Token}
    (h : WrittenStatements ps ts) (hq : q ∈ partsOfAll ps) : WrittenWithin ts q := by
  induction h with
  | nil => exact nomatch hq
  | cons hp _ ih =>
    rcases List.mem_append.1 hq with hq | hq
    · exact (hp.of_mem_parts hq).mono (List.subset_append_left _ _)
    · exact (ih hq).mono (List.subset_append_right _ _)

/-- A literal among the phrases of a source is one of its tokens. -/
theorem WrittenStatements.literal_mem {ps : List Phrase} {ts : List Token}
    (h : WrittenStatements ps ts) {t : Token} (ht : .literal t ∈ partsOfAll ps) : t ∈ ts := by
  obtain ⟨n, us, hus, hsub⟩ := h.of_mem_parts ht
  obtain ⟨_⟩ := hus
  exact hsub List.mem_cons_self

end Phrase

end FlagScript
