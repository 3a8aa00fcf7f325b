import FlagScript.Proofs.Template.Scan

/-!
# Templates as derivations

`Blocks items bs` says how blocks come from what a scan meets: text is gathered, flags are named in
upper case, and a branch is `IF Blocks (ELSEIF Blocks)* (ELSE Blocks)? ENDIF`. Items derive blocks
exactly if the pieces gathered from them say the parts of the blocks (`blocks_iff_saying`), so a
source is read as the template that its items derive (`parseLazy_eq_ok_iff`).
-/

namespace FlagScript

namespace Template

mutual

/-- Items that make up blocks. A text goes as far as it can. -/
inductive Blocks : List Item → List Block → Prop where
  | nil : Blocks [] []
  | text {cs : List Char} {xs : List Item} {bs : List Block} (hne : cs ≠ []) (hends : TextEnds xs)
      (h : Blocks xs bs) : Blocks (cs.map .char ++ xs) (.text (.ofText cs) :: bs)
  | flag {name : List Char} {xs : List Item} {bs : List Block} (h : Blocks xs bs) :
      Blocks (.flag name :: xs) (.flag (Text.upper (String.ofList name)) :: bs)
  | branch {xs ys : List Item} {b : Block} {bs : List Block} (hb : Branch xs b) (h : Blocks ys bs) :
      Blocks (xs ++ ys) (b :: bs)

/-- A branch from its IF to its ENDIF. -/
inductive Branch : List Item → Block → Prop where
  | mk {p q : Position} {condition : String} {xs ys zs : List Item} {content : List Block}
      {more : List Clause} {otherwise : Option (List Block)} (hcontent : Blocks xs content)
      (hmore : Clauses ys more) (hotherwise : Otherwise zs otherwise) :
      Branch (.directive p (.openIf condition) :: (xs ++ (ys ++ (zs ++ [.directive q .endIf]))))
        (.branch (.mk p (.raw condition) content) more otherwise)

/-- The further clauses of a branch. -/
inductive Clauses : List Item → List Clause → Prop where
  | nil : Clauses [] []
  | cons {p : Position} {condition : String} {xs ys : List Item} {content : List Block}
      {more : List Clause} (hcontent : Blocks xs content) (hmore : Clauses ys more) :
      Clauses (.directive p (.elseIf condition) :: (xs ++ ys))
        (.mk p (.raw condition) content :: more)

/-- The ELSE of a branch, if it has one. -/
inductive Otherwise : List Item → Option (List Block) → Prop where
  | none : Otherwise [] none
  | some {p : Position} {xs : List Item} {blocks : List Block} (h : Blocks xs blocks) :
      Otherwise (.directive p .otherwise :: xs) (some blocks)

end

/-! ## What pieces say -/

variable {items xs ys : List Item} {pieces ps qs : List Piece} {us vs : List Part}

/-- The pieces say these parts. -/
def Saying (pieces : List Piece) (us : List Part) : Prop := pieces.map Piece.part? = us.map some

theorem Saying.append (hps : Saying ps us) (hqs : Saying qs vs) : Saying (ps ++ qs) (us ++ vs) := by
  rw [Saying, List.map_append, List.map_append, hps, hqs]

theorem Saying.cons {piece : Piece} {u : Part} (hpiece : piece.part? = some u) (h : Saying ps us) :
    Saying (piece :: ps) (u :: us) := by
  rw [Saying, List.map_cons, List.map_cons, hpiece, h]

theorem saying_append_iff :
    Saying pieces (us ++ vs) ↔ ∃ ps qs, pieces = ps ++ qs ∧ Saying ps us ∧ Saying qs vs := by
  rw [Saying, List.map_append, List.map_eq_append_iff]
  rfl

theorem saying_cons_iff {u : Part} :
    Saying pieces (u :: us) ↔
      ∃ piece ps, pieces = piece :: ps ∧ piece.part? = some u ∧ Saying ps us := by
  rw [Saying, List.map_cons, List.map_eq_cons_iff]
  rfl

theorem saying_nil_iff : Saying pieces [] ↔ pieces = [] := List.map_eq_nil_iff

/-! ## Gathering in pieces -/

theorem textEnds_directive (p : Position) (d : Directive) (xs : List Item) :
    TextEnds (.directive p d :: xs) := by
  simp [TextEnds]

/-- What is gathered apart is gathered together, where no text goes on. -/
theorem gather_append (xs : List Item) (h : TextEnds ys) :
    gather (xs ++ ys) = gather xs ++ gather ys := by
  induction xs with
  | nil => rfl
  | cons x xs ih =>
    rw [List.cons_append]
    cases x with
    | char c =>
      rw [gather, gather, ih]
      cases hxs : gather xs with
      | nil => exact addChar_of_textEnds c h
      | cons piece ps => cases piece <;> rfl
    | flag name => rw [gather, gather, ih, List.cons_append]
    | directive p d => rw [gather, gather, ih, List.cons_append]
    | malformed p => rw [gather, gather, ih, List.cons_append]

theorem addChar_ne_nil (c : Char) (pieces : List Piece) : addChar c pieces ≠ [] := by
  unfold addChar
  split <;> simp

/-- A character begins a text, which is its own or goes on. -/
theorem addChar_eq_cons {c : Char} {piece : Piece} (h : addChar c ps = piece :: qs) :
    (∃ cs, ps = .text cs :: qs ∧ piece = .text (c :: cs)) ∨
      (∀ q ∈ ps.head?, q.text? = none) ∧ ps = qs ∧ piece = .text [c] := by
  unfold addChar at h
  split at h
  next cs ps =>
    cases h
    exact .inl ⟨cs, rfl, rfl⟩
  next hne =>
    cases h
    refine .inr ⟨fun q hq => ?_, rfl, rfl⟩
    obtain ⟨ps, rfl⟩ := List.head?_eq_some_iff.1 hq
    cases q with
    | text cs => exact absurd rfl (hne cs ps)
    | flag name => rfl
    | malformed p => rfl
    | directive p d => exact text?_directive p d

theorem textEnds_of_gather (h : ∀ q ∈ (gather xs).head?, q.text? = none) : TextEnds xs := by
  intro c hc
  obtain ⟨xs, rfl⟩ := List.head?_eq_some_iff.1 hc
  cases hgather : gather (.char c :: xs) with
  | nil => exact addChar_ne_nil c _ hgather
  | cons piece ps =>
    have hnone := h piece (by rw [hgather]; rfl)
    rcases addChar_eq_cons hgather with ⟨cs, _, rfl⟩ | ⟨_, _, rfl⟩ <;> cases hnone

/-- A text in front was gathered from a run of characters. -/
theorem exists_of_gather_text {cs : List Char} (h : gather items = .text cs :: ps) :
    ∃ xs, items = cs.map .char ++ xs ∧ cs ≠ [] ∧ TextEnds xs ∧ gather xs = ps := by
  induction items generalizing cs with
  | nil => cases h
  | cons x items ih =>
    cases x with
    | flag name => cases h
    | directive p d => cases h
    | malformed p => cases h
    | char c =>
      rcases addChar_eq_cons h with ⟨ds, hds, heq⟩ | ⟨hends, hps, heq⟩
      · cases heq
        obtain ⟨xs, rfl, _, hxs, hps⟩ := ih hds
        exact ⟨xs, rfl, by simp, hxs, hps⟩
      · cases heq
        exact ⟨items, rfl, by simp, textEnds_of_gather hends, hps⟩

/-- Pieces that are split where no text begins come from items that are split. -/
theorem exists_of_gather_append (h : gather items = ps ++ qs)
    (hqs : ∀ q ∈ qs.head?, q.text? = none) :
    ∃ xs ys, items = xs ++ ys ∧ gather xs = ps ∧ gather ys = qs := by
  induction items generalizing ps with
  | nil =>
    obtain ⟨rfl, rfl⟩ := List.append_eq_nil_iff.1 h.symm
    exact ⟨[], [], rfl, rfl, rfl⟩
  | cons x items ih =>
    cases ps with
    | nil => exact ⟨[], x :: items, rfl, rfl, h⟩
    | cons piece ps =>
      -- an item that is a piece of its own
      have hother : ∀ {x' : Piece}, x' :: gather items = piece :: (ps ++ qs) →
          (∀ xs, gather (x :: xs) = x' :: gather xs) →
          ∃ xs ys, x :: items = xs ++ ys ∧ gather xs = piece :: ps ∧ gather ys = qs := by
        intro x' heq hx
        obtain ⟨rfl, hrest⟩ := List.cons.inj heq
        obtain ⟨xs, ys, rfl, rfl, rfl⟩ := ih hrest
        exact ⟨x :: xs, ys, rfl, hx xs, rfl⟩
      cases x with
      | flag name => exact hother h fun _ => rfl
      | directive p d => exact hother h fun _ => rfl
      | malformed p => exact hother h fun _ => rfl
      | char c =>
        rcases addChar_eq_cons h with ⟨cs, hcs, rfl⟩ | ⟨hends, hrest, rfl⟩
        · have hcs : gather items = (.text cs :: ps) ++ qs := hcs
          obtain ⟨xs, ys, rfl, hxs, rfl⟩ := ih hcs
          exact ⟨.char c :: xs, ys, rfl, by rw [gather, hxs, addChar], rfl⟩
        · obtain ⟨xs, ys, rfl, hxs, rfl⟩ := ih hrest
          have htext : TextEnds xs := textEnds_of_gather fun q hq => by
            refine hends q ?_
            rw [hrest]
            rw [hxs] at hq
            exact List.mem_head?_append_of_mem_head? hq
          exact ⟨.char c :: xs, ys, rfl, by rw [gather, addChar_of_textEnds c htext, hxs], rfl⟩

/-! ## What a derivation says -/

theorem Clauses.textEnds {cs : List Clause} (h : Clauses xs cs) (hys : TextEnds ys) :
    TextEnds (xs ++ ys) := by
  cases h with
  | nil => exact hys
  | cons hcontent hmore => exact textEnds_directive _ _ _

theorem Otherwise.textEnds {otherwise : Option (List Block)} (h : Otherwise xs otherwise)
    (hys : TextEnds ys) : TextEnds (xs ++ ys) := by
  cases h with
  | none => exact hys
  | some h => exact textEnds_directive _ _ _

mutual

/-- Whatever stands behind a branch, its pieces say its parts. -/
theorem Branch.saying : ∀ (b : Block) {xs : List Item}, Branch xs b → ∀ ys : List Item,
    ∃ ps, gather (xs ++ ys) = ps ++ gather ys ∧ Saying ps b.parts
  | .branch (.mk p _ content) more otherwise, _, h, ws => by
    cases h with
    | @mk _ q condition xs ys zs _ _ _ hcontent hmore hotherwise =>
      have hend := textEnds_directive q .endIf ws
      have hzs := hotherwise.textEnds hend
      have hys := hmore.textEnds hzs
      have hcontent := hcontent.saying content
      have hmore := hmore.saying more
      have hotherwise := hotherwise.saying otherwise
      refine ⟨.directive p (.openIf condition) :: (gather xs ++ (gather ys ++
        (gather zs ++ [.directive q .endIf]))), ?_, ?_⟩
      · simp only [List.cons_append, List.append_assoc, List.nil_append, gather,
          gather_append xs hys, gather_append ys hzs, gather_append zs hend]
      · exact .cons rfl (hcontent.append (hmore.append (hotherwise.append (.cons rfl rfl))))

theorem Clauses.saying : ∀ (cs : List Clause) {xs : List Item}, Clauses xs cs →
    Saying (gather xs) (Clause.furtherParts cs)
  | [], _, h => by
    cases h
    rfl
  | .mk _ _ content :: more, _, h => by
    cases h with
    | @cons p condition xs ys _ _ hcontent hmore =>
      have hys : TextEnds (ys ++ []) := hmore.textEnds (by simp [TextEnds])
      rw [List.append_nil] at hys
      rw [gather, gather_append xs hys]
      exact .cons rfl ((hcontent.saying content).append (hmore.saying more))

theorem Otherwise.saying : ∀ (otherwise : Option (List Block)) {xs : List Item},
    Otherwise xs otherwise → Saying (gather xs) (elseParts otherwise)
  | none, _, h => by
    cases h
    rfl
  | some blocks, _, h => by
    cases h with
    | some h => exact .cons rfl (h.saying blocks)

theorem Blocks.saying : ∀ (bs : List Block) {xs : List Item}, Blocks xs bs →
    Saying (gather xs) (parts bs)
  | [], _, h => by
    cases h
    rfl
  | b :: bs, _, h => by
    cases h with
    | text hne hends h =>
      rw [gather_text hends hne]
      exact .cons rfl (h.saying bs)
    | flag h => exact .cons rfl (h.saying bs)
    | @branch xs ys _ _ hb h =>
      obtain ⟨ps, hps, hsaying⟩ := hb.saying b ys
      rw [hps]
      exact hsaying.append (h.saying bs)

end

/-! ## What is said is derived -/

/-- Parts in two halves, of which the second one does not begin with text, come from two halves of
the items. -/
theorem exists_of_saying_append (h : Saying (gather items) (us ++ vs))
    (hvs : ∀ v ∈ vs.head?, v.text? = none) :
    ∃ xs ys, items = xs ++ ys ∧ Saying (gather xs) us ∧ Saying (gather ys) vs := by
  obtain ⟨ps, qs, hgather, hps, hqs⟩ := saying_append_iff.1 h
  have hhead : ∀ q ∈ qs.head?, q.text? = none := by
    intro q hq
    obtain ⟨qs, rfl⟩ := List.head?_eq_some_iff.1 hq
    cases vs with
    | nil => cases hqs
    | cons v vs =>
      have hv : q.part? = some v := (List.cons.inj hqs).1
      rw [Piece.text?, hv]
      exact hvs v rfl
  obtain ⟨xs, ys, rfl, rfl, rfl⟩ := exists_of_gather_append hgather hhead
  exact ⟨xs, ys, rfl, hps, hqs⟩

/-- A part that is no text comes from an item of its own. -/
theorem exists_of_saying_cons {u : Part} (h : Saying (gather items) (u :: us))
    (hu : u.text? = none) :
    ∃ x xs, items = x :: xs ∧ Saying (gather xs) us ∧
      ((∃ name, x = .flag name ∧ u = .flag (Text.upper (String.ofList name))) ∨
        ∃ p d, x = .directive p d ∧ (Piece.directive p d).part? = some u) := by
  obtain ⟨piece, ps, hgather, hpiece, hps⟩ := saying_cons_iff.1 h
  cases items with
  | nil => cases hgather
  | cons x xs =>
    cases x with
    | char c =>
      have hnone : piece.text? = none := by rw [Piece.text?, hpiece]; exact hu
      rcases addChar_eq_cons hgather with ⟨cs, _, rfl⟩ | ⟨_, _, rfl⟩ <;> cases hnone
    | malformed p =>
      cases hgather
      cases hpiece
    | flag name =>
      cases hgather
      exact ⟨_, xs, rfl, hps, .inl ⟨name, rfl, (Option.some.inj hpiece).symm⟩⟩
    | directive p d =>
      cases hgather
      exact ⟨_, xs, rfl, hps, .inr ⟨p, d, rfl, hpiece⟩⟩

theorem Piece.exists_of_part?_text {piece : Piece} {t : TextBlock}
    (h : piece.part? = some (.text t)) : ∃ cs, piece = .text cs ∧ t = .ofText cs := by
  cases piece with
  | text cs =>
    cases h
    exact ⟨cs, rfl, rfl⟩
  | flag name => cases h
  | malformed p => cases h
  | directive p d => cases d <;> cases h

theorem exists_of_saying_clause {opens : Bool} {p : Position} {c : Condition}
    (h : Saying (gather items) (.clause opens p c :: us)) :
    ∃ condition xs, c = .raw condition ∧
      items = .directive p (clauseDirective opens condition) :: xs ∧ Saying (gather xs) us := by
  obtain ⟨x, xs, rfl, hxs, ⟨name, _, hu⟩ | ⟨q, d, rfl, hpart⟩⟩ := exists_of_saying_cons h rfl
  · cases hu
  · cases d <;> cases hpart <;> exact ⟨_, xs, rfl, rfl, hxs⟩

theorem exists_of_saying_otherwise (h : Saying (gather items) (.otherwise :: us)) :
    ∃ p xs, items = .directive p .otherwise :: xs ∧ Saying (gather xs) us := by
  obtain ⟨x, xs, rfl, hxs, ⟨name, _, hu⟩ | ⟨q, d, rfl, hpart⟩⟩ := exists_of_saying_cons h rfl
  · cases hu
  · cases d <;> cases hpart
    exact ⟨q, xs, rfl, hxs⟩

theorem exists_of_saying_endIf (h : Saying (gather items) (.endIf :: us)) :
    ∃ p xs, items = .directive p .endIf :: xs ∧ Saying (gather xs) us := by
  obtain ⟨x, xs, rfl, hxs, ⟨name, _, hu⟩ | ⟨q, d, rfl, hpart⟩⟩ := exists_of_saying_cons h rfl
  · cases hu
  · cases d <;> cases hpart
    exact ⟨q, xs, rfl, hxs⟩

theorem eq_nil_of_saying (h : Saying (gather items) []) : items = [] := by
  have hgather : gather items = [] := saying_nil_iff.1 h
  cases items with
  | nil => rfl
  | cons x xs =>
    cases x with
    | char c => exact absurd hgather (addChar_ne_nil c _)
    | flag name => cases hgather
    | directive p d => cases hgather
    | malformed p => cases hgather

/-- No text begins where the content of a part of a branch ends. -/
theorem text?_of_atEnd (h : AtEnd us) : ∀ u ∈ us.head?, u.text? = none := by
  intro u hu
  rcases h u hu with ⟨p, c, rfl⟩ | rfl | rfl <;> rfl

mutual

/-- A block whose parts are said first is derived in front of the others. -/
theorem block_of_saying : ∀ (b : Block) {items : List Item} {us : List Part},
    Saying (gather items) (b.parts ++ us) →
      ∃ ys, Saying (gather ys) us ∧ ∀ bs, Blocks ys bs → Blocks items (b :: bs)
  | .text t, items, us, h => by
    obtain ⟨piece, ps, hgather, hpiece, hps⟩ := saying_cons_iff.1 h
    obtain ⟨cs, rfl, rfl⟩ := Piece.exists_of_part?_text hpiece
    obtain ⟨ys, rfl, hne, hends, rfl⟩ := exists_of_gather_text hgather
    exact ⟨ys, hps, fun bs hbs => .text hne hends hbs⟩
  | .flag name, items, us, h => by
    obtain ⟨x, ys, rfl, hys, ⟨name, rfl, hu⟩ | ⟨q, d, _, hpart⟩⟩ := exists_of_saying_cons h rfl
    · cases hu
      exact ⟨ys, hys, fun bs hbs => .flag hbs⟩
    · cases d <;> cases hpart
  | .branch (.mk p c content) more otherwise, items, us, h => by
    simp only [Block.parts, Clause.parts, List.cons_append, List.append_assoc] at h
    -- a branch is its first clause, further ones, the part for no clause and the end, in this order
    obtain ⟨condition, behind₁, rfl, rfl, h₁⟩ := exists_of_saying_clause h
    have hend := pastClauses_elseParts otherwise us
    obtain ⟨xs, behind₂, rfl, hxs, h₂⟩ :=
      exists_of_saying_append h₁ (text?_of_atEnd (atEnd_furtherParts more hend))
    obtain ⟨ys, behind₃, rfl, hys, h₃⟩ := exists_of_saying_append h₂ (text?_of_atEnd hend.atEnd)
    obtain ⟨zs, behind₄, rfl, hzs, h₄⟩ := exists_of_saying_append h₃ (by simp [Part.text?])
    obtain ⟨q, ws, rfl, hws⟩ := exists_of_saying_endIf h₄
    refine ⟨ws, hws, fun bs hbs => ?_⟩
    have hbranch : Branch (.directive p (.openIf condition) ::
        (xs ++ (ys ++ (zs ++ [.directive q .endIf])))) _ :=
      .mk (blocks_of_saying content hxs) (clauses_of_saying more hys)
        (otherwise_of_saying otherwise hzs)
    simpa [clauseDirective] using Blocks.branch hbranch hbs

theorem clauses_of_saying : ∀ (cs : List Clause) {items : List Item},
    Saying (gather items) (Clause.furtherParts cs) → Clauses items cs
  | [], items, h => by
    rw [eq_nil_of_saying h]
    exact .nil
  | .mk p c content :: more, items, h => by
    simp only [Clause.furtherParts, Clause.parts, List.cons_append] at h
    obtain ⟨condition, behind, rfl, rfl, hbehind⟩ := exists_of_saying_clause h
    have hend : AtEnd (Clause.furtherParts more ++ []) :=
      atEnd_furtherParts more (by simp [PastClauses])
    rw [List.append_nil] at hend
    obtain ⟨xs, ys, rfl, hxs, hys⟩ := exists_of_saying_append hbehind (text?_of_atEnd hend)
    exact .cons (blocks_of_saying content hxs) (clauses_of_saying more hys)

theorem otherwise_of_saying : ∀ (otherwise : Option (List Block)) {items : List Item},
    Saying (gather items) (elseParts otherwise) → Otherwise items otherwise
  | none, items, h => by
    rw [eq_nil_of_saying h]
    exact .none
  | some blocks, items, h => by
    obtain ⟨p, xs, rfl, hxs⟩ := exists_of_saying_otherwise h
    exact .some (blocks_of_saying blocks hxs)

theorem blocks_of_saying : ∀ (bs : List Block) {items : List Item},
    Saying (gather items) (parts bs) → Blocks items bs
  | [], items, h => by
    rw [eq_nil_of_saying h]
    exact .nil
  | b :: bs, items, h => by
    obtain ⟨ys, hys, hderives⟩ := block_of_saying b h
    exact hderives bs (blocks_of_saying bs hys)

end

/-- Items derive blocks exactly if their pieces say the parts of the blocks. -/
theorem blocks_iff_saying {bs : List Block} : Blocks items bs ↔ Saying (gather items) (parts bs) :=
  ⟨fun h => h.saying bs, fun h => blocks_of_saying bs h⟩

/-- Pieces are read as the template whose parts they say. -/
theorem readFrom_eq_ok_iff {source : List Char} {t : Template} :
    readFrom source {} pieces = .ok t ↔ Saying pieces (parts t) := by
  constructor
  · intro h
    obtain ⟨us, hus, hparts⟩ := parts_of_readFrom h
    have hnone : parts t = us := hparts
    rwa [hnone]
  · intro h
    have hshaped : Shaped pieces (parts t) := by
      have hshapes := congrArg (List.map fun u => u.map Part.shape) h
      rwa [List.map_map, List.map_map] at hshapes
    obtain ⟨t', hread, hparts⟩ := readFrom_of_shaped hshaped source
    have heq : parts t' = parts t :=
      (List.map_inj_right fun _ _ => Option.some.inj).1 (hparts.symm.trans h)
    rw [hread, parts_inj heq]

/-- A source is read as the template that its items derive. -/
theorem parseLazy_eq_ok_iff {source : String} {t : Template}
    (h : Scans .start source.toList items) : parseLazy source = .ok t ↔ Blocks items t := by
  rw [parseLazy, cut_of_scans h, readFrom_eq_ok_iff, blocks_iff_saying]

end Template

end FlagScript
