import FlagScript.Proofs.Template.Derivation

/-!
# Which templates are accepted

Whether pieces are read depends on their directives alone: text and flags are added to whatever is
being read and leave the open branches as they are (`exists_readFrom_iff`). So a source is accepted
exactly if all that begins like a directive is one and the directives derive branches.
-/

namespace FlagScript

namespace Template

variable {r s r' : Reading} {pieces : List Piece} {p : Position} {d : Directive}

/-! ## Readings with the same open branches -/

/-- Open branches at the same kind of part, both with clauses behind them or both without. -/
structure Frame.Alike (f g : Frame) : Prop where
  part : f.part = .otherwise ↔ g.part = .otherwise
  clauses : f.clauses = [] ↔ g.clauses = []

/-- Readings with open branches of the same kinds, whatever their content. -/
def Reading.Alike (r s : Reading) : Prop := List.Forall₂ Frame.Alike r.frames s.frames

namespace Reading

theorem Alike.refl (r : Reading) : r.Alike r :=
  List.forall₂_same.2 fun _ _ => ⟨Iff.rfl, Iff.rfl⟩

theorem Alike.symm (h : r.Alike s) : s.Alike r :=
  (List.Forall₂.flip h).imp fun _ _ hfg => ⟨hfg.part.symm, hfg.clauses.symm⟩

theorem Alike.nextPart? {next : BranchPart} (h : r.Alike s) (hr : r.nextPart? next = some r') :
    ∃ s', s.nextPart? next = some s' ∧ r'.Alike s' := by
  obtain ⟨frames, blocks⟩ := r
  obtain ⟨frames', blocks'⟩ := s
  cases h with
  | nil => cases hr
  | @cons f g frames frames' hfg hrest =>
    obtain ⟨before, clauses, part⟩ := f
    obtain ⟨before', clauses', part'⟩ := g
    cases part with
    | otherwise => cases hr
    | clause p condition =>
      cases hr
      cases part' with
      | otherwise => cases hfg.part.2 rfl
      | clause p' condition' => exact ⟨_, rfl, .cons ⟨Iff.rfl, by simp⟩ hrest⟩

theorem Alike.close? (h : r.Alike s) (hr : r.close? = some r') :
    ∃ s', s.close? = some s' ∧ r'.Alike s' := by
  obtain ⟨frames, blocks⟩ := r
  obtain ⟨frames', blocks'⟩ := s
  cases h with
  | nil => cases hr
  | @cons f g frames frames' hfg hrest =>
    obtain ⟨before, clauses, part⟩ := f
    obtain ⟨before', clauses', part'⟩ := g
    -- the branch that is closed has its last part either in a clause or in the part for no clause
    cases part with
    | clause p condition =>
      cases part' with
      | otherwise => cases hfg.part.2 rfl
      | clause p' condition' =>
        obtain ⟨b, hb, rfl⟩ := Option.map_eq_some_iff.1 hr
        obtain ⟨b', hb'⟩ := branch?_cons (.mk p' (.raw condition') blocks'.reverse) clauses' none
        exact ⟨⟨frames', b' :: before'⟩, congrArg (Option.map _) hb', hrest⟩
    | otherwise =>
      cases part' with
      | clause p' condition' => cases hfg.part.1 rfl
      | otherwise =>
        obtain ⟨b, hb, rfl⟩ := Option.map_eq_some_iff.1 hr
        have hne : clauses ≠ [] := by
          rintro rfl
          cases hb
        obtain ⟨c, cs, rfl⟩ := List.exists_cons_of_ne_nil (mt hfg.clauses.2 hne)
        obtain ⟨b', hb'⟩ := branch?_cons c cs (some blocks'.reverse)
        exact ⟨⟨frames', b' :: before'⟩, congrArg (Option.map _) hb', hrest⟩

/-- A directive can stand in both of two such readings, and leads to two such readings. -/
theorem Alike.directive? (h : r.Alike s) (hr : r.directive? p d = some r') :
    ∃ s', s.directive? p d = some s' ∧ r'.Alike s' := by
  cases d with
  | openIf condition =>
    cases hr
    exact ⟨_, rfl, .cons ⟨by simp, Iff.rfl⟩ h⟩
  | elseIf condition => exact h.nextPart? hr
  | otherwise => exact h.nextPart? hr
  | endIf => exact h.close? hr

end Reading

def Piece.isDirective : Piece → Bool
  | .directive _ _ => true
  | _ => false

/-- Reading pieces succeeds exactly if reading their directives does, from a reading with the same
open branches. -/
theorem exists_readFrom_iff_of_alike {source : List Char} (h : r.Alike s)
    (hpieces : ∀ p, .malformed p ∉ pieces) :
    (∃ t, readFrom source r pieces = .ok t) ↔
      ∃ t, readFrom source s (pieces.filter Piece.isDirective) = .ok t := by
  induction pieces generalizing r s with
  | nil =>
    have hempty : r.frames.isEmpty = s.frames.isEmpty := by
      rw [Bool.eq_iff_iff, List.isEmpty_iff_length_eq_zero, List.isEmpty_iff_length_eq_zero,
        List.Forall₂.length_eq h]
    rw [List.filter_nil, readFrom, readFrom, hempty]
    cases s.frames.isEmpty <;> simp
  | cons piece pieces ih =>
    have hrest : ∀ p, .malformed p ∉ pieces := fun p hp => hpieces p (List.mem_cons_of_mem _ hp)
    cases piece with
    | text cs => exact ih h hrest
    | flag name => exact ih h hrest
    | malformed p => exact absurd (List.mem_cons_self ..) (hpieces p)
    | directive p d =>
      rw [List.filter_cons_of_pos rfl, readFrom, readFrom]
      -- alike readings take a directive together or refuse it together
      cases hr : r.directive? p d with
      | some r' =>
        obtain ⟨s', hs, halike⟩ := h.directive? hr
        rw [hs]
        exact ih halike hrest
      | none =>
        cases hs : s.directive? p d with
        | none => simp
        | some s' =>
          obtain ⟨r', hr', _⟩ := h.symm.directive? hs
          rw [hr] at hr'
          cases hr'

/-! ## Items and their directives -/

variable {items : List Item} {cs : List Char}

def Item.isDirective : Item → Bool
  | .directive _ _ => true
  | _ => false

theorem filter_addChar (c : Char) (pieces : List Piece) :
    (addChar c pieces).filter Piece.isDirective = pieces.filter Piece.isDirective := by
  unfold addChar
  split <;> rfl

/-- The directives that are gathered are the ones among the items. -/
theorem filter_gather (items : List Item) :
    (gather items).filter Piece.isDirective = gather (items.filter Item.isDirective) := by
  induction items with
  | nil => rfl
  | cons x xs ih =>
    cases x with
    | char c => rw [gather, filter_addChar, ih]; rfl
    | flag name => exact ih
    | malformed p => exact ih
    | directive p d =>
      rw [gather, List.filter_cons_of_pos rfl, List.filter_cons_of_pos rfl, gather, ih]

theorem malformed_mem_gather_iff : .malformed p ∈ gather items ↔ .malformed p ∈ items := by
  induction items with
  | nil => simp [gather]
  | cons x xs ih =>
    cases x with
    | char c =>
      have haddChar : .malformed p ∈ addChar c (gather xs) ↔ .malformed p ∈ gather xs := by
        unfold addChar
        split
        next hxs => rw [hxs]; simp
        next => simp
      rw [gather, haddChar, ih]
      simp
    | flag name => simp [gather, ih]
    | malformed q => simp [gather, ih]
    | directive q d => simp [gather, ih]

theorem not_mem_of_saying {us : List Part} (h : Saying pieces us) : .malformed p ∉ pieces := by
  intro hp
  have hnone : none ∈ us.map some := by
    rw [← h]
    exact List.mem_map.2 ⟨_, hp, rfl⟩
  simp at hnone

/-- Items derive blocks exactly if none of them is malformed and their directives derive blocks. -/
theorem exists_blocks_iff : (∃ bs, Blocks items bs) ↔
    (∀ p, .malformed p ∉ items) ∧ ∃ bs, Blocks (items.filter Item.isDirective) bs := by
  have hread : ∀ items : List Item,
      (∃ bs, Blocks items bs) ↔ ∃ t, readFrom [] {} (gather items) = .ok t := by
    intro items
    refine exists_congr fun bs => ?_
    rw [blocks_iff_saying, readFrom_eq_ok_iff]
  have hclean : (∃ bs, Blocks items bs) → ∀ p, .malformed p ∉ items := by
    rintro ⟨bs, hbs⟩ p hp
    exact not_mem_of_saying (blocks_iff_saying.1 hbs) (malformed_mem_gather_iff.2 hp)
  have hdirectives : (∀ p, .malformed p ∉ items) →
      ((∃ bs, Blocks items bs) ↔ ∃ bs, Blocks (items.filter Item.isDirective) bs) := by
    intro hitems
    have hpieces : ∀ p, .malformed p ∉ gather items := fun p hp =>
      hitems p (malformed_mem_gather_iff.1 hp)
    rw [hread, hread, ← filter_gather]
    exact exists_readFrom_iff_of_alike (.refl _) hpieces
  constructor
  · intro h
    exact ⟨hclean h, (hdirectives (hclean h)).1 h⟩
  · rintro ⟨hitems, h⟩
    exact (hdirectives hitems).2 h

/-- Without `$[[` there are only characters and flags. -/
theorem Scans.prose (h : Scans p cs items) (hcs : ¬['$', '[', '['] <:+: cs) :
    ∀ x ∈ items, (∃ c, x = .char c) ∨ ∃ name, x = .flag name := by
  -- whatever stands behind something has no such brackets either
  have hbehind : ∀ (front : List Char) {rest cs : List Char}, cs = front ++ rest →
      ¬['$', '[', '['] <:+: cs → ¬['$', '[', '['] <:+: rest := by
    rintro front rest cs rfl hcs hrest
    exact hcs (hrest.trans (List.suffix_append front rest).isInfix)
  have hnever : ∀ {cs : List Char}, ¬¬['$', '[', '['] <:+: '$' :: '[' :: '[' :: cs := fun h =>
    h (List.prefix_append ['$', '[', '['] _).isInfix
  induction h with
  | nil => simp
  | @escape p c cs xs _ ih =>
    exact List.forall_mem_cons.2 ⟨.inl ⟨c, rfl⟩, ih (hbehind ['\\', c] rfl hcs)⟩
  | backslash => exact List.forall_mem_singleton.2 (.inl ⟨_, rfl⟩)
  | @flag p name rest cs xs heq _ _ _ _ ih =>
    have hrest : '$' :: cs = '$' :: name ++ rest := by rw [heq, List.cons_append]
    exact List.forall_mem_cons.2 ⟨.inr ⟨name, rfl⟩, ih (hbehind _ hrest hcs)⟩
  | directive => exact absurd hcs hnever
  | malformed => exact absurd hcs hnever
  | @char p c cs xs _ _ _ ih =>
    exact List.forall_mem_cons.2 ⟨.inl ⟨c, rfl⟩, ih (hbehind [c] rfl hcs)⟩

/-- Every source can be scanned; it is accepted exactly if nothing in it is malformed and its
directives derive branches, and it is then read as what its items derive. Without `$[[` it is always
accepted. -/
theorem parseLazy_ok_iff_derives (source : String) :
    (∃ items, Scans .start source.toList items) ∧
    (∀ items, Scans .start source.toList items →
      ((∃ t, parseLazy source = .ok t) ↔
        (∀ p, .malformed p ∉ items) ∧ ∃ branches, Blocks (items.filter Item.isDirective) branches) ∧
      ∀ t, parseLazy source = .ok t ↔ Blocks items t) ∧
    (¬['$', '[', '['] <:+: source.toList → ∃ t, parseLazy source = .ok t) := by
  have hderives : ∀ items, Scans .start source.toList items →
      ((∃ t, parseLazy source = .ok t) ↔
        (∀ p, .malformed p ∉ items) ∧ ∃ branches, Blocks (items.filter Item.isDirective) branches) :=
    fun items h => (exists_congr fun t => parseLazy_eq_ok_iff h).trans exists_blocks_iff
  obtain ⟨items, hscans⟩ := exists_scans .start source.toList
  refine ⟨⟨items, hscans⟩, fun items h => ⟨hderives items h, fun t => parseLazy_eq_ok_iff h⟩, ?_⟩
  intro hprose
  -- without directives no branch opens, and nothing can be malformed
  have hitems := hscans.prose hprose
  have hnone : items.filter Item.isDirective = [] := by
    rw [List.filter_eq_nil_iff]
    intro x hx
    rcases hitems x hx with ⟨c, rfl⟩ | ⟨name, rfl⟩ <;> simp [Item.isDirective]
  refine (hderives items hscans).2 ⟨?_, [], by rw [hnone]; exact .nil⟩
  intro p hp
  rcases hitems _ hp with ⟨c, hc⟩ | ⟨name, hname⟩
  · cases hc
  · cases hname

/-- A branch in mixed case around a flag, and one that is never closed. -/
theorem parseLazy_ok_iff_derives_branch :
    parseLazy "$[[if]]$x$[[ENDIF]]" = .ok [.branch (.mk .start (.raw "") [.flag "X"]) [] none] ∧
      ∀ t, parseLazy "$[[if]]" ≠ .ok t := by
  have hnothing : IsGap [] := by simp [IsGap]
  have hempty : ConditionText [] := ⟨by simp, by simp, by simp⟩
  have hword : Writes ['I', 'F'] ['i', 'f'] := by rw [Writes]; decide
  have hif : (Directive.openIf "").Written ['i', 'f', ']', ']'] :=
    ⟨[], ['i', 'f', ']', ']'], hnothing, .openIf hword hempty, rfl⟩
  have hendWord : Writes ['E', 'N', 'D', 'I', 'F'] ['E', 'N', 'D', 'I', 'F'] := by
    rw [Writes]; decide
  have hendIf : Directive.endIf.Written ['E', 'N', 'D', 'I', 'F', ']', ']'] :=
    ⟨[], _, hnothing, .endIf hendWord hnothing, rfl⟩
  constructor
  · have hscans : Scans .start "$[[if]]$x$[[ENDIF]]".toList _ :=
      .directive rfl hif (.flag rfl (List.cons_ne_nil 'x' []) (List.all_eq_true.1 rfl)
        (by rintro c ⟨⟩; decide) (.directive rfl hendIf .nil))
    have hupper : Text.upper (String.ofList ['x']) = "X" := by decide
    rw [← hupper]
    refine (((parseLazy_ok_iff_derives _).2.1 _ hscans).2 _).2 ?_
    exact .branch (.mk (.flag .nil) .nil .none) .nil
  · intro t ht
    have hscans : Scans .start "$[[if]]".toList [.directive .start (.openIf "")] :=
      .directive rfl hif .nil
    obtain ⟨_, branches, hbranches⟩ :=
      ((parseLazy_ok_iff_derives "$[[if]]").2.1 _ hscans).1.1 ⟨t, ht⟩
    have hread : readFrom [] {} [.directive .start (.openIf "")] = .ok branches :=
      readFrom_eq_ok_iff.2 (blocks_iff_saying.1 hbranches)
    cases hread

end Template

end FlagScript
