import FlagScript.Proofs.Template.Conditions
import FlagScript.Proofs.Template.Parts
import Mathlib.Data.List.Forall2

/-!
# Templates by their pieces

Conditions are read in the order of the parts (`map_prepareBlocks`). So a source is read as a
template exactly if its pieces are read one by one as the parts of the template, as far as the
places of directives do not matter (`parse_unplaced_iff`).
-/

namespace FlagScript

/-! ## Reading conditions part by part -/

/-- Reads the condition of a part that has one. -/
def Part.prepare : Part → Except Error Part
  | clause opens p c => (clause opens p ·) <$> Clause.prepare p c
  | x => pure x

namespace Template

mutual

theorem map_prepareBlock : ∀ b : Block,
    Block.parts <$> prepareBlock b = b.parts.mapM Part.prepare
  | .text _ => rfl
  | .flag _ => rfl
  | .branch first more none => by
    have hfirst := map_prepareClause true first
    have hmore := map_prepareClauses more
    simp [prepareBlock, Block.parts, elseParts, List.mapM_append, ← hfirst, ← hmore, Part.prepare]
  | .branch first more (some blocks) => by
    have hfirst := map_prepareClause true first
    have hmore := map_prepareClauses more
    have hblocks := map_prepareBlocks blocks
    simp [prepareBlock, Block.parts, elseParts, List.mapM_append, ← hfirst, ← hmore, ← hblocks,
      Part.prepare]

theorem map_prepareClause : ∀ (opens : Bool) (c : Clause),
    Clause.parts opens <$> prepareClause c = (c.parts opens).mapM Part.prepare
  | opens, .mk p condition content => by
    have hcontent := map_prepareBlocks content
    simp [prepareClause, Clause.parts, ← hcontent, Part.prepare]

theorem map_prepareClauses : ∀ cs : List Clause,
    Clause.furtherParts <$> prepareClauses cs = (Clause.furtherParts cs).mapM Part.prepare
  | [] => rfl
  | c :: cs => by
    have hc := map_prepareClause false c
    have hcs := map_prepareClauses cs
    simp [prepareClauses, Clause.furtherParts, List.mapM_append, ← hc, ← hcs]

theorem map_prepareBlocks : ∀ bs : List Block,
    parts <$> prepareBlocks bs = (parts bs).mapM Part.prepare
  | [] => rfl
  | b :: bs => by
    have hb := map_prepareBlock b
    have hbs := map_prepareBlocks bs
    simp [prepareBlocks, parts, List.mapM_append, ← hb, ← hbs]

end

theorem mapM_eq_ok_iff {α β : Type} {f : α → Except Error β} {xs : List α} {ys : List β} :
    xs.mapM f = .ok ys ↔ List.Forall₂ (fun x y => f x = .ok y) xs ys := by
  induction xs generalizing ys with
  | nil =>
    rw [List.mapM_nil, List.forall₂_nil_left_iff]
    simp [pure, Except.pure, eq_comm]
  | cons x xs ih =>
    rw [List.mapM_cons, bind_eq_ok_iff, List.forall₂_cons_left_iff]
    simp only [bind_eq_ok_iff, ih, pure, Except.pure, Except.ok.injEq]
    constructor
    · rintro ⟨y, hy, ys, hys, rfl⟩
      exact ⟨y, ys, hy, hys, rfl⟩
    · rintro ⟨y, ys, hy, hys, rfl⟩
      exact ⟨y, hy, ys, hys, rfl⟩

/-- The conditions of a template are read if those of its parts are, and become theirs. -/
theorem prepareBlocks_eq_ok_iff {bs : List Block} {ys : List Part} :
    (∃ bs', prepareBlocks bs = .ok bs' ∧ parts bs' = ys) ↔
      List.Forall₂ (fun x y => x.prepare = .ok y) (parts bs) ys := by
  rw [← mapM_eq_ok_iff, ← map_prepareBlocks]
  cases prepareBlocks bs with
  | error e => simp
  | ok bs' => simp

end Template

theorem Clause.prepare_raw_eq_ok_iff {p : Position} {source : String} {c : Condition} :
    Clause.prepare p (.raw source) = .ok c ↔
      ∃ script, Script.parseCondition source = .ok script ∧ Expr.firstEffectOf script = none ∧
        c = .parsed script := by
  rw [prepare, readCondition]
  cases Script.parseCondition source with
  | error e => simp [Except.map]
  | ok script =>
    cases heffect : Expr.firstEffectOf script with
    | some e => simp [Except.map, heffect]
    | none => simp [Except.map, heffect, eq_comm]

namespace Part

variable {x y : Part}

theorem prepare_clause_eq_ok_iff {opens : Bool} {p : Position} {c : Condition} :
    (clause opens p c).prepare = .ok y ↔
      ∃ c', Clause.prepare p c = .ok c' ∧ y = clause opens p c' := by
  rw [prepare]
  cases Clause.prepare p c <;> simp [eq_comm]

/-- Only the condition of a part is read. -/
theorem prepare_eq_ok (h : x.prepare = .ok y) :
    x = y ∨ ∃ opens p c c', x = clause opens p c ∧ y = clause opens p c' := by
  cases x with
  | clause opens p c =>
    obtain ⟨c', _, rfl⟩ := prepare_clause_eq_ok_iff.1 h
    exact .inr ⟨opens, p, c, c', rfl, rfl⟩
  | text t => cases h; exact .inl rfl
  | flag name => cases h; exact .inl rfl
  | otherwise => cases h; exact .inl rfl
  | endIf => cases h; exact .inl rfl

theorem shape_of_prepare (h : x.prepare = .ok y) : y.shape = x.shape := by
  obtain rfl | ⟨opens, p, c, c', rfl, rfl⟩ := prepare_eq_ok h <;> rfl

theorem shape_mapHead (f : Head → Head) (x : Part) : (x.mapHead f).shape = x.shape := by
  cases x <;> rfl

end Part

/-! ## Pieces that are read as parts -/

namespace Template

/-- The piece is read as the part, which says nothing of the place of a directive. -/
def Piece.ReadsAs (piece : Piece) (y : Part) : Prop :=
  ∃ x z, piece.part? = some x ∧ x.prepare = .ok z ∧
    z.mapHead Head.unplaced = y.mapHead Head.unplaced

theorem readsAs_text (cs : List Char) : (Piece.text cs).ReadsAs (.text (.ofText cs)) :=
  ⟨_, _, rfl, rfl, rfl⟩

theorem readsAs_flag_iff {name name' : String} :
    (Piece.flag name).ReadsAs (.flag name') ↔ name = name' := by
  constructor
  · rintro ⟨x, z, ⟨⟩, ⟨⟩, hsame⟩
    exact Part.flag.inj hsame
  · rintro rfl
    exact ⟨_, _, rfl, rfl, rfl⟩

/-- The directive of a clause with a condition that is still to be read. -/
def clauseDirective (opens : Bool) (condition : String) : Directive :=
  if opens then .openIf condition else .elseIf condition

theorem readsAs_clause_iff {opens : Bool} {p q : Position} {condition : String} {script : Script} :
    (Piece.directive p (clauseDirective opens condition)).ReadsAs
        (.clause opens q (.parsed script)) ↔
      Script.parseCondition condition = .ok script ∧ Expr.firstEffectOf script = none := by
  have hpart : (Piece.directive p (clauseDirective opens condition)).part? =
      some (.clause opens p (.raw condition)) := by
    cases opens <;> rfl
  constructor
  · rintro ⟨x, z, hx, hz, hsame⟩
    obtain rfl : x = _ := Option.some.inj (hx.symm.trans hpart)
    obtain ⟨c, hc, rfl⟩ := Part.prepare_clause_eq_ok_iff.1 hz
    obtain ⟨script', hread, hharmless, rfl⟩ := Clause.prepare_raw_eq_ok_iff.1 hc
    cases hsame
    exact ⟨hread, hharmless⟩
  · rintro ⟨hread, hharmless⟩
    have hcondition : Clause.prepare p (.raw condition) = .ok (.parsed script) :=
      Clause.prepare_raw_eq_ok_iff.2 ⟨script, hread, hharmless, rfl⟩
    exact ⟨_, _, hpart, Part.prepare_clause_eq_ok_iff.2 ⟨_, hcondition, rfl⟩, rfl⟩

theorem forall₂_readsAs_iff {pieces : List Piece} {ys : List Part} :
    List.Forall₂ Piece.ReadsAs pieces ys ↔ ∃ xs zs, pieces.map Piece.part? = xs.map some ∧
      List.Forall₂ (fun x z => x.prepare = .ok z) xs zs ∧
      zs.map (Part.mapHead Head.unplaced) = ys.map (Part.mapHead Head.unplaced) := by
  constructor
  · intro h
    induction h with
    | nil => exact ⟨[], [], rfl, .nil, rfl⟩
    | @cons piece y pieces ys hread _ ih =>
      obtain ⟨x, z, hx, hz, hy⟩ := hread
      obtain ⟨xs, zs, hxs, hzs, hys⟩ := ih
      exact ⟨x :: xs, z :: zs, by rw [List.map_cons, List.map_cons, hx, hxs], .cons hz hzs,
        by rw [List.map_cons, List.map_cons, hy, hys]⟩
  · rintro ⟨xs, zs, hxs, hzs, hys⟩
    induction hzs generalizing pieces ys with
    | nil =>
      obtain rfl : pieces = [] := List.map_eq_nil_iff.1 hxs
      obtain rfl : ys = [] := List.map_eq_nil_iff.1 hys.symm
      exact .nil
    | @cons x z xs zs hz _ ih =>
      obtain ⟨piece, pieces, rfl, hx, hxs⟩ := List.map_eq_cons_iff.1 hxs
      obtain ⟨y, ys, rfl, hy, hys⟩ := List.map_eq_cons_iff.1 hys.symm
      exact .cons ⟨x, z, hx, hz, hy.symm⟩ (ih hxs hys.symm)

theorem shaped_of_readsAs {pieces : List Piece} {ys : List Part}
    (h : List.Forall₂ Piece.ReadsAs pieces ys) : Shaped pieces ys := by
  induction h with
  | nil => rfl
  | @cons piece y pieces ys hread _ ih =>
    obtain ⟨x, z, hx, hz, hy⟩ := hread
    have hshape : x.shape = y.shape := by
      rw [← Part.shape_of_prepare hz, ← Part.shape_mapHead Head.unplaced, hy, Part.shape_mapHead]
    rw [Shaped, List.map_cons, List.map_cons, hx, Option.map_some, hshape, ih]

/-- A source is read as a template, apart from the places of directives, exactly if each of its
pieces is read as the part that stands in its place. -/
theorem parse_unplaced_iff {source : String} {t : Template} :
    (∃ t', parse source = .ok t' ∧ t'.unplaced = t.unplaced) ↔
      List.Forall₂ Piece.ReadsAs (cut source.toList) (parts t) := by
  rw [forall₂_readsAs_iff]
  constructor
  · rintro ⟨t', h, hsame⟩
    obtain ⟨raw, hraw, hprepare⟩ := bind_eq_ok_iff.1 h
    obtain ⟨xs, hxs, hparts⟩ := parts_of_readFrom hraw
    have hprepared := prepareBlocks_eq_ok_iff.1 ⟨t', hprepare, rfl⟩
    have hheads := congrArg parts hsame
    rw [unplaced, unplaced, parts_mapHeads, parts_mapHeads] at hheads
    have hnone : parts raw = xs := hparts
    rw [hnone] at hprepared
    exact ⟨xs, parts t', hxs, hprepared, hheads⟩
  · intro h
    -- pieces with the shape of a template are read as one, whose conditions are read part by part
    have hshaped := shaped_of_readsAs (forall₂_readsAs_iff.2 h)
    obtain ⟨xs, zs, hxs, hzs, hheads⟩ := h
    obtain ⟨raw, hraw, hparts⟩ := readFrom_of_shaped hshaped source.toList
    obtain rfl : parts raw = xs := by
      rw [hparts] at hxs
      exact (List.map_inj_right fun _ _ => Option.some.inj).1 hxs
    obtain ⟨t', hprepare, rfl⟩ := prepareBlocks_eq_ok_iff.2 hzs
    refine ⟨t', ?_, ?_⟩
    · rw [parse, parseLazy, hraw]
      exact hprepare
    · rw [← parts_mapHeads, ← parts_mapHeads] at hheads
      exact parts_inj hheads

end Template

end FlagScript
