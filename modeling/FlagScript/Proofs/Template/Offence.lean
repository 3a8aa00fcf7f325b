import FlagScript.Proofs.Run.Effects
import FlagScript.Proofs.Template.Pieces

/-!
# The first condition that is refused

A template asks what the directives of its clauses ask, from left to right (`Template.questions`):
each clause of a branch asks before its content does, and what stands behind ELSE asks last
(`Template.questions_branch`). Reading the conditions in advance checks these questions one by one
(`map_prepareBlocks_eq_forM`), so it fails with what is wrong with the first of them that cannot be
asked, wherever it stands (`Template.parse_first_offence`).
-/

namespace FlagScript

/-- What the directive of a clause asks, and whether it is the one that opens a branch. -/
structure Question where
  opens : Bool
  position : Position
  condition : Condition

def Part.question? : Part → Option Question
  | .clause opens p c => some ⟨opens, p, c⟩
  | _ => none

/-- What a template asks, at every depth, in the order of the source. -/
def Template.questions (t : Template) : List Question := (parts t).filterMap Part.question?

/-- What a clause asks, and then what its content asks. -/
def Clause.questions (opens : Bool) : Clause → List Question
  | .mk p c content => ⟨opens, p, c⟩ :: Template.questions content

theorem Clause.filterMap_parts (opens : Bool) (c : Clause) :
    (c.parts opens).filterMap Part.question? = c.questions opens := by
  obtain ⟨p, condition, content⟩ := c
  rfl

/-- A branch asks what its clauses ask, each with its content, and then what its ELSE asks. -/
theorem Template.questions_branch (first : Clause) (more : List Clause)
    (otherwise : Option (List Block)) (bs : List Block) :
    questions (.branch first more otherwise :: bs) = first.questions true ++
      (more.flatMap (Clause.questions false) ++ (otherwise.elim [] questions ++ questions bs)) := by
  have hmore : (Clause.furtherParts more).filterMap Part.question? =
      more.flatMap (Clause.questions false) := by
    induction more with
    | nil => rfl
    | cons c cs ih =>
      rw [Clause.furtherParts, List.filterMap_append, Clause.filterMap_parts, ih, List.flatMap_cons]
  have hotherwise : (elseParts otherwise ++ [Part.endIf]).filterMap Part.question? =
      otherwise.elim [] questions := by
    -- the directives ELSE and ENDIF ask nothing
    cases otherwise with
    | none => rfl
    | some blocks =>
      rw [elseParts, List.cons_append, List.filterMap_cons_none rfl, List.filterMap_append]
      exact List.append_nil _
  rw [questions, parts, Block.parts, List.filterMap_append, List.filterMap_append,
    List.filterMap_append, Clause.filterMap_parts, hmore, hotherwise, ← questions]
  simp only [List.append_assoc]

namespace Question

/-- The condition is blank, or it is read and nothing in it changes anything. -/
inductive Passes : Question → Prop where
  | blank {opens : Bool} {p : Position} {source : String} (h : Text.trim source.toList = []) :
      Passes ⟨opens, p, .raw source⟩
  | harmless {opens : Bool} {p : Position} {source : String} {script : Script}
      (h : Script.parse source = .ok script) (hnone : ∀ e ∈ script.nodes, ¬e.Changes) :
      Passes ⟨opens, p, .raw source⟩

/-- What is wrong with a condition that is not blank: it cannot be read, or something in it changes
something. -/
inductive Offends : Question → Error → Prop where
  | unreadable {opens : Bool} {p : Position} {source : String} {e : Error}
      (hne : Text.trim source.toList ≠ []) (h : Script.parse source = .error e) :
      Offends ⟨opens, p, .raw source⟩ (.condition p e)
  | changes {opens : Bool} {p : Position} {source : String} {script : Script} {e : Expr}
      (hne : Text.trim source.toList ≠ []) (h : Script.parse source = .ok script)
      (he : script.nodes.find? (·.Changes) = some e) :
      Offends ⟨opens, p, .raw source⟩ (.changes p (Clause.effectText e))

/-- Reads the condition, only to see whether it can be read. -/
def check (q : Question) : Except Error Unit :=
  (fun _ => ()) <$> Clause.prepare q.position q.condition

variable {q : Question} {opens : Bool} {p : Position} {source : String} {e : Error}

theorem check_of_blank (h : Text.trim source.toList = []) :
    check ⟨opens, p, .raw source⟩ = .ok () := by
  simp [check, Clause.prepare, Clause.readCondition, Script.parseCondition, h,
    Expr.firstEffectOf, Except.map]

theorem check_of_not_blank (h : Text.trim source.toList ≠ []) :
    check ⟨opens, p, .raw source⟩ =
      match Script.parse source with
      | .error e => .error (.condition p e)
      | .ok script =>
        match script.nodes.find? (·.Changes) with
        | some e => .error (.changes p (Clause.effectText e))
        | none => .ok () := by
  -- what the search for effects finds is the first expression that changes something
  simp only [check, Clause.prepare, Clause.readCondition, Script.parseCondition,
    List.isEmpty_iff, h, if_false, Expr.firstEffectOf_eq_find?, Script.nodes]
  cases Script.parse source with
  | error e => rfl
  | ok script =>
    dsimp only
    cases (Expr.nodesOf script).find? (·.Changes) <;> rfl

theorem check_eq_ok_iff (hraw : q.condition = .raw source) : q.check = .ok () ↔ q.Passes := by
  obtain ⟨opens, p, c⟩ := q
  obtain rfl : c = .raw source := hraw
  by_cases hblank : Text.trim source.toList = []
  · exact iff_of_true (check_of_blank hblank) (.blank hblank)
  rw [check_of_not_blank hblank]
  constructor
  · intro h
    split at h
    next => cases h
    next script hscript =>
      split at h
      next => cases h
      next hnone => exact .harmless hscript (by simpa using hnone)
  · intro h
    cases h with
    | blank h => exact absurd h hblank
    | @harmless _ _ _ script h hnone =>
      have hfind : script.nodes.find? (·.Changes) = none :=
        List.find?_eq_none.2 fun e he => by simpa using hnone e he
      simp only [h, hfind]

theorem check_eq_error_iff (hraw : q.condition = .raw source) :
    q.check = .error e ↔ q.Offends e := by
  obtain ⟨opens, p, c⟩ := q
  obtain rfl : c = .raw source := hraw
  by_cases hblank : Text.trim source.toList = []
  · -- a blank condition passes, and nothing is ever wrong with one
    rw [check_of_blank hblank]
    refine iff_of_false (fun h => nomatch h) fun h => ?_
    obtain ⟨hne, _⟩ | ⟨hne, _, _⟩ := h <;> exact hne hblank
  rw [check_of_not_blank hblank]
  constructor
  · intro h
    split at h
    next e hparse =>
      cases h
      exact .unreadable hblank hparse
    next script hparse =>
      split at h
      next e he =>
        cases h
        exact .changes hblank hparse he
      next => cases h
  · intro h
    obtain ⟨_, hparse⟩ | ⟨_, hparse, he⟩ := h
    · simp only [hparse]
    · simp only [hparse, he]

end Question

namespace Template

/-! ## All questions -/

/-- Parts are read as their questions are checked. -/
theorem map_mapM_prepare (xs : List Part) :
    (fun _ => ()) <$> xs.mapM Part.prepare = forM (xs.filterMap Part.question?) Question.check := by
  induction xs with
  | nil => rfl
  | cons x xs ih =>
    cases x with
    | clause opens p c =>
      have hcons : List.filterMap Part.question? (.clause opens p c :: xs) =
          ⟨opens, p, c⟩ :: xs.filterMap Part.question? := rfl
      rw [hcons, List.mapM_cons, List.forM_cons, ← ih]
      simp [Part.prepare, Question.check]
    | text | flag | otherwise | endIf =>
      rw [List.mapM_cons, List.filterMap_cons_none rfl, ← ih]
      simp [Part.prepare]

/-- Reading the conditions of a template in advance checks its questions one by one. -/
theorem map_prepareBlocks_eq_forM (t : Template) :
    (fun _ => ()) <$> prepareBlocks t = forM (questions t) Question.check := by
  rw [questions, ← map_mapM_prepare, ← map_prepareBlocks, Functor.map_map]

theorem prepareBlocks_eq_ok_iff_forM {t : Template} :
    (∃ t', prepareBlocks t = .ok t') ↔ forM (questions t) Question.check = .ok () := by
  rw [← map_prepareBlocks_eq_forM]
  cases prepareBlocks t <;> simp

theorem prepareBlocks_eq_error_iff_forM {t : Template} {e : Error} :
    prepareBlocks t = .error e ↔ forM (questions t) Question.check = .error e := by
  rw [← map_prepareBlocks_eq_forM]
  cases prepareBlocks t <;> simp

theorem forM_eq_ok_iff {α : Type} {f : α → Except Error Unit} {xs : List α} :
    forM xs f = .ok () ↔ ∀ x ∈ xs, f x = .ok () := by
  induction xs with
  | nil => simp [pure, Except.pure]
  | cons x xs ih =>
    have hunit : (∃ u, f x = .ok u) ↔ f x = .ok () := ⟨fun ⟨(), h⟩ => h, fun h => ⟨(), h⟩⟩
    simp [bind_eq_ok_iff, ih, hunit]

/-- Going through a list ends at the first element that fails. -/
theorem forM_eq_error_iff {α : Type} {f : α → Except Error Unit} {xs : List α} {e : Error} :
    forM xs f = .error e ↔ ∃ front x behind, xs = front ++ x :: behind ∧
      (∀ y ∈ front, f y = .ok ()) ∧ f x = .error e := by
  induction xs with
  | nil => simp [pure, Except.pure]
  | cons x xs ih =>
    rw [List.forM_cons, bind_eq_error_iff, ih]
    constructor
    · rintro (h | ⟨⟨⟩, hx, front, y, behind, rfl, hfront, hy⟩)
      · exact ⟨[], x, xs, rfl, by simp, h⟩
      · exact ⟨x :: front, y, behind, rfl, List.forall_mem_cons.2 ⟨hx, hfront⟩, hy⟩
    · rintro ⟨front, y, behind, heq, hfront, hy⟩
      rcases List.cons_eq_append_iff.1 heq with ⟨rfl, hcons⟩ | ⟨front, rfl, rfl⟩
      · cases hcons
        exact .inl hy
      · obtain ⟨hx, hfront⟩ := List.forall_mem_cons.1 hfront
        exact .inr ⟨(), hx, front, y, behind, rfl, hfront, hy⟩

/-- No condition of a source was read before it is prepared. -/
theorem raw_of_parseLazy {source : String} {t : Template} (h : parseLazy source = .ok t) :
    ∀ q ∈ questions t, ∃ condition, q.condition = .raw condition := by
  intro q hq
  obtain ⟨xs, hxs, hparts⟩ := parts_of_readFrom h
  obtain rfl : parts t = xs := hparts
  obtain ⟨x, hx, hquestion⟩ := List.mem_filterMap.1 hq
  have hsaid : some x ∈ (cut source.toList).map Piece.part? := by
    rw [hxs]
    exact List.mem_map_of_mem hx
  obtain ⟨piece, -, hpiece⟩ := List.mem_map.1 hsaid
  cases piece with
  | text cs => cases hpiece; cases hquestion
  | flag name => cases hpiece; cases hquestion
  | malformed p => cases hpiece
  | directive p d =>
    cases d <;> cases hpiece <;> cases hquestion <;> exact ⟨_, rfl⟩

/-- A source that is read as a template without its conditions is read with them exactly if all of
them, at every depth, are blank or are read and change nothing. Otherwise the answer is what is
wrong with the first of them in the source, and holds the place of its directive. -/
theorem parse_first_offence {source : String} {t : Template} (h : parseLazy source = .ok t) :
    ((∃ t', parse source = .ok t') ↔ ∀ q ∈ questions t, q.Passes) ∧
    ∀ e, parse source = .error e ↔ ∃ front q behind, questions t = front ++ q :: behind ∧
      (∀ r ∈ front, r.Passes) ∧ q.Offends e := by
  have hprepare : parse source = prepareBlocks t := by rw [parse, h]; rfl
  -- a check answers for every condition that is still to be read
  have hok : ∀ q ∈ questions t, (q.check = .ok () ↔ q.Passes) := fun q hq =>
    Question.check_eq_ok_iff (raw_of_parseLazy h q hq).choose_spec
  have herror : ∀ q ∈ questions t, ∀ e, (q.check = .error e ↔ q.Offends e) := fun q hq e =>
    Question.check_eq_error_iff (raw_of_parseLazy h q hq).choose_spec
  rw [hprepare]
  constructor
  · rw [prepareBlocks_eq_ok_iff_forM, forM_eq_ok_iff]
    exact forall₂_congr hok
  · intro e
    rw [prepareBlocks_eq_error_iff_forM, forM_eq_error_iff]
    refine exists_congr fun front => exists_congr fun q => exists_congr fun behind => ?_
    refine and_congr_right fun heq => ?_
    -- the questions of the front and the one behind it are questions of the template
    rw [heq] at hok herror
    exact and_congr (forall₂_congr fun r hr => hok r (List.mem_append_left _ hr))
      (herror q (by simp) e)

/-- Behind a blank condition one that assigns, in the content of a branch whose further clause
cannot be read. -/
theorem parse_first_offence_nested :
    ∃ t, parseLazy "$[[IF]]\n$[[if $A = 1]]$[[ENDIF]]$[[ELIF $B(]]$[[ENDIF]]" = .ok t ∧
      parse "$[[IF]]\n$[[if $A = 1]]$[[ENDIF]]$[[ELIF $B(]]$[[ENDIF]]" =
        .error (.changes ⟨2, 1⟩ "assigning to $A") ∧
      ∃ front q behind, questions t = front ++ q :: behind ∧ (∀ r ∈ front, r.Passes) ∧
        q.Offends (.changes ⟨2, 1⟩ "assigning to $A") := by
  obtain ⟨t, h, herror⟩ : ∃ t,
      parseLazy "$[[IF]]\n$[[if $A = 1]]$[[ENDIF]]$[[ELIF $B(]]$[[ENDIF]]" = .ok t ∧
        forM (questions t) Question.check = .error (.changes ⟨2, 1⟩ "assigning to $A") := by
    decide +kernel
  have hparse : parse "$[[IF]]\n$[[if $A = 1]]$[[ENDIF]]$[[ELIF $B(]]$[[ENDIF]]" =
      .error (.changes ⟨2, 1⟩ "assigning to $A") := by
    rw [parse, h]
    exact prepareBlocks_eq_error_iff_forM.2 herror
  exact ⟨t, h, hparse, ((parse_first_offence h).2 _).1 hparse⟩

end Template

end FlagScript
