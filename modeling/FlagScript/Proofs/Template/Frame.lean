import FlagScript.Proofs.Run.Asking
import FlagScript.Proofs.Template.Conditions
import FlagScript.Template.Expand

/-!
# What expanding a template changes

Nothing but the value of the last statement run. Conditions are checked for effects before they run,
in advance or when they are reached; and if all were checked in advance, expanding cannot fail.
-/

namespace FlagScript

namespace Template

variable {W : Type} {α β : Type} {ready : Bool} {s s' : Interpreter W}

/-! ## Answers of an expansion -/

/-- What an expansion answers: it changes the last value only, and does not fail if all conditions
are ready. -/
structure Expands (ready : Bool) (s : Interpreter W) (r : Except Error α × Interpreter W) :
    Prop where
  frame : r.2 = { s with last := r.2.last }
  total : ready = true → ∃ a, r.1 = .ok a

namespace Expands

theorem ok (a : α) : Expands ready s (.ok a, s) := ⟨rfl, fun _ => ⟨a, rfl⟩⟩

/-- An expansion goes on where another one ended. -/
theorem next {x : Except Error α} {r : Except Error β × Interpreter W}
    (h : Expands ready s (x, s')) (hr : Expands ready s' r) : Expands ready s r := by
  refine ⟨?_, hr.total⟩
  have hs' : s' = { s with last := s'.last } := h.frame
  have hframe := hr.frame
  rw [hs'] at hframe
  exact hframe

theorem done {x : Except Error α} (h : Expands ready s (x, s')) (b : β) :
    Expands ready s (.ok b, s') := h.next (.ok b)

theorem error {e e' : Error} (h : Expands ready s ((.error e : Except Error α), s')) :
    Expands ready s ((.error e' : Except Error β), s') := by
  refine ⟨h.frame, fun hready => ?_⟩
  obtain ⟨a, ha⟩ := h.total hready
  cases ha

end Expands

/-! ## Expanding step by step -/

variable [World W]

theorem expandBlock_branch (s : Interpreter W) (first : Clause) (more : List Clause)
    (otherwise : Option (List Block)) :
    expandBlock s (.branch first more otherwise) =
      match expandClause s first with
      | (.ok none, s) =>
        match expandClauses s more with
        | (.ok none, s) =>
          match otherwise with
          | none => (.ok [], s)
          | some blocks => expandFrom s none [] blocks
        | (.ok (some out), s) => (.ok out, s)
        | (.error e, s) => (.error e, s)
      | (.ok (some out), s) => (.ok out, s)
      | (.error e, s) => (.error e, s) := by
  cases otherwise <;> rfl

theorem expandClause_mk (s : Interpreter W) (p : Position) (condition : Condition)
    (content : List Block) :
    expandClause s (.mk p condition content) =
      match holds s p condition with
      | (.error e, s) => (.error e, s)
      | (.ok false, s) => (.ok none, s)
      | (.ok true, s) =>
        match expandFrom s none [] content with
        | (.error e, s) => (.error e, s)
        | (.ok out, s) => (.ok (some out), s) := rfl

theorem expandClauses_cons (s : Interpreter W) (c : Clause) (cs : List Clause) :
    expandClauses s (c :: cs) =
      match expandClause s c with
      | (.ok none, s) => expandClauses s cs
      | answer => answer := rfl

theorem expandFrom_cons (s : Interpreter W) (previous : Option Block) (out : List Char)
    (b : Block) (bs : List Block) :
    expandFrom s previous out (b :: bs) =
      match expandBlock s b with
      | (.error e, s) => (.error e, s)
      | (.ok shown, s) =>
        let isGap := match b with
          | .branch _ _ _ => shown.isEmpty
          | _ => false
        let out := if isGap then closeGap previous bs.head? out else out
        expandFrom s (some b) (shown ++ out) bs := rfl

theorem holds_expands (s : Interpreter W) (p : Position) {c : Condition}
    (hc : c.Harmless ready) : Expands ready s (holds s p c) := by
  cases c with
  | parsed script => exact ⟨s.exec_of_no_effect hc, fun _ => ⟨_, rfl⟩⟩
  | raw source =>
    -- only here can an expansion fail, and then conditions were left to be read
    have hraw : ready = false := hc
    subst hraw
    rw [holds]
    split
    next => exact ⟨rfl, by simp⟩
    next script hread => exact ⟨s.exec_of_no_effect (readCondition_harmless hread), by simp⟩

mutual

theorem expandBlock_expands : ∀ (s : Interpreter W) (b : Block),
    b.Harmless ready → Expands ready s (expandBlock s b)
  | s, .text t, _ => .ok _
  | s, .flag name, _ => .ok _
  | s, .branch first more otherwise, hb => by
    obtain ⟨hfirst, hmore, hotherwise⟩ := Block.harmless_branch_iff.1 hb
    have h₁ := expandClause_expands s first hfirst
    -- the first clause shows, one of the others shows, or what stands behind ELSE
    rw [expandBlock_branch]
    split
    next s₁ heq =>
      rw [heq] at h₁
      have h₂ := h₁.next (expandClauses_expands s₁ more hmore)
      split
      next s₂ heq =>
        rw [heq] at h₂
        match otherwise, hotherwise with
        | none, _ => exact h₂.done _
        | some blocks, hblocks =>
          exact h₂.next (expandFrom_expands s₂ none [] blocks (hblocks blocks rfl))
      next out s₂ heq => rw [heq] at h₂; exact h₂.done _
      next e s₂ heq => rw [heq] at h₂; exact h₂.error
    next out s₁ heq => rw [heq] at h₁; exact h₁.done _
    next e s₁ heq => rw [heq] at h₁; exact h₁.error

theorem expandClause_expands : ∀ (s : Interpreter W) (c : Clause),
    c.Harmless ready → Expands ready s (expandClause s c)
  | s, .mk p condition content, hc => by
    rw [Clause.Harmless] at hc
    have hholds := holds_expands s p hc.1
    rw [expandClause_mk]
    split
    next e s₁ heq => rw [heq] at hholds; exact hholds.error
    next s₁ heq => rw [heq] at hholds; exact hholds.done _
    next s₁ heq =>
      rw [heq] at hholds
      have hcontent := hholds.next (expandFrom_expands s₁ none [] content hc.2)
      split
      next e s₂ heq => rw [heq] at hcontent; exact hcontent.error
      next out s₂ heq => rw [heq] at hcontent; exact hcontent.done _

theorem expandClauses_expands : ∀ (s : Interpreter W) (cs : List Clause),
    Clause.AllHarmless ready cs → Expands ready s (expandClauses s cs)
  | s, [], _ => .ok _
  | s, c :: cs, hcs => by
    rw [Clause.AllHarmless] at hcs
    have hclause := expandClause_expands s c hcs.1
    rw [expandClauses_cons]
    split
    next s₁ heq =>
      rw [heq] at hclause
      exact hclause.next (expandClauses_expands s₁ cs hcs.2)
    next => exact hclause

theorem expandFrom_expands : ∀ (s : Interpreter W) (previous : Option Block) (out : List Char)
    (bs : List Block), Block.AllHarmless ready bs →
      Expands ready s (expandFrom s previous out bs)
  | s, previous, out, [], _ => .ok _
  | s, previous, out, b :: bs, hbs => by
    rw [Block.AllHarmless] at hbs
    have hblock := expandBlock_expands s b hbs.1
    rw [expandFrom_cons]
    split
    next e s₁ heq => rw [heq] at hblock; exact hblock.error
    next shown s₁ heq =>
      rw [heq] at hblock
      exact hblock.next (expandFrom_expands s₁ _ _ bs hbs.2)

end

theorem expandTemplate_expands (s : Interpreter W) {t : Template}
    (ht : Block.AllHarmless ready t) : Expands ready s (s.expandTemplate t) := by
  have hblocks := expandFrom_expands s none [] t ht
  rw [Interpreter.expandTemplate]
  split
  next out s₁ heq => rw [heq] at hblocks; exact hblocks.done _
  next e s₁ heq => rw [heq] at hblocks; exact hblocks.error

/-- Expanding a template that was read, with its conditions read in advance or not, changes nothing
of the interpreter but its last value, whether it fails or not; and it does not fail if they were
read in advance. -/
theorem expandTemplate_frame :
    (∀ (source : String) (t : Template), parseLazy source = .ok t ∨ parse source = .ok t →
      ∀ (W : Type) [World W] (s : Interpreter W),
        (s.expandTemplate t).2 = { s with last := (s.expandTemplate t).2.last }) ∧
    ∀ (source : String) (t : Template), parse source = .ok t →
      ∀ (W : Type) [World W] (s : Interpreter W), ∃ out, (s.expandTemplate t).1 = .ok out := by
  constructor
  · rintro source t (h | h) W _ s
    · exact (expandTemplate_expands s (harmless_of_parseLazy h)).frame
    · exact (expandTemplate_expands s (harmless_of_parse h)).frame
  · intro source t h W _ s
    exact (expandTemplate_expands s (harmless_of_parse h)).total rfl

/-- A condition that runs, with one behind it that would move something: expanding the template
fails there, and has changed the last value only. Behind a condition that asks it does not fail. -/
theorem expandTemplate_frame_of_late_effect :
    let s := Interpreter.withFlags ({} : MemoryWorld) [("DOOR", .bool true)]
    (∃ t, parseLazy "$[[IF 7]]$[[IF $MOVE(key, hall)]]x$[[ENDIF]]$[[ENDIF]]" = .ok t ∧
      (s.expandTemplate t).2 = { s with last := (s.expandTemplate t).2.last }) ∧
    ∃ t, parse "$[[IF $IN_INVEN(key)]]x$[[ENDIF]]" = .ok t ∧
      ∃ out, (s.expandTemplate t).1 = .ok out := by
  intro s
  constructor
  · have hok : (parseLazy "$[[IF 7]]$[[IF $MOVE(key, hall)]]x$[[ENDIF]]$[[ENDIF]]").isOk = true := by
      decide +kernel
    cases h : parseLazy "$[[IF 7]]$[[IF $MOVE(key, hall)]]x$[[ENDIF]]$[[ENDIF]]" with
    | error e => rw [h] at hok; cases hok
    | ok t => exact ⟨t, rfl, expandTemplate_frame.1 _ t (.inl h) MemoryWorld s⟩
  · have hok : (parse "$[[IF $IN_INVEN(key)]]x$[[ENDIF]]").isOk = true := by decide +kernel
    cases h : parse "$[[IF $IN_INVEN(key)]]x$[[ENDIF]]" with
    | error e => rw [h] at hok; cases hok
    | ok t => exact ⟨t, rfl, expandTemplate_frame.2 _ t h MemoryWorld s⟩

end Template

end FlagScript
