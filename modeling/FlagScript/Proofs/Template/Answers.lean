import FlagScript.Proofs.Run.WorldCall
import FlagScript.Proofs.Template.Frame
import FlagScript.Proofs.Template.Shown

/-!
# What expansions answer

Conditions change the last value only, and nothing that a template shows depends on that. So what an
expansion answers is said about one state for all states that differ from it in the last value
(`Answers`), and expansions go on from where another one ended (`Answers.andThen`). A branch is
expanded in two steps: conditions are asked in order until one holds (`pick_answers`), and then the
content that was picked is expanded (`expandBlock_eq_pick`).
-/

namespace FlagScript

namespace Template

variable {W : Type} [World W] {s : Interpreter W}

/-! ## Answers -/

section Answers

variable {α β : Type}

theorem execAll_append (s : Interpreter W) (scripts scripts' : List Script) :
    s.execAll (scripts ++ scripts') = (s.execAll scripts).execAll scripts' :=
  List.foldl_append

/-- Scripts without effects change the last value only. -/
theorem execAll_of_no_effect (s : Interpreter W) {scripts : List Script}
    (h : ∀ script ∈ scripts, Expr.firstEffectOf script = none) :
    s.execAll scripts = { s with last := (s.execAll scripts).last } := by
  induction scripts generalizing s with
  | nil => rfl
  | cons script scripts ih =>
    rw [List.forall_mem_cons] at h
    have hrest := ih (s.exec script).2 h.2
    rw [s.exec_of_no_effect h.1] at hrest
    rw [Interpreter.execAll, List.foldl_cons, s.exec_of_no_effect h.1]
    exact hrest

/-- The last value makes no difference to what a script answers. -/
theorem exec_withLast (s : Interpreter W) (v : Value) (script : Script) :
    (Interpreter.exec { s with last := v } script).1 = (s.exec script).1 :=
  have hsame : Interpreter.SameRun (Interpreter.exec { s with last := v } script) (s.exec script)
      _ _ := Interpreter.exec_of_answers script rfl rfl
  hsame.value

/-- From every state that differs from `s` in its last value only, `f` answers what `R` allows, and
what it leaves is left by the conditions that go with the answer. -/
structure Answers (s : Interpreter W) (f : Interpreter W → Except Error α × Interpreter W)
    (R : α → List Script → Prop) : Prop where
  harmless : ∀ {a : α} {ran : List Script}, R a ran →
    ∀ script ∈ ran, Expr.firstEffectOf script = none
  eq_ok_iff : ∀ {v : Value} {a : α} {s' : Interpreter W}, f { s with last := v } = (.ok a, s') ↔
    ∃ ran, R a ran ∧ s' = Interpreter.execAll { s with last := v } ran

/-- Goes on with an answer where it was given. -/
def andThen (f : Interpreter W → Except Error α × Interpreter W)
    (g : α → Interpreter W → Except Error β × Interpreter W) (s : Interpreter W) :
    Except Error β × Interpreter W :=
  match f s with
  | (.error e, s) => (.error e, s)
  | (.ok a, s) => g a s

namespace Answers

variable {f : Interpreter W → Except Error α × Interpreter W} {R R' : α → List Script → Prop}
  {g : α → Interpreter W → Except Error β × Interpreter W} {Q : α → β → List Script → Prop}

theorem congr (h : Answers s f R) (hR : ∀ a ran, R a ran ↔ R' a ran) : Answers s f R' where
  harmless := fun ha => h.harmless ((hR _ _).2 ha)
  eq_ok_iff := by simp only [h.eq_ok_iff, hR, implies_true]

/-- What is answered without any condition. -/
theorem ok {a : α} (h : ∀ v, f { s with last := v } = (.ok a, { s with last := v })) :
    Answers s f fun b ran => b = a ∧ ran = [] where
  harmless := by simp
  eq_ok_iff := by simp [h, Interpreter.execAll, eq_comm]

theorem andThen (hf : Answers s f R) (hg : ∀ a ran, R a ran → Answers s (g a) (Q a)) :
    Answers s (Template.andThen f g) fun b ran =>
      ∃ a asked more, R a asked ∧ Q a b more ∧ ran = asked ++ more where
  harmless := by
    rintro b _ ⟨a, asked, more, ha, hb, rfl⟩
    exact List.forall_mem_append.2 ⟨hf.harmless ha, (hg a asked ha).harmless hb⟩
  eq_ok_iff := by
    intro v b s'
    constructor
    · intro h
      rw [Template.andThen] at h
      split at h
      next => cases h
      next a s₁ hs₁ =>
        obtain ⟨asked, ha, rfl⟩ := hf.eq_ok_iff.1 hs₁
        -- the state in between differs in its last value only, so it is one that `g` is about
        rw [execAll_of_no_effect _ (hf.harmless ha)] at h
        obtain ⟨more, hb, rfl⟩ := (hg a asked ha).eq_ok_iff.1 h
        refine ⟨_, ⟨a, asked, more, ha, hb, rfl⟩, ?_⟩
        rw [execAll_append, execAll_of_no_effect _ (hf.harmless ha)]
    · rintro ⟨_, ⟨a, asked, more, ha, hb, rfl⟩, rfl⟩
      rw [Template.andThen, hf.eq_ok_iff.2 ⟨asked, ha, rfl⟩]
      simp only
      rw [execAll_append, execAll_of_no_effect _ (hf.harmless ha)]
      exact (hg a asked ha).eq_ok_iff.2 ⟨more, hb, rfl⟩

end Answers

end Answers

/-! ## Conditions -/

variable {s' : Interpreter W} {p : Position} {c : Condition} {answer : Bool}

theorem readCondition_eq_ok_iff {source : String} {script : Script} :
    Clause.readCondition p source = .ok script ↔ (Condition.raw source).Reads script := by
  constructor
  · intro h
    have hharmless := readCondition_harmless h
    unfold Clause.readCondition at h
    split at h
    next => cases h
    next script' hread =>
      split at h
      next => cases h
      next => cases h; exact .raw hread hharmless
  · rintro (_ | ⟨hread, hharmless⟩)
    simp only [Clause.readCondition, hread, hharmless]

theorem holds_eq_ok_iff : holds s p c = (.ok answer, s') ↔
    ∃ script, c.Reads script ∧ (s.exec script).1.truth = answer ∧ s' = (s.exec script).2 := by
  have hrun : ∀ script : Script,
      ((.ok (s.exec script).1.truth, (s.exec script).2) : Except Error Bool × Interpreter W) =
        (.ok answer, s') ↔ (s.exec script).1.truth = answer ∧ s' = (s.exec script).2 := by
    intro script
    rw [Prod.mk.injEq, Except.ok.injEq, eq_comm (a := s')]
  cases c with
  | parsed script =>
    constructor
    · intro h
      exact ⟨script, .parsed, (hrun script).1 h⟩
    · rintro ⟨_, ⟨⟩, h⟩
      exact (hrun script).2 h
  | raw source =>
    -- a raw condition is read when it is asked
    cases hread : Clause.readCondition p source with
    | error e =>
      simp only [holds, hread]
      constructor
      · intro h
        cases h
      · rintro ⟨script, h, _⟩
        rw [readCondition_eq_ok_iff.2 h] at hread
        cases hread
    | ok script =>
      simp only [holds, hread]
      constructor
      · intro h
        exact ⟨script, readCondition_eq_ok_iff.1 hread, (hrun script).1 h⟩
      · rintro ⟨script', h, hanswer⟩
        obtain rfl : script' = script :=
          Except.ok.inj ((readCondition_eq_ok_iff.2 h).symm.trans hread)
        exact (hrun script').2 hanswer

theorem holds_answers (p : Position) (hc : c.Harmless false) :
    Answers s (holds · p c) fun answer ran =>
      ∃ script, c.Reads script ∧ (s.exec script).1.truth = answer ∧ ran = [script] where
  harmless := by
    rintro answer _ ⟨script, hread, _, rfl⟩
    exact List.forall_mem_singleton.2 (harmless_of_reads hread hc)
  eq_ok_iff := by
    intro v answer s'
    rw [holds_eq_ok_iff]
    simp only [exec_withLast]
    constructor
    · rintro ⟨script, hread, hanswer, hs'⟩
      exact ⟨[script], ⟨script, hread, hanswer, rfl⟩, hs'⟩
    · rintro ⟨_, ⟨script, hread, hanswer, rfl⟩, hs'⟩
      exact ⟨script, hread, hanswer, hs'⟩

/-! ## Branches -/

variable {clauses : List Clause}

/-- The content of the first of some clauses whose condition holds. -/
def pick (s : Interpreter W) : List Clause → Except Error (Option (List Block)) × Interpreter W
  | [] => (.ok none, s)
  | .mk p condition content :: clauses =>
    match holds s p condition with
    | (.error e, s) => (.error e, s)
    | (.ok true, s) => (.ok (some content), s)
    | (.ok false, s) => pick s clauses

/-- What is shown of the content that was picked, if any was. -/
def expandPicked (content : Option (List Block)) (s : Interpreter W) :
    Except Error (Option (List Char)) × Interpreter W :=
  match content with
  | none => (.ok none, s)
  | some blocks => andThen (expandFrom · none [] blocks) (fun out s => (.ok (some out), s)) s

theorem expandClauses_eq_pick (s : Interpreter W) (clauses : List Clause) :
    expandClauses s clauses = andThen (pick · clauses) expandPicked s := by
  induction clauses generalizing s with
  | nil => rfl
  | cons c clauses ih =>
    obtain ⟨p, condition, content⟩ := c
    rw [expandClauses_cons, expandClause_mk, andThen, pick]
    rcases holds s p condition with ⟨_ | _ | _, s₁⟩
    · rfl
    · exact ih s₁
    · simp only [expandPicked, andThen]
      rcases expandFrom s₁ none [] content with ⟨_ | _, s₂⟩ <;> rfl

/-- Whatever was picked is shown, and otherwise what stands behind the ELSE. -/
theorem expandBlock_eq_pick (s : Interpreter W) (first : Clause) (more : List Clause)
    (otherwise : Option (List Block)) :
    expandBlock s (.branch first more otherwise) = andThen (pick · (first :: more))
      (fun content s => expandFrom s none [] ((content.or otherwise).getD [])) s := by
  -- the first clause is expanded apart from the others, but like them
  have hclauses : expandBlock s (.branch first more otherwise) =
      andThen (expandClauses · (first :: more)) (fun
        | none, s => expandFrom s none [] (otherwise.getD [])
        | some out, s => (.ok out, s)) s := by
    rw [expandBlock_branch, andThen, expandClauses_cons]
    rcases expandClause s first with ⟨_ | _ | _, s₁⟩
    · rfl
    · simp only
      rcases expandClauses s₁ more with ⟨_ | _ | _, s₂⟩
      · rfl
      · cases otherwise <;> rfl
      · rfl
    · rfl
  rw [hclauses, andThen, expandClauses_eq_pick, andThen, andThen]
  rcases pick s (first :: more) with ⟨_ | _ | _, s₁⟩
  · rfl
  · rfl
  · simp only [expandPicked, andThen, Option.some_or, Option.getD_some]
    rcases expandFrom s₁ none [] _ with ⟨_ | _, s₂⟩ <;> rfl

theorem pick_cons (p : Position) (c : Condition) (content : List Block) (clauses : List Clause) :
    (pick (W := W) · (.mk p c content :: clauses)) = andThen (holds · p c)
      (fun answer s => if answer then (.ok (some content), s) else pick s clauses) := by
  funext s
  rw [pick, andThen]
  rcases holds s p c with ⟨_ | _ | _, s₁⟩ <;> rfl

theorem pick_answers (h : ClausesAsRead clauses) :
    Answers s (pick · clauses) (Picks s clauses) := by
  induction clauses with
  | nil =>
    refine (Answers.ok fun v => rfl).congr fun content asked => ?_
    rw [picks_nil_iff]
  | cons c clauses ih =>
    obtain ⟨p, condition, blocks⟩ := c
    obtain ⟨⟨opens, hparts⟩, hmore⟩ := List.forall_mem_cons.1 h
    have hcondition : condition.Harmless false := by
      cases hparts _ List.mem_cons_self with
      | clause hc => exact hc
    -- behind a condition that holds nothing is asked any more
    have hrest : ∀ answer : Bool, Answers s
        (fun s => if answer then (.ok (some blocks), s) else pick s clauses)
        (fun content more => if answer then content = some blocks ∧ more = []
          else Picks s clauses content more) := by
      intro answer
      cases answer with
      | true => exact Answers.ok fun v => rfl
      | false => exact ih hmore
    rw [pick_cons]
    refine ((holds_answers p hcondition).andThen fun answer _ _ => hrest answer).congr ?_
    intro content asked
    rw [picks_cons_iff]
    constructor
    · rintro ⟨answer, _, more, ⟨script, hread, hanswer, rfl⟩, hpicks, rfl⟩
      refine ⟨script, hread, ?_⟩
      cases answer with
      | true =>
        obtain ⟨rfl, rfl⟩ := hpicks
        exact .inl ⟨hanswer, rfl, rfl⟩
      | false => exact .inr ⟨hanswer, more, hpicks, rfl⟩
    · rintro ⟨script, hread, ⟨htrue, rfl, rfl⟩ | ⟨hfalse, more, hpicks, rfl⟩⟩
      · exact ⟨true, [script], [], ⟨script, hread, htrue, rfl⟩, ⟨rfl, rfl⟩, rfl⟩
      · exact ⟨false, [script], more, ⟨script, hread, hfalse, rfl⟩, hpicks, rfl⟩

end Template

end FlagScript
