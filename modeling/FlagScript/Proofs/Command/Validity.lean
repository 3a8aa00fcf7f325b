import FlagScript.Command.Run
import FlagScript.Proofs.Run.Names

/-!
# What commands take for valid

Behind reading the source and parsing it nothing can fail: scripts run and are written with calls in
every case, and a template whose conditions were read expands. So without flags to start from the
commands for scripts succeed for the same sources, and so do those for templates
(`exitCode_of_source`).
-/

namespace FlagScript

namespace Command

variable {α β : Type} {w : Surroundings} {path : String}

/-! ## Codes -/

/-- The code to exit with for a command line. -/
def exitCode (w : Surroundings) (args : List String) : UInt32 :=
  match ofArgs? args with
  | some c => (c.run w).code
  | none => 2

/-- The code of a command that succeeds or not. -/
def codeOf (succeeds : Bool) : UInt32 := if succeeds then 0 else 1

theorem code_run (w : Surroundings) (c : Command) : (c.run w).code = codeOf (c.output w).isOk := by
  unfold run
  cases c.output w <;> rfl

/-- Whether there is a source at a path that can be read in a certain way. -/
def isValid (w : Surroundings) (path : String) (read : String → Except Error α) : Bool :=
  match readSource w path with
  | .ok (_, text) => (read text).isOk
  | .error _ => false

/-! ## Successes -/

theorem isOk_map {ε : Type} (x : Except ε α) (f : α → β) : (x.map f).isOk = x.isOk := by
  cases x <;> rfl

theorem isOk_mapError {ε ε' : Type} (x : Except ε α) (f : ε → ε') :
    (x.mapError f).isOk = x.isOk := by
  cases x <;> rfl

/-- Showing a result cannot fail. -/
theorem isOk_shown {ε ε' : Type} (x : Except ε α) (g : ε → ε') (f : α → β) :
    (x.mapError g >>= fun a => .ok (f a)).isOk = x.isOk := by
  cases x <;> rfl

theorem startFlags_default (hflags : w.flagFile = none) : startFlags w {} = .ok ∅ := by
  unfold startFlags
  rw [hflags]
  rfl

theorem isOk_interpreter (hflags : w.flagFile = none) (name : String) :
    ∃ s, interpreter w {} name = .ok s := by
  unfold interpreter
  rw [startFlags_default hflags]
  exact ⟨_, rfl⟩

theorem isOk_eval (s : Interpreter MemoryWorld) (text : String) :
    (s.eval text).isOk = (Script.parse text).isOk := by
  unfold Interpreter.eval Interpreter.parse
  rw [isOk_map, isOk_mapError]

/-- Only reading a template can fail, for then its conditions were read with it. -/
theorem isOk_expand (s : Interpreter MemoryWorld) (text : String) :
    (s.expand text).1.isOk = (Template.parse text).isOk := by
  unfold Interpreter.expand Interpreter.parseTemplate
  cases h : Template.parse text with
  | error e => rfl
  | ok t =>
    have hexpands := Template.expandTemplate_expands s (Template.harmless_of_parse h)
    obtain ⟨out, hout⟩ := hexpands.total rfl
    show (s.expandTemplate t).1.isOk = true
    rw [hout]
    rfl

/-- A command that reads its source first succeeds for valid sources if the rest of it does. -/
theorem isOk_source {body : String × String → Except Failure β}
    {read : String → Except Error α}
    (hbody : ∀ name text, (body (name, text)).isOk = (read text).isOk) :
    (readSource w path >>= body).isOk = isValid w path read := by
  unfold isValid
  cases readSource w path with
  | error f => rfl
  | ok source => exact hbody source.1 source.2

/-! ## Commands -/

theorem isOk_check_script (w : Surroundings) (path : String) (showsTree : Bool) :
    (output w (.check path false showsTree)).isOk = isValid w path Script.parse := by
  apply isOk_source
  intro name text
  exact (isOk_shown ((Script.parse text).map Script.outline) _ _).trans (isOk_map _ _)

theorem isOk_check_template (w : Surroundings) (path : String) (showsTree : Bool) :
    (output w (.check path true showsTree)).isOk = isValid w path Template.parse := by
  apply isOk_source
  intro name text
  exact (isOk_shown ((Template.parse text).map Template.outline) _ _).trans (isOk_map _ _)

theorem isOk_translate (w : Surroundings) (path : String) :
    (output w (.translate path)).isOk = isValid w path Script.parse := by
  apply isOk_source
  intro name text
  exact (isOk_shown (Script.translate text) _ _).trans (isOk_map _ _)

theorem isOk_output_eval (hflags : w.flagFile = none) (path : String) :
    (output w (.eval path {})).isOk = isValid w path Script.parse := by
  apply isOk_source
  intro name text
  obtain ⟨s, hs⟩ := isOk_interpreter hflags name
  simp only [hs]
  exact (isOk_shown (s.eval text) _ _).trans (isOk_eval s text)

theorem isOk_output_expand (hflags : w.flagFile = none) (path : String) :
    (output w (.expand path {})).isOk = isValid w path Template.parse := by
  apply isOk_source
  intro name text
  obtain ⟨s, hs⟩ := isOk_interpreter hflags name
  simp only [hs]
  exact (isOk_shown (s.expand text).1 _ _).trans (isOk_expand s text)

/-! ## Command lines -/

/-- A path stands for itself on a command line unless it is empty or looks like an option. -/
structure IsPath (path : String) : Prop where
  nonempty : path.isEmpty = false
  noOption : Given.isOption path = false

theorem read?_path (hpath : IsPath path) (kinds : List (String × OptionKind)) (args : List String) :
    Given.read? kinds {} false (path :: args) =
      Given.read? kinds { source := some path } false args := by
  rw [Given.read?, hpath.noOption]
  simp [Given.addSource?, hpath.nonempty]

/-- The commands agree on what is valid: without flags to start from, those for scripts exit with 0
for a source that can be read and is a script, and those for templates for one that is a template,
and otherwise all of them exit with 1. -/
theorem exitCode_of_source (hflags : w.flagFile = none) (hpath : IsPath path) :
    exitCode w ["check", path] = codeOf (isValid w path Script.parse) ∧
      exitCode w ["eval", path] = codeOf (isValid w path Script.parse) ∧
      exitCode w ["translate", path] = codeOf (isValid w path Script.parse) ∧
      exitCode w ["check", path, "--template"] = codeOf (isValid w path Template.parse) ∧
      exitCode w ["expand", path] = codeOf (isValid w path Template.parse) := by
  have hcheck : ofArgs? ["check", path] = some (.check path false false) := by
    rw [ofArgs?, withSource?, read?_path hpath]
    rfl
  have heval : ofArgs? ["eval", path] = some (.eval path {}) := by
    rw [ofArgs?, withSource?, read?_path hpath]
    rfl
  have htranslate : ofArgs? ["translate", path] = some (.translate path) := by
    rw [ofArgs?, withSource?, read?_path hpath]
    rfl
  have htemplate : ofArgs? ["check", path, "--template"] = some (.check path true false) := by
    rw [ofArgs?, withSource?, read?_path hpath]
    rfl
  have hexpand : ofArgs? ["expand", path] = some (.expand path {}) := by
    rw [ofArgs?, withSource?, read?_path hpath]
    rfl
  -- without flags and a snapshot, only the reading of the source can fail
  simp only [exitCode, hcheck, heval, htranslate, htemplate, hexpand, code_run,
    isOk_check_script, isOk_check_template, isOk_translate, isOk_output_eval hflags,
    isOk_output_expand hflags, and_self]

/-- A template that is no script, and bytes that are no text. -/
theorem exitCode_of_source_bytes :
    (let w : Surroundings :=
        { input := .empty, file := fun _ => .ok "$[[IF 1]]a$[[ENDIF]]".toUTF8 };
      exitCode w ["check", "hall"] = 1 ∧ exitCode w ["eval", "hall"] = 1 ∧
        exitCode w ["translate", "hall"] = 1 ∧
        exitCode w ["check", "hall", "--template"] = 0 ∧ exitCode w ["expand", "hall"] = 0) ∧
    (let w : Surroundings := { input := ⟨#[0xff]⟩, file := fun _ => .error .missing };
      exitCode w ["check", "-"] = 1 ∧ exitCode w ["eval", "-"] = 1 ∧
        exitCode w ["translate", "-"] = 1 ∧
        exitCode w ["check", "-", "--template"] = 1 ∧ exitCode w ["expand", "-"] = 1) := by
  have hhall : IsPath "hall" := ⟨by decide, by decide⟩
  have hinput : IsPath "-" := ⟨by decide, by decide⟩
  constructor
  · intro w
    have hscript : isValid w "hall" Script.parse = false := by decide +kernel
    have htemplate : isValid w "hall" Template.parse = true := by decide +kernel
    have hcodes := exitCode_of_source (w := w) rfl hhall
    rwa [hscript, htemplate] at hcodes
  · intro w
    have hscript : isValid w "-" Script.parse = false := by decide +kernel
    have htemplate : isValid w "-" Template.parse = false := by decide +kernel
    have hcodes := exitCode_of_source (w := w) rfl hinput
    rwa [hscript, htemplate] at hcodes

end Command

end FlagScript
