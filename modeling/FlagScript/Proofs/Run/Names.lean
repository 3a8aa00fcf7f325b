import FlagScript.Proofs.Source.Printable
import FlagScript.Proofs.Template.Frame
import FlagScript.Proofs.Text.Upper

/-!
# Names of flags

However an interpreter came about, every flag and every flag that a reset restores has a name in
upper case (`Reachable.normal`): each request that writes flags puts names in upper case, or takes
them from a script that was read, where they are so already.
-/

namespace FlagScript

/-! ## Names that scripts write -/

/-- All names of an expression are in upper case. -/
def Expr.Named (e : Expr) : Prop := ∀ name, .name name ∈ e.words → Text.upper name = name

/-- A script that was read holds its names in upper case. -/
theorem Script.named_of_parse {source : String} {script : Script}
    (h : Script.parse source = .ok script) : ∀ e ∈ script, e.Named := by
  intro e he name hname
  have hword : .name name ∈ script.words := List.mem_flatMap.2 ⟨e, he, hname⟩
  cases printable_of_parse h hword trivial with
  | name hn => exact hn.upper

/-! ## Flags in normal form -/

/-- All names are in upper case. -/
def Flags.Normal (flags : Flags) : Prop := ∀ name ∈ flags, Text.upper name = name

namespace Flags

variable {flags : Flags} {name : String}

theorem Normal.empty : Normal ∅ := fun name h => by simp at h

theorem Normal.insert (h : flags.Normal) (hname : Text.upper name = name) (v : Value) :
    Normal (flags.insert name v) := by
  intro name' h'
  rw [Std.ExtTreeMap.mem_insert] at h'
  rcases h' with heq | hmem
  · rwa [← Std.LawfulEqOrd.eq_of_compare heq]
  · exact h name' hmem

theorem normal_ofEntries (entries : List (String × Value)) : (ofEntries entries).Normal := by
  have hfrom : ∀ flags : Flags, flags.Normal →
      (entries.foldl (fun flags entry => flags.insert (Text.upper entry.1) entry.2)
        flags).Normal := by
    induction entries with
    | nil => exact fun _ h => h
    | cons entry entries ih => exact fun flags h => ih _ (h.insert (Text.upper_upper _) _)
  exact hfrom ∅ .empty

/-- A name that is allowed is answered in upper case. -/
theorem upper_of_checkName {name' : String} (h : checkName name = .ok name') :
    name' = Text.upper name := by
  unfold checkName at h
  simp only at h
  split at h
  next => cases h; rfl
  next => cases h

end Flags

namespace Interpreter

variable {W : Type}

/-- The names of all flags, and of those that a reset restores, are in upper case. -/
structure Normal (s : Interpreter W) : Prop where
  flags : s.flags.Normal
  initial : s.initial.Normal

variable {s : Interpreter W} {name : String}

theorem Normal.put (h : s.Normal) (hname : Text.upper name = name) (v : Value) :
    (s.put name v).Normal := ⟨h.flags.insert hname v, h.initial⟩

theorem Normal.withLast (h : s.Normal) (v : Value) : Normal { s with last := v } :=
  ⟨h.flags, h.initial⟩

variable [World W]

/-- Functions put the names that they are given in upper case. -/
theorem Normal.runBuiltin (h : s.Normal) (b : Builtin) (args : List Value) :
    (s.runBuiltin b args).2.Normal := by
  have hstore : ∀ v w : Value, (s.store v w).2.Normal := fun v w => h.put (Text.upper_upper _) w
  cases b
  case enable | disable | toggle | inc | dec | set => exact hstore _ _
  case move | output => exact ⟨h.flags, h.initial⟩
  all_goals exact h

theorem Normal.runCall (h : s.Normal) (name : String) (args : List Value) :
    (s.runCall name args).2.Normal := by
  unfold Interpreter.runCall
  split
  next b _ => exact h.runBuiltin b args
  next => exact h

mutual

theorem Normal.evalExpr : ∀ (e : Expr) {s : Interpreter W}, s.Normal → e.Named →
    (s.evalExpr e).2.Normal
  | .literal _ _, _, h, _ => h
  | .flag _, _, h, _ => h
  | .group inner, _, h, he =>
    Normal.evalExpr inner h fun name hname => he name (by simp [Expr.words, hname])
  | .binary _ left right, _, h, he => by
    have hleft : left.Named := fun name hname => he name (by simp [Expr.words, hname])
    have hright : right.Named := fun name hname => he name (by simp [Expr.words, hname])
    exact Normal.evalExpr right (Normal.evalExpr left h hleft) hright
  | .unary _ operand, _, h, he =>
    Normal.evalExpr operand h fun name hname => he name (by simp [Expr.words, hname])
  | .step _ _, _, h, he => h.put (he _ (by simp [Expr.words])) _
  | .assign _ _ value, _, h, he => by
    have hvalue : value.Named := fun name hname => he name (by simp [Expr.words, hname])
    exact (Normal.evalExpr value h hvalue).put (he _ (by simp [Expr.words])) _
  | .call name args, _, h, he => by
    have hargs := Normal.evalArgs args h fun name hname => he name (by simp [Expr.words, hname])
    rw [evalExpr_call]
    exact hargs.runCall name _

theorem Normal.evalArgs : ∀ (es : List Expr) {s : Interpreter W}, s.Normal →
    (∀ name, .name name ∈ Expr.argumentWords es → Text.upper name = name) →
    (s.evalArgs es).2.Normal
  | [], _, h, _ => h
  | [e], _, h, hes => Normal.evalExpr e h hes
  | e :: e' :: es, _, h, hes => by
    have he : e.Named := fun name hname => hes name (by simp [Expr.argumentWords, hname])
    have hmore : ∀ name, .name name ∈ Expr.argumentWords (e' :: es) → Text.upper name = name :=
      fun name hname => hes name (by simp [Expr.argumentWords, hname])
    exact Normal.evalArgs (e' :: es) (Normal.evalExpr e h he) hmore

end

theorem Normal.exec (h : s.Normal) {script : Script} (hscript : ∀ e ∈ script, e.Named) :
    (s.exec script).2.Normal := by
  have hfrom : ∀ (result : Value) {s : Interpreter W}, s.Normal →
      (s.execFrom result script).2.Normal := by
    induction script with
    | nil => exact fun _ _ h => h
    | cons e es ih =>
      rw [List.forall_mem_cons] at hscript
      exact fun _ s h => ih hscript.2 _ ((h.evalExpr e hscript.1).withLast _)
  exact hfrom .zero h

omit [World W] in
theorem parseTemplate_eq_ok_iff {source : String} {t : Template} :
    s.parseTemplate source = .ok t ↔ Template.parse source = .ok t := by
  unfold parseTemplate
  cases Template.parse source <;> simp [Except.mapError]

/-- Expanding a source changes the last value only. -/
theorem expand_frame (s : Interpreter W) (source : String) :
    (s.expand source).2 = { s with last := (s.expand source).2.last } := by
  unfold Interpreter.expand
  cases h : s.parseTemplate source with
  | error e => rfl
  | ok t =>
    have hharmless := Template.harmless_of_parse (parseTemplate_eq_ok_iff.1 h)
    exact (Template.expandTemplate_expands s hharmless).frame

omit [World W] in
theorem parse_eq_ok_iff {source : String} {script : Script} :
    s.parse source = .ok script ↔ Script.parse source = .ok script := by
  unfold parse
  cases Script.parse source <;> simp [Except.mapError]

theorem eval_eq_ok_iff {source : String} {answer : Value × Interpreter W} :
    s.eval source = .ok answer ↔
      ∃ script, Script.parse source = .ok script ∧ s.exec script = answer := by
  simp only [← parse_eq_ok_iff (s := s)]
  unfold eval
  cases s.parse source <;> simp [Except.map]

omit [World W] in
theorem addFlag_eq_ok_iff {name text : String} {s' : Interpreter W} :
    s.addFlag name text = .ok s' ↔
      ∃ name', Flags.checkName name = .ok name' ∧ s.put name' (.ofLooseText text) = s' := by
  unfold addFlag
  cases Flags.checkName name <;> simp [Except.map]

/-! ## Requests -/

/-- What can be asked of an interpreter. -/
inductive Request where
  | eval (source : String)
  | expand (source : String)
  | setFlag (name : String) (v : Value)
  | addFlag (name text : String)
  | setInitial (entries : List (String × Value))
  | reset

/-- The interpreter behind a request. One that fails leaves it as it was, but for the value of the
last statement if a template was being expanded. -/
def perform (s : Interpreter W) : Request → Interpreter W
  | .eval source =>
    match s.eval source with
    | .ok (_, s') => s'
    | .error _ => s
  | .expand source => (s.expand source).2
  | .setFlag name v => s.setFlag name v
  | .addFlag name text =>
    match s.addFlag name text with
    | .ok s' => s'
    | .error _ => s
  | .setInitial entries => s.setInitial entries
  | .reset => s.reset

/-- Interpreters that come about by requests. -/
inductive Reachable : Interpreter W → Prop where
  | new (world : W) : Reachable { world }
  | withFlags (world : W) (entries : List (String × Value)) : Reachable (withFlags world entries)
  | perform {s : Interpreter W} (h : Reachable s) (request : Request) :
      Reachable (s.perform request)

/-- No request adds a name that is not in upper case. -/
theorem Normal.perform (h : s.Normal) (request : Request) : (s.perform request).Normal := by
  cases request with
  | eval source =>
    rw [Interpreter.perform]
    split
    next v s' heval =>
      obtain ⟨script, hparse, hexec⟩ := eval_eq_ok_iff.1 heval
      have hnormal := h.exec (Script.named_of_parse hparse)
      rwa [hexec] at hnormal
    next => exact h
  | expand source =>
    rw [Interpreter.perform, expand_frame]
    exact h.withLast _
  | setFlag name v => exact h.put (Text.upper_upper _) v
  | addFlag name text =>
    rw [Interpreter.perform]
    split
    next s' hadd =>
      obtain ⟨name', hname, rfl⟩ := addFlag_eq_ok_iff.1 hadd
      rw [Flags.upper_of_checkName hname]
      exact h.put (Text.upper_upper _) _
    next => exact h
  | setInitial entries => exact ⟨h.flags, Flags.normal_ofEntries entries⟩
  | reset => exact ⟨h.initial, h.initial⟩

theorem Reachable.normal (h : Reachable s) : s.Normal := by
  induction h with
  | new world => exact ⟨.empty, .empty⟩
  | withFlags world entries =>
    have hentries := Flags.normal_ofEntries entries
    exact ⟨hentries, hentries⟩
  | perform _ request ih => exact ih.perform request

end Interpreter

end FlagScript
