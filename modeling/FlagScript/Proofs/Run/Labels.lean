import FlagScript.Proofs.FlagFile.Table
import FlagScript.Proofs.Run.Names

/-!
# How flags come to be

A script gives a flag its name in two ways. It assigns to a name that stands in the script
(`Expr.targets`), or it calls a function that sets the flag its first argument names, and such a
label can be the text of any value (`labels`). These are all the flags that there are behind an
evaluation, besides those in front of it (`mem_evalExpr`); no flag is ever dropped. The names that
stand in a script are allowed in flag files (`Script.isAllowed_of_target`); labels need not be.
-/

namespace FlagScript

/-! ## Names in a script -/

namespace Expr

mutual

/-- The flags that an expression assigns to by name. -/
def targets : Expr → List String
  | literal _ _ | flag _ => []
  | step name _ => [name]
  | assign name _ value => targets value ++ [name]
  | group inner => targets inner
  | binary _ left right => targets left ++ targets right
  | unary _ operand => targets operand
  | call _ args => targetsOf args

/-- Those of a list of expressions, first to last. -/
def targetsOf : List Expr → List String
  | [] => []
  | e :: es => targets e ++ targetsOf es

end

mutual

/-- What is assigned to stands in the expression. -/
theorem name_mem_words : ∀ (e : Expr) {name : String}, name ∈ e.targets → .name name ∈ e.words
  | .step _ _, name, h => by
    have heq : name = _ := List.mem_singleton.1 h
    simp [words, heq]
  | .assign target _ value, name, h => by
    rw [targets, List.mem_append, List.mem_singleton] at h
    rcases h with hvalue | htarget
    · simp [words, name_mem_words value hvalue]
    · simp [words, htarget]
  | .group inner, name, h => by simp [words, name_mem_words inner h]
  | .binary _ left right, name, h => by
    rw [targets, List.mem_append] at h
    rcases h with hleft | hright
    · simp [words, name_mem_words left hleft]
    · simp [words, name_mem_words right hright]
  | .unary _ operand, name, h => by simp [words, name_mem_words operand h]
  | .call _ args, name, h => by simp [words, name_mem_argumentWords args h]

theorem name_mem_argumentWords : ∀ (es : List Expr) {name : String},
    name ∈ targetsOf es → .name name ∈ argumentWords es
  | [e], name, h => by
    rw [targetsOf, targetsOf, List.append_nil] at h
    exact name_mem_words e h
  | e :: e' :: es, name, h => by
    rw [targetsOf, List.mem_append] at h
    rcases h with he | hes
    · simp [argumentWords, name_mem_words e he]
    · simp [argumentWords, name_mem_argumentWords (e' :: es) hes]

end

end Expr

/-- The characters of allowed names are those of names in upper case. -/
theorem Token.allowed_iff_isNameChar {c : Char} :
    (c.isUpper = true ∨ c.isDigit = true ∨ c = '_') ↔ isNameChar c = true ∧ c.toUpper = c := by
  constructor
  · intro h
    have hname : isNameChar c = true := by
      show (((c.isUpper || c.isLower) || c.isDigit) || c == '_') = true
      rcases h with h | h | h <;> simp [h]
    exact ⟨hname, of_isNameChar (P := fun c => c.isUpper = true ∨ c.isDigit = true ∨ c = '_' →
      c.toUpper = c) (by decide) hname h⟩
  · intro h
    exact of_isNameChar (P := fun c => c.toUpper = c →
      c.isUpper = true ∨ c.isDigit = true ∨ c = '_') (by decide) h.1 h.2

theorem Flags.IsAllowed.upper {name : String} (h : IsAllowed name) : Text.upper name = name := by
  have hchars := fun c hc => Token.allowed_iff_isNameChar.1 (h.2 c hc)
  have hupper := Token.upper_of_nameChars fun c hc => (hchars c hc).1
  rw [String.ofList_toList] at hupper
  rw [hupper, List.map_congr_left fun c hc => (hchars c hc).2, List.map_id', String.ofList_toList]

theorem Token.IsName.isAllowed {name : String} (h : IsName name) : Flags.IsAllowed name := by
  have hupper : name.toList.map Char.toUpper = name.toList := by
    have hname := h.upper
    rw [← String.ofList_toList (s := name), upper_of_nameChars h.chars] at hname
    exact String.ofList_injective hname
  constructor
  · intro hempty
    apply h.nonempty
    rw [hempty]
    rfl
  · intro c hc
    have hc' : c.toUpper = c := List.map_inj_left.1 (hupper.trans (List.map_id _).symm) c hc
    exact allowed_iff_isNameChar.2 ⟨h.chars c hc, hc'⟩

namespace Script

/-- The flags that a script assigns to by name. -/
def targets (script : Script) : List String := script.flatMap Expr.targets

/-- The names in a script that was read are allowed in flag files. -/
theorem isAllowed_of_target {source : String} {script : Script} {name : String}
    (h : parse source = .ok script) (hname : name ∈ script.targets) : Flags.IsAllowed name := by
  obtain ⟨e, he, htarget⟩ := List.mem_flatMap.1 hname
  have hword : .name name ∈ script.words := List.mem_flatMap.2 ⟨e, he, e.name_mem_words htarget⟩
  cases printable_of_parse h hword trivial with
  | name hisName => exact hisName.isAllowed

end Script

/-! ## Labels -/

/-- The functions that set a flag. -/
def Builtin.setsFlag : Builtin → Bool
  | enable | disable | toggle | inc | dec | set => true
  | _ => false

namespace Interpreter

variable {W : Type} [World W]

/-- What names the flag that a function sets. -/
def builtinLabels (b : Builtin) (args : List Value) : List Value :=
  if b.setsFlag then [args.getD 0 .zero] else []

/-- What names the flag that the function of this name sets. -/
def callLabels (name : String) (args : List Value) : List Value :=
  match Builtin.find? name with
  | some b => builtinLabels b args
  | none => []

mutual

/-- What names the flags that functions set in an evaluation, first to last. -/
def labels (s : Interpreter W) : Expr → List Value
  | .literal _ _ | .flag _ | .step _ _ => []
  | .assign _ _ value => labels s value
  | .group inner => labels s inner
  | .binary _ left right => labels s left ++ labels (s.evalExpr left).2 right
  | .unary _ operand => labels s operand
  | .call name args => argumentLabels s args ++ callLabels name (s.evalArgs args).1

/-- The labels in the evaluation of arguments. -/
def argumentLabels (s : Interpreter W) : List Expr → List Value
  | [] => []
  | e :: es => labels s e ++ argumentLabels (s.evalExpr e).2 es

end

/-- The labels in a run of statements. -/
def execLabels (s : Interpreter W) : Script → List Value
  | [] => []
  | e :: es =>
    s.labels e ++ execLabels { (s.evalExpr e).2 with last := (s.evalExpr e).1 } es

/-! ## Flags behind an evaluation -/

variable {name : String}

omit [World W] in
theorem mem_put (s : Interpreter W) (label : String) (v : Value) :
    name ∈ (s.put label v).flags ↔ name ∈ s.flags ∨ name = label := by
  rw [put, Std.ExtTreeMap.mem_insert, Std.LawfulEqCmp.compare_eq_iff_eq, or_comm, eq_comm]

theorem mem_runBuiltin (s : Interpreter W) (b : Builtin) (args : List Value) :
    name ∈ (s.runBuiltin b args).2.flags ↔
      name ∈ s.flags ∨ name ∈ (builtinLabels b args).map labelOf := by
  have hset : ∀ v : Value, name ∈ (s.put (labelOf (args.getD 0 .zero)) v).flags ↔
      name ∈ s.flags ∨ name ∈ [args.getD 0 .zero].map labelOf := by
    intro v
    rw [mem_put, List.map_singleton, List.mem_singleton]
  have hkept : name ∈ s.flags ↔ name ∈ s.flags ∨ name ∈ ([] : List Value).map labelOf := by simp
  cases b
  case enable | disable | toggle | inc | dec | set => exact hset _
  all_goals exact hkept

theorem mem_runCall (s : Interpreter W) (function : String) (args : List Value) :
    name ∈ (s.runCall function args).2.flags ↔
      name ∈ s.flags ∨ name ∈ (callLabels function args).map labelOf := by
  unfold runCall callLabels
  cases Builtin.find? function with
  | some b => exact mem_runBuiltin s b args
  | none => simp

mutual

/-- The flags behind an evaluation are those in front of it, those that are assigned to by name and
those that functions set. -/
theorem mem_evalExpr : ∀ (s : Interpreter W) (e : Expr),
    name ∈ (s.evalExpr e).2.flags ↔
      name ∈ s.flags ∨ name ∈ e.targets ∨ name ∈ (s.labels e).map labelOf
  | s, .literal _ _ => by simp [evalExpr, Expr.targets, labels]
  | s, .flag _ => by simp [evalExpr, Expr.targets, labels]
  | s, .step _ _ => by simp [evalExpr, assign, mem_put, Expr.targets, labels]
  | s, .group inner => by
    rw [evalExpr, Expr.targets, labels]
    exact mem_evalExpr s inner
  | s, .unary _ operand => by
    rw [evalExpr, Expr.targets, labels]
    exact mem_evalExpr s operand
  | s, .assign target _ value => by
    rw [Expr.targets, labels, List.mem_append, List.mem_singleton]
    show name ∈ ((s.evalExpr value).2.put target _).flags ↔ _
    rw [mem_put, mem_evalExpr s value, or_assoc, or_right_comm]
  | s, .binary _ left right => by
    rw [Expr.targets, labels, List.map_append, List.mem_append, List.mem_append]
    show name ∈ ((s.evalExpr left).2.evalExpr right).2.flags ↔ _
    rw [mem_evalExpr _ right, mem_evalExpr s left, or_assoc, or_or_or_comm]
  | s, .call function args => by
    rw [Expr.targets, labels, List.map_append, List.mem_append]
    rw [evalExpr_call, mem_runCall, mem_evalArgs s args, or_assoc, or_assoc]

theorem mem_evalArgs : ∀ (s : Interpreter W) (es : List Expr),
    name ∈ (s.evalArgs es).2.flags ↔
      name ∈ s.flags ∨ name ∈ Expr.targetsOf es ∨ name ∈ (s.argumentLabels es).map labelOf
  | s, [] => by simp [evalArgs, Expr.targetsOf, argumentLabels]
  | s, e :: es => by
    rw [Expr.targetsOf, argumentLabels, List.map_append, List.mem_append, List.mem_append]
    show name ∈ ((s.evalExpr e).2.evalArgs es).2.flags ↔ _
    rw [mem_evalArgs _ es, mem_evalExpr s e, or_assoc, or_or_or_comm]

end

theorem mem_exec (s : Interpreter W) (script : Script) :
    name ∈ (s.exec script).2.flags ↔
      name ∈ s.flags ∨ name ∈ script.targets ∨ name ∈ (s.execLabels script).map labelOf := by
  have hfrom : ∀ (result : Value) (s : Interpreter W),
      name ∈ (s.execFrom result script).2.flags ↔
        name ∈ s.flags ∨ name ∈ script.targets ∨ name ∈ (s.execLabels script).map labelOf := by
    induction script with
    | nil => simp [execFrom, Script.targets, execLabels]
    | cons e es ih =>
      intro result s
      rw [execFrom, ih, mem_evalExpr s e, Script.targets, Script.targets, List.flatMap_cons,
        execLabels, List.map_append, List.mem_append, List.mem_append, or_assoc, or_or_or_comm]
  exact hfrom .zero s

end Interpreter

/-! ## Sources one after the other -/

/-- The script of a source, empty if it cannot be read. -/
def Script.ofSource (source : String) : Script := (parse source).toOption.getD []

theorem Script.isAllowed_of_source {source name : String} (h : name ∈ (ofSource source).targets) :
    Flags.IsAllowed name := by
  unfold ofSource at h
  cases hparse : parse source with
  | error e =>
    rw [hparse] at h
    cases h
  | ok script =>
    rw [hparse] at h
    exact isAllowed_of_target hparse h

namespace Interpreter

variable {W : Type} [World W] {name : String}

/-- Evaluates sources first to last. One that cannot be read changes nothing. -/
def evalAll (s : Interpreter W) (sources : List String) : Interpreter W :=
  sources.foldl (fun s source => s.perform (.eval source)) s

/-- The labels in the evaluation of sources. -/
def allLabels (s : Interpreter W) : List String → List Value
  | [] => []
  | source :: sources =>
    s.execLabels (.ofSource source) ++ allLabels (s.perform (.eval source)) sources

/-- A source that cannot be read leaves the flags as an empty script does. -/
theorem flags_eval (s : Interpreter W) (source : String) :
    (s.perform (.eval source)).flags = (s.exec (.ofSource source)).2.flags := by
  rw [perform, eval, parse, Script.ofSource]
  cases Script.parse source <;> rfl

/-- The flags behind sources are those in front of them, those that are assigned to by name and
those that functions set. -/
theorem mem_evalAll (s : Interpreter W) (sources : List String) :
    name ∈ (s.evalAll sources).flags ↔
      name ∈ s.flags ∨ (∃ source ∈ sources, name ∈ (Script.ofSource source).targets) ∨
        name ∈ (s.allLabels sources).map labelOf := by
  induction sources generalizing s with
  | nil => simp [evalAll, allLabels]
  | cons source sources ih =>
    show name ∈ ((s.perform (.eval source)).evalAll sources).flags ↔ _
    rw [ih, flags_eval, mem_exec, allLabels, List.map_append, List.mem_append,
      List.exists_mem_cons_iff, or_assoc, or_or_or_comm]

/-- A flag that sources make has an allowed name, or a label names it. -/
theorem isAllowed_or_label {s : Interpreter W} {sources : List String} (hs : s.flags = ∅)
    (h : name ∈ (s.evalAll sources).flags) :
    Flags.IsAllowed name ∨ ∃ label ∈ s.allLabels sources, labelOf label = name := by
  rw [mem_evalAll, hs] at h
  rcases h with hold | ⟨source, -, htarget⟩ | hlabel
  · exact absurd hold Std.ExtTreeMap.not_mem_empty
  · exact .inl (Script.isAllowed_of_source htarget)
  · exact .inr (List.mem_map.1 hlabel)

/-- The flags that sources make have allowed names exactly if all labels are allowed. -/
theorem allowed_evalAll_iff {s : Interpreter W} {sources : List String} (hs : s.flags = ∅) :
    (∀ name ∈ (s.evalAll sources).flags, Flags.IsAllowed name) ↔
      ∀ label ∈ s.allLabels sources, Flags.IsAllowed (labelOf label) := by
  constructor
  · intro h label hlabel
    apply h
    rw [mem_evalAll]
    exact .inr (.inr (List.mem_map_of_mem hlabel))
  · intro h name hname
    rcases isAllowed_or_label hs hname with hallowed | ⟨label, hlabel, rfl⟩
    · exact hallowed
    · exact h label hlabel

/-- The flags that sources make have names in upper case. -/
theorem normal_evalAll {s : Interpreter W} (hs : s.flags = ∅) (sources : List String) :
    (s.evalAll sources).flags.Normal := by
  intro name hname
  rcases isAllowed_or_label hs hname with hallowed | ⟨label, -, rfl⟩
  · exact hallowed.upper
  · exact Text.upper_upper _

end Interpreter

end FlagScript
