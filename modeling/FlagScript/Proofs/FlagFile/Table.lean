import FlagScript.FlagFile

/-!
# From a table to flags

A table gives flags only if every name in it is allowed. Flags under names that are allowed as they
are come back as they were; under any other names they do not.
-/

namespace FlagScript

namespace Flags

/-- A name that a file may give to a flag. -/
def IsAllowed (name : String) : Prop :=
  name ≠ "" ∧ ∀ c ∈ name.toList, c.isUpper = true ∨ c.isDigit = true ∨ c = '_'

instance (name : String) : Decidable (IsAllowed name) :=
  decidable_of_iff
    (name ≠ "" ∧ (name.toList.all fun c => c.isUpper || c.isDigit || c == '_') = true)
    (by simp [IsAllowed, or_assoc])

/-- Names are checked in upper case. -/
theorem checkName_eq (name : String) :
    checkName name = if IsAllowed (Text.upper name) then .ok (Text.upper name)
      else .error (.flagName (Text.upper name)) := by
  unfold checkName IsAllowed
  simp only [Bool.and_eq_true, Bool.not_eq_true', String.isEmpty_eq_false_iff, List.all_eq_true,
    Bool.or_eq_true, beq_iff_eq, or_assoc, ne_eq]
  congr

/-- Flags are what their entries give. -/
theorem ofList_toList (flags : Flags) : Std.ExtTreeMap.ofList flags.toList = flags := by
  apply Std.ExtTreeMap.ext_getElem?
  intro name
  cases hv : flags[name]? with
  | none =>
    have hnot : (flags.toList.map Prod.fst).contains name = false := by
      rw [Std.ExtTreeMap.map_fst_toList_eq_keys, Std.ExtTreeMap.contains_keys, ← Bool.not_eq_true,
        Std.ExtTreeMap.contains_iff_mem]
      simpa using hv
    exact Std.ExtTreeMap.getElem?_ofList_of_contains_eq_false hnot
  | some v =>
    have hmem := Std.ExtTreeMap.mem_toList_iff_getElem?_eq_some.2 hv
    exact Std.ExtTreeMap.getElem?_ofList_of_mem Std.ReflCmp.compare_self
      Std.ExtTreeMap.distinct_keys_toList hmem

theorem mem_names_iff {flags : Flags} {name : String} :
    name ∈ flags.toList.map Prod.fst ↔ name ∈ flags := by
  rw [Std.ExtTreeMap.map_fst_toList_eq_keys, Std.ExtTreeMap.mem_keys]

theorem mem_of_mem_toList {flags : Flags} {e : String × Value} (h : e ∈ flags.toList) :
    e.1 ∈ flags := mem_names_iff.1 (List.mem_map_of_mem h)

end Flags

namespace FlagFile

variable {flags flags' : Flags} {entries : List (String × Value)}

/-- Names that come back as they are. -/
def KeptNames (entries : List (String × Value)) : Prop :=
  ∀ e ∈ entries, Flags.IsAllowed e.1 ∧ Text.upper e.1 = e.1

theorem addAll_of_kept (h : KeptNames entries) (flags : Flags) :
    addAll flags entries = .ok (entries.foldl (fun flags e => flags.insert e.1 e.2) flags) := by
  induction entries generalizing flags with
  | nil => rfl
  | cons e entries ih =>
    obtain ⟨⟨hallowed, hupper⟩, hentries⟩ := List.forall_mem_cons.1 h
    have hcheck : Flags.checkName e.1 = .ok e.1 := by
      rw [Flags.checkName_eq, hupper, if_pos hallowed]
    rw [addAll, hcheck]
    exact ih hentries _

/-- Entries are added up to the first one whose name is not allowed. -/
theorem addAll_eq (flags : Flags) (entries : List (String × Value)) :
    addAll flags entries =
      match entries.find? fun e => ¬Flags.IsAllowed (Text.upper e.1) with
      | some e => .error (.flagName (Text.upper e.1))
      | none => .ok (entries.foldl (fun flags e => flags.insert (Text.upper e.1) e.2) flags) := by
  induction entries generalizing flags with
  | nil => rfl
  | cons e entries ih =>
    rw [addAll, Flags.checkName_eq, List.find?_cons]
    by_cases h : Flags.IsAllowed (Text.upper e.1)
    · simp only [h, if_true, not_true, decide_false]
      exact ih _
    · simp [h]

/-- Adding succeeds only if all names are allowed. -/
theorem allowed_of_addAll (h : addAll flags entries = .ok flags') :
    ∀ e ∈ entries, Flags.IsAllowed (Text.upper e.1) := by
  rw [addAll_eq] at h
  split at h
  next => cases h
  next hnone => simpa using hnone

/-- Adding fails at a name that is not allowed. -/
theorem exists_of_addAll_eq_error {e : Error} (h : addAll flags entries = .error e) :
    ∃ entry ∈ entries, ¬Flags.IsAllowed (Text.upper entry.1) ∧
      e = .flagName (Text.upper entry.1) := by
  rw [addAll_eq] at h
  split at h
  next entry hfind =>
    cases h
    exact ⟨entry, List.mem_of_find?_eq_some hfind, by simpa using List.find?_some hfind, rfl⟩
  next => cases h

/-- Flags come back from their own table exactly if their names are allowed. -/
theorem ofTable_eq_ok_iff (h : ∀ name ∈ flags, Text.upper name = name) :
    ofTable flags = .ok flags ↔ ∀ name ∈ flags, Flags.IsAllowed name := by
  constructor
  · intro hflags name hname
    obtain ⟨e, he, rfl⟩ := List.mem_map.1 (Flags.mem_names_iff.2 hname)
    rw [← h e.1 (Flags.mem_of_mem_toList he)]
    exact allowed_of_addAll hflags e he
  · intro hallowed
    have hkept : KeptNames flags.toList := by
      intro e he
      have hname := Flags.mem_of_mem_toList he
      exact ⟨hallowed e.1 hname, h e.1 hname⟩
    rw [ofTable, addAll_of_kept hkept, ← Std.ExtTreeMap.ofList_eq_foldl, Flags.ofList_toList]

end FlagFile

end FlagScript
