import FlagScript.Interpreter
import Mathlib.Data.List.Induction

/-!
# Snapshots from maps

The flags that a reset restores are given as entries in some order, and a map of flags gives its
entries in whatever order it happens to hold them. Of several names that are the same in upper case
the one that comes last counts (`Flags.getElem?_ofEntries`), and each of them can come last. So the
order makes no difference exactly if all such names have one value (`snapshot_perm_iff`). Different
names of a map do not suffice.
-/

namespace FlagScript

namespace Flags

variable {entries order : List (String × Value)} {e : String × Value} {name : String} {v : Value}

theorem ofEntries_append_singleton (entries : List (String × Value)) (e : String × Value) :
    ofEntries (entries ++ [e]) = (ofEntries entries).insert (Text.upper e.1) e.2 := by
  rw [ofEntries, List.foldl_append]
  rfl

/-- A flag has the value of the last entry whose name is its own in upper case. -/
theorem getElem?_ofEntries (entries : List (String × Value)) (name : String) :
    (ofEntries entries)[name]? =
      (entries.reverse.find? fun e => Text.upper e.1 = name).map Prod.snd := by
  induction entries using List.reverseRecOn with
  | nil => rfl
  | append_singleton entries e ih =>
    rw [ofEntries_append_singleton, Std.ExtTreeMap.getElem?_insert, List.reverse_append, ih]
    by_cases h : Text.upper e.1 = name
    · simp [h]
    · simp [h]

theorem mem_ofEntries_iff : name ∈ ofEntries entries ↔ ∃ e ∈ entries, Text.upper e.1 = name := by
  rw [Std.ExtTreeMap.mem_iff_isSome_getElem?, getElem?_ofEntries, Option.isSome_map,
    List.find?_isSome]
  simp

/-- What a flag holds, some entry holds under one of its names. -/
theorem exists_mem_of_getElem?_ofEntries (h : (ofEntries entries)[name]? = some v) :
    ∃ e ∈ entries, Text.upper e.1 = name ∧ e.2 = v := by
  rw [getElem?_ofEntries, Option.map_eq_some_iff] at h
  obtain ⟨e, hfind, rfl⟩ := h
  have hname := List.find?_some hfind
  exact ⟨e, List.mem_reverse.1 (List.mem_of_find?_eq_some hfind), by simpa using hname, rfl⟩

/-! ## Orders of entries -/

/-- Entries whose names are the same in upper case hold the same value. -/
def Unambiguous (entries : List (String × Value)) : Prop :=
  ∀ e ∈ entries, ∀ e' ∈ entries, Text.upper e.1 = Text.upper e'.1 → e.2 = e'.2

theorem getElem?_ofEntries_eq_some_iff (h : Unambiguous entries) :
    (ofEntries entries)[name]? = some v ↔ ∃ e ∈ entries, Text.upper e.1 = name ∧ e.2 = v := by
  refine ⟨exists_mem_of_getElem?_ofEntries, ?_⟩
  rintro ⟨e, he, rfl, rfl⟩
  -- the flag holds what this entry holds, or another one, which has the same value
  have hname : Text.upper e.1 ∈ ofEntries entries := mem_ofEntries_iff.2 ⟨e, he, rfl⟩
  obtain ⟨v, hv⟩ := Option.isSome_iff_exists.1 (Std.ExtTreeMap.mem_iff_isSome_getElem?.1 hname)
  obtain ⟨e', he', hsame, rfl⟩ := exists_mem_of_getElem?_ofEntries hv
  rw [hv, h e' he' e he hsame]

theorem ofEntries_perm (h : Unambiguous entries) (horder : order.Perm entries) :
    ofEntries order = ofEntries entries := by
  have h' : Unambiguous order := fun e he e' he' =>
    h e (horder.mem_iff.1 he) e' (horder.mem_iff.1 he')
  apply Std.ExtTreeMap.ext_getElem?
  intro name
  apply Option.ext
  intro v
  rw [getElem?_ofEntries_eq_some_iff h, getElem?_ofEntries_eq_some_iff h']
  simp only [horder.mem_iff]

/-- In some order each entry counts. -/
theorem exists_perm_ofEntries (he : e ∈ entries) :
    ∃ order, order.Perm entries ∧ (ofEntries order)[Text.upper e.1]? = some e.2 := by
  obtain ⟨front, back, rfl⟩ := List.append_of_mem he
  refine ⟨front ++ back ++ [e], ?_, ?_⟩
  · rw [List.append_assoc]
    exact (List.perm_append_singleton e back).append_left front
  · rw [ofEntries_append_singleton, Std.ExtTreeMap.getElem?_insert_self]

end Flags

namespace Interpreter

variable {W : Type}

theorem flags_reset_setInitial (s : Interpreter W) (entries : List (String × Value)) :
    (s.setInitial entries).reset.flags = .ofEntries entries := rfl

theorem flags_withFlags (world : W) (entries : List (String × Value)) :
    (withFlags world entries).flags = .ofEntries entries := rfl

/-- Whatever the order in which a map of flags gives its entries, a reset restores the same flags,
and an interpreter starts with the same ones, exactly if all names of the map that are the same in
upper case have the same value. -/
theorem snapshot_perm_iff (s : Interpreter W) (world : W) (entries : List (String × Value)) :
    (∀ order order', order.Perm entries → order'.Perm entries →
      (s.setInitial order).reset.flags = (s.setInitial order').reset.flags ∧
        (withFlags world order).flags = (withFlags world order').flags) ↔
      Flags.Unambiguous entries := by
  simp only [flags_reset_setInitial, flags_withFlags, and_self]
  constructor
  · intro h e he e' he' hname
    -- one order makes the value of `e` count, another one that of `e'`
    obtain ⟨order, horder, hv⟩ := Flags.exists_perm_ofEntries he
    obtain ⟨order', horder', hv'⟩ := Flags.exists_perm_ofEntries he'
    rw [h order order' horder horder', hname, hv'] at hv
    exact (Option.some.inj hv).symm
  · intro h order order' horder horder'
    rw [Flags.ofEntries_perm h horder, Flags.ofEntries_perm h horder']

/-- Two spellings of a name with one value. -/
theorem snapshot_perm_iff_of_spellings :
    let entries : List (String × Value) :=
      [("straße", .int 12), ("lamp", .bool true), ("STRASSE", .int 12)]
    let s : Interpreter MemoryWorld := { world := {} }
    ∀ order, order.Perm entries →
      (s.setInitial order).reset.flags = (s.setInitial entries).reset.flags ∧
        (withFlags s.world order).flags = (withFlags s.world entries).flags := by
  intro entries s order horder
  have hentries : Flags.Unambiguous entries := by
    unfold Flags.Unambiguous
    decide +kernel
  exact (snapshot_perm_iff s s.world entries).2 hentries order entries horder (.refl entries)

/-- Two spellings of a name with two values: a map can hold both, and its order decides between
them. -/
theorem snapshot_depends_on_order :
    let entries : List (String × Value) := [("lamp", .bool true), ("LAMP", .bool false)]
    let s : Interpreter MemoryWorld := { world := {} }
    (entries.map Prod.fst).Nodup ∧ entries.reverse.Perm entries ∧
      (s.setInitial entries).reset.flags ≠ (s.setInitial entries.reverse).reset.flags ∧
      (withFlags s.world entries).flags.toList = [("LAMP", .bool false)] ∧
      (withFlags s.world entries.reverse).flags.toList = [("LAMP", .bool true)] := by
  intro entries s
  have hflags : (withFlags s.world entries).flags.toList = [("LAMP", .bool false)] ∧
      (withFlags s.world entries.reverse).flags.toList = [("LAMP", .bool true)] := by
    decide +kernel
  refine ⟨by decide, entries.reverse_perm, fun h => ?_, hflags⟩
  rw [flags_reset_setInitial, flags_reset_setInitial, ← flags_withFlags s.world,
    ← flags_withFlags s.world] at h
  rw [h, hflags.2] at hflags
  exact absurd hflags.1 (by decide)

end Interpreter

end FlagScript
