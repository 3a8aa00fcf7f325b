import FlagScript.Proofs.FlagFile.RoundTrip
import FlagScript.Proofs.Run.Labels

/-!
# Saved flags

Flags are saved as a document, and a document is read as flags if all names in it are allowed. The
loader checks names, and so does everything else that takes a name from outside; but the functions
that set flags take any text for a label. So flags that scripts leave behind come back from their
document exactly if all labels in the run were allowed (`reload_evalAll`). One label that was not,
such as the two words of `$ENABLE(@a b@)`, makes the document one that the loader refuses.
-/

namespace FlagScript

namespace FlagFile

variable {flags : Flags}

theorem parse_render (flags : Flags) :
    parse (render flags) = (ofTable flags).mapError .flagName := by
  rw [parse, readTable?_render]

/-- Saved flags are read back exactly if their names are allowed. -/
theorem parse_render_iff (hnormal : flags.Normal) :
    parse (render flags) = .ok flags ↔ ∀ name ∈ flags, Flags.IsAllowed name := by
  rw [parse_render, ← ofTable_eq_ok_iff hnormal]
  cases ofTable flags <;> simp [Except.mapError]

/-- Otherwise reading fails at a name that is not allowed. -/
theorem exists_parse_render_eq_error (hnormal : flags.Normal)
    (hnot : parse (render flags) ≠ .ok flags) :
    ∃ name ∈ flags, ¬Flags.IsAllowed name ∧
      parse (render flags) = .error (.flagName (.flagName name)) := by
  rw [ne_eq, parse_render_iff hnormal] at hnot
  rw [parse_render]
  cases hof : ofTable flags with
  | ok flags' =>
    refine absurd (fun name hname => ?_) hnot
    obtain ⟨v, hv⟩ := Option.isSome_iff_exists.1 (Std.ExtTreeMap.mem_iff_isSome_getElem?.1 hname)
    have hallowed := allowed_of_addAll hof _ (Std.ExtTreeMap.mem_toList_iff_getElem?_eq_some.2 hv)
    rwa [hnormal name hname] at hallowed
  | error e =>
    obtain ⟨entry, hentry, hallowed, rfl⟩ := exists_of_addAll_eq_error hof
    have hname := Flags.mem_of_mem_toList hentry
    rw [hnormal _ hname] at hallowed ⊢
    exact ⟨entry.1, hname, hallowed, rfl⟩

end FlagFile

namespace Interpreter

variable {W : Type} [World W]

/-- Flags that sources leave behind are read back from what is written of them exactly if all labels
under which functions set flags are allowed. Otherwise the document is refused, and the error names
such a label. -/
theorem reload_evalAll (s : Interpreter W) (hs : s.flags = ∅) (sources : List String) :
    let flags := (s.evalAll sources).flags
    let document := FlagFile.render flags
    (FlagFile.parse document = .ok flags ↔
        ∀ label ∈ s.allLabels sources, Flags.IsAllowed (labelOf label)) ∧
      (FlagFile.parse document ≠ .ok flags →
        ∃ label ∈ s.allLabels sources, ¬Flags.IsAllowed (labelOf label) ∧
          FlagFile.parse document = .error (.flagName (.flagName (labelOf label)))) := by
  have hnormal := normal_evalAll hs sources
  refine ⟨?_, fun hnot => ?_⟩
  · rw [FlagFile.parse_render_iff hnormal, allowed_evalAll_iff hs]
  · obtain ⟨name, hname, hallowed, hparse⟩ := FlagFile.exists_parse_render_eq_error hnormal hnot
    rcases isAllowed_or_label hs hname with hisAllowed | ⟨label, hlabel, rfl⟩
    · exact absurd hisAllowed hallowed
    · exact ⟨label, hlabel, hallowed, hparse⟩

/-- Flags that are assigned to, and one that is counted under a computed label, are read back. -/
theorem reload_evalAll_of_words :
    let s : Interpreter MemoryWorld := { world := {} }
    let flags := (s.evalAll
      ["$COINS = 7 $RATIO = 0.25", "$A +", "$NAME = @Ada Lovelace@ $INC(co + ins, 2)"]).flags
    FlagFile.parse (FlagFile.render flags) = .ok flags := by
  have h := reload_evalAll (W := MemoryWorld) { world := {} } rfl
    ["$COINS = 7 $RATIO = 0.25", "$A +", "$NAME = @Ada Lovelace@ $INC(co + ins, 2)"]
  exact h.1.2 (by decide +kernel)

/-- A label of two words makes a flag that holds a truth value and is written, but not read. -/
theorem reload_refuses_label :
    let s : Interpreter MemoryWorld := { world := {} }
    let flags := (s.evalAll ["$ENABLE(@a b@)"]).flags
    flags.toList = [("A B", .bool true)] ∧
      FlagFile.parse (FlagFile.render flags) = .error (.flagName (.flagName "A B")) := by
  constructor <;> decide +kernel

end Interpreter

end FlagScript
