import FlagScript.Position
import Mathlib.Data.List.Basic

/-!
# Places in a source

Places are ordered as a source is read: by lines, and in a line by columns. `Position.behind cs` is
counted out anew for a text: its lines by their ends, and its columns by the characters behind the
last of these. Going on character by character leads to the same place (`behind_append`), and behind
more text it is a later one (`behind_lt_behind`).
-/

namespace FlagScript

namespace Position

instance : LT Position := ⟨fun p q => p.line < q.line ∨ p.line = q.line ∧ p.col < q.col⟩

instance (p q : Position) : Decidable (p < q) :=
  inferInstanceAs (Decidable (p.line < q.line ∨ p.line = q.line ∧ p.col < q.col))

/-- The place behind a text that begins a source. -/
def behind (cs : List Char) : Position :=
  ⟨cs.count '\n' + 1, (cs.reverse.takeWhile (· != '\n')).length + 1⟩

variable {p q r : Position} {cs ds : List Char}

theorem lt_iff : p < q ↔ p.line < q.line ∨ p.line = q.line ∧ p.col < q.col := Iff.rfl

/-- On a later line the column does not matter. -/
example : (⟨1, 9⟩ : Position) < ⟨2, 1⟩ := by decide

theorem lt_trans (hpq : p < q) (hqr : q < r) : p < r := by
  rw [lt_iff] at *
  omega

theorem lt_after (p : Position) (c : Char) : p < p.after c := by
  rw [lt_iff, after]
  split
  · exact .inl (Nat.lt_succ_self _)
  · exact .inr ⟨rfl, Nat.lt_succ_self _⟩

theorem lt_advance (hcs : cs ≠ []) : p < p.advance cs := by
  induction cs generalizing p with
  | nil => exact absurd rfl hcs
  | cons c cs ih =>
    by_cases hnil : cs = []
    · subst hnil
      exact lt_after p c
    · exact lt_trans (lt_after p c) (ih hnil)

theorem behind_append_singleton (cs : List Char) (c : Char) :
    behind (cs ++ [c]) = (behind cs).after c := by
  rw [behind, List.reverse_append, List.count_append]
  by_cases hc : c = '\n'
  · subst hc
    simp [behind, after]
  · simp [behind, after, hc]

/-- Further text leads on from the place behind the text in front of it. -/
theorem behind_append (cs ds : List Char) : behind (cs ++ ds) = (behind cs).advance ds := by
  induction ds generalizing cs with
  | nil => rw [List.append_nil]; rfl
  | cons d ds ih =>
    rw [List.append_cons, ih, behind_append_singleton]
    rfl

theorem advance_of_eq_behind (hp : p = behind cs) (ds : List Char) :
    p.advance ds = behind (cs ++ ds) := by
  rw [hp, behind_append]

theorem behind_lt_behind (hds : ds ≠ []) : behind cs < behind (cs ++ ds) := by
  rw [behind_append]
  exact lt_advance hds

end Position

end FlagScript
