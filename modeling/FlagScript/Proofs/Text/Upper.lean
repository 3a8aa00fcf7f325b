import FlagScript.Text.Upper
import Mathlib.Data.List.Basic

/-!
# Upper case twice

What is in upper case stays as it is (`upper_upper`). Of the table this takes that no run covers a
character that a run maps to, nor one of a longer form, and that none of these has a longer form; it
is looked up run by run, and not character by character.
-/

namespace FlagScript.Text

namespace CaseRun

/-- The number that a run maps a number to. -/
def image (r : CaseRun) (n : Nat) : Nat := ((n : Int) + r.shift).toNat

/-- The number lies on one side of what the run covers, or between two characters of it. -/
def avoids (q : CaseRun) (n : Nat) : Bool :=
  Nat.blt n q.first || (Nat.blt q.last n || Nat.beq q.step 2 && Nat.beq ((n + q.first) % 2) 1)

/-- All that the run `r` maps to lies on one side of what `q` covers, or between characters of
it. -/
def misses (r q : CaseRun) : Bool :=
  Nat.blt (r.image r.last) q.first || (Nat.blt q.last (r.image r.first) ||
    Nat.beq q.step 2 && (Nat.beq r.step 2 || Nat.beq r.first r.last) &&
      Nat.beq ((r.image r.first + q.first) % 2) 1)

/-- The run maps to characters, and those of ASCII are capital letters. -/
def isSound (r : CaseRun) : Bool :=
  0 ≤ (r.first : Int) + r.shift &&
    (r.image r.last < 97 || 128 ≤ r.image r.first && r.image r.last < 0xD800 ||
      0xDFFF < r.image r.first && r.image r.last < 0x110000)

variable {r q : CaseRun} {n : Nat}

theorem covers_iff : r.covers n = true ↔ r.first ≤ n ∧ n ≤ r.last ∧ (n - r.first) % r.step = 0 := by
  simp [covers, and_assoc]

theorem covers_eq_false_of_avoids (h : q.avoids n = true) : q.covers n = false := by
  rw [← Bool.not_eq_true, covers_iff]
  simp only [avoids, Bool.or_eq_true, Bool.and_eq_true, Nat.blt_eq, Nat.beq_eq] at h
  rintro ⟨hfirst, hlast, hstep⟩
  rcases h with h | h | ⟨h, hodd⟩
  · omega
  · omega
  · rw [h] at hstep
    omega

theorem image_bounds (h : r.covers n = true) (hsound : r.isSound = true) :
    r.image r.first ≤ r.image n ∧ r.image n ≤ r.image r.last ∧
      (r.image n : Int) = n + r.shift ∧ (r.image r.first : Int) = r.first + r.shift := by
  obtain ⟨hfirst, hlast, _⟩ := covers_iff.1 h
  simp only [isSound, Bool.and_eq_true, decide_eq_true_eq] at hsound
  obtain ⟨hpos, _⟩ := hsound
  unfold image
  omega

/-- What the run `r` maps to is not covered by a run that it misses. -/
theorem covers_image_eq_false (hn : r.covers n = true) (hsound : r.isSound = true)
    (h : r.misses q = true) : q.covers (r.image n) = false := by
  obtain ⟨hlow, hhigh, himage, hstart⟩ := image_bounds hn hsound
  obtain ⟨hfirst, hlast, hstep⟩ := covers_iff.1 hn
  apply covers_eq_false_of_avoids
  simp only [misses, avoids, Bool.or_eq_true, Bool.and_eq_true, Nat.blt_eq, Nat.beq_eq] at h ⊢
  rcases h with h | h | ⟨⟨hq, hr | hr⟩, hodd⟩
  · exact .inl (by omega)
  · exact .inr (.inl (by omega))
  · rw [hr] at hstep
    exact .inr (.inr ⟨hq, by omega⟩)
  · exact .inr (.inr ⟨hq, by omega⟩)

/-- What a sound run maps to is a character, and no small letter of ASCII. -/
theorem toNat_ofNat_image (hn : r.covers n = true) (hsound : r.isSound = true) :
    (Char.ofNat (r.image n)).toNat = r.image n ∧ (r.image n < 97 ∨ 128 ≤ r.image n) := by
  obtain ⟨hlow, hhigh, _, _⟩ := image_bounds hn hsound
  simp only [isSound, Bool.and_eq_true, Bool.or_eq_true, decide_eq_true_eq] at hsound
  obtain ⟨_, hsound⟩ := hsound
  have hvalid : (r.image n).isValidChar := by
    unfold Nat.isValidChar
    omega
  refine ⟨?_, by omega⟩
  rw [Char.ofNat, dif_pos hvalid]
  rfl

end CaseRun

/-! ## The table -/

theorem isSound_caseRuns : caseRuns.all CaseRun.isSound = true := by decide +kernel

theorem misses_caseRuns : (caseRuns.all fun r => caseRuns.all r.misses) = true := by
  decide +kernel

/-- No run maps to a character with a longer form. -/
theorem misses_longUpper : (caseRuns.all fun r => longUpper.all fun e =>
    Nat.blt e.1.toNat (r.image r.first) || Nat.blt (r.image r.last) e.1.toNat) = true := by
  decide +kernel

/-- The characters of the longer forms are not covered by a run. -/
theorem avoids_longUpper : (longUpper.all fun e => e.2.toList.all fun c =>
    caseRuns.all fun q => q.avoids c.toNat) = true := by
  decide +kernel

/-- Nor do they have a longer form themselves, or are small letters of ASCII. -/
theorem short_longUpper : (longUpper.all fun e => e.2.toList.all fun c =>
    (Nat.blt c.toNat 97 || Nat.ble 128 c.toNat) &&
      longUpper.all fun e' => !Nat.beq e'.1.toNat c.toNat) = true := by
  decide +kernel

/-! ## Characters that stay as they are -/

variable {c d : Char}

/-- What no run covers and no longer form is for, and no small letter of ASCII, stays as it is. -/
theorem upperChar_eq_self (hascii : c.toNat < 97 ∨ 128 ≤ c.toNat)
    (hlong : ∀ e ∈ longUpper, e.1.toNat ≠ c.toNat)
    (hruns : ∀ q ∈ caseRuns, q.covers c.toNat = false) : upperChar c = [c] := by
  unfold upperChar
  split
  next hlow =>
    have hall : ∀ n : Fin 97, (Char.ofNat n).toUpper = Char.ofNat n := by decide
    have hn := hall ⟨c.toNat, by omega⟩
    simp only [Char.ofNat_toNat] at hn
    rw [hn]
  next =>
    have hlookup : longUpper.lookup c = none := by
      rw [List.lookup_eq_none_iff]
      intro e he
      simp only [bne_iff_ne, ne_eq]
      rintro rfl
      exact hlong e he rfl
    have hfind : caseRuns.find? (·.covers c.toNat) = none := by
      rw [List.find?_eq_none]
      intro q hq
      simp [hruns q hq]
    rw [upperBeyondAscii, hlookup]
    simp only [hfind]

/-- What a run maps to stays as it is. -/
theorem upperChar_image {r : CaseRun} {n : Nat} (hr : r ∈ caseRuns) (hn : r.covers n = true) :
    upperChar (Char.ofNat (r.image n)) = [Char.ofNat (r.image n)] := by
  have hsound := List.all_eq_true.1 isSound_caseRuns r hr
  obtain ⟨hlow, hhigh, _, _⟩ := CaseRun.image_bounds hn hsound
  obtain ⟨htoNat, hascii⟩ := CaseRun.toNat_ofNat_image hn hsound
  apply upperChar_eq_self
  · rwa [htoNat]
  · intro e he
    have hside := List.all_eq_true.1 (List.all_eq_true.1 misses_longUpper r hr) e he
    simp only [Bool.or_eq_true, Nat.blt_eq] at hside
    rw [htoNat]
    omega
  · intro q hq
    rw [htoNat]
    exact CaseRun.covers_image_eq_false hn hsound
      (List.all_eq_true.1 (List.all_eq_true.1 misses_caseRuns r hr) q hq)

/-- The characters of a longer form stay as they are. -/
theorem upperChar_long {e : Char × String} (he : e ∈ longUpper) (hd : d ∈ e.2.toList) :
    upperChar d = [d] := by
  have havoids := List.all_eq_true.1 (List.all_eq_true.1 avoids_longUpper e he) d hd
  have hshort := List.all_eq_true.1 (List.all_eq_true.1 short_longUpper e he) d hd
  rw [Bool.and_eq_true, Bool.or_eq_true, Nat.blt_eq, Nat.ble_eq] at hshort
  apply upperChar_eq_self hshort.1
  · intro e' he'
    have hne := List.all_eq_true.1 hshort.2 e' he'
    rw [Bool.not_eq_true'] at hne
    exact Nat.ne_of_beq_eq_false hne
  · intro q hq
    exact CaseRun.covers_eq_false_of_avoids (List.all_eq_true.1 havoids q hq)

/-- The upper-case form of a character is in upper case. -/
theorem upperChar_of_mem_upperChar (h : d ∈ upperChar c) : upperChar d = [d] := by
  unfold upperChar at h
  split at h
  next hascii =>
    have hall : ∀ n : Fin 128, upperChar (Char.ofNat n).toUpper = [(Char.ofNat n).toUpper] := by
      decide
    have hn := hall ⟨c.toNat, hascii⟩
    simp only [Char.ofNat_toNat] at hn
    rwa [List.mem_singleton.1 h]
  next hbeyond =>
    -- beyond the first 128 characters, the tables map their images to themselves
    unfold upperBeyondAscii at h
    split at h
    next s hlong =>
      obtain ⟨before, behind, hsplit, _⟩ := List.lookup_eq_some_iff.1 hlong
      have hmem : (c, s) ∈ longUpper := by simp [hsplit]
      exact upperChar_long hmem h
    next hlong =>
      split at h
      next r hfind =>
        have hcovers := List.find?_some hfind
        rw [List.mem_singleton.1 h]
        exact upperChar_image (List.mem_of_find?_eq_some hfind) hcovers
      next hfind =>
        rw [List.mem_singleton.1 h, upperChar, if_neg hbeyond, upperBeyondAscii, hlong]
        simp only [hfind]

/-- What is in upper case stays as it is. -/
theorem upper_upper (s : String) : upper (upper s) = upper s := by
  have hfixed : ∀ cs : List Char, (∀ c ∈ cs, upperChar c = [c]) → cs.flatMap upperChar = cs := by
    intro cs
    induction cs with
    | nil => intro _; rfl
    | cons c cs ih =>
      intro h
      rw [List.forall_mem_cons] at h
      rw [List.flatMap_cons, h.1, ih h.2, List.singleton_append]
  have hchars : ∀ d ∈ s.toList.flatMap upperChar, upperChar d = [d] := by
    intro d hd
    obtain ⟨c, _, hc⟩ := List.mem_flatMap.1 hd
    exact upperChar_of_mem_upperChar hc
  rw [upper, upper, String.toList_ofList, hfixed _ hchars]

end FlagScript.Text
