import FlagScript.Proofs.Template.Printed

/-!
# Templates read back as they are printed

A template that was read has the parts that its source was cut into, with scripts for conditions,
and each of these is read again from its own source (`regular_of_parse`). So the printed template is
read again as the same template, but for the places of directives, exactly if none of its parts runs
into what stands behind it (`parse_printed`).
-/

namespace FlagScript

namespace Part

variable {x y : Part}

theorem text?_of_prepare (h : x.prepare = .ok y) : y.text? = x.text? := by
  obtain rfl | ⟨opens, p, c, c', rfl, rfl⟩ := prepare_eq_ok h <;> rfl

theorem text?_of_prepared {xs ys : List Part}
    (h : List.Forall₂ (fun x y => x.prepare = .ok y) xs ys) : ys.map text? = xs.map text? := by
  induction h with
  | nil => rfl
  | cons hprepare _ ih => rw [List.map_cons, List.map_cons, text?_of_prepare hprepare, ih]

/-- What is read of a part, where the floats of its condition read back. -/
theorem Regular.prepare (hx : x.Regular Condition.Unread) (h : x.prepare = .ok y)
    (hback : ∀ script ∈ y.script?, ∀ w ∈ script.words, w.ReadsBack) :
    y.Regular Condition.Rereads := by
  cases hx with
  | text hcs => cases h; exact .text hcs
  | flag hname => cases h; exact .flag hname
  | @clause opens p c hc =>
    obtain ⟨c', hc', rfl⟩ := prepare_clause_eq_ok_iff.1 h
    cases c with
    | parsed script => exact hc.elim
    | raw source =>
      obtain ⟨script, hscript, hharmless, rfl⟩ := Clause.prepare_raw_eq_ok_iff.1 hc'
      obtain ⟨hagain, htrim⟩ := Script.parseCondition_source hscript hc (hback script rfl)
      have hspelled := Script.spelled_of_parseCondition hscript (hback script rfl)
      exact .clause ⟨hagain, htrim, hharmless, hspelled⟩
  | otherwise => cases h; exact .otherwise
  | endIf => cases h; exact .endIf

theorem regular_of_prepared {xs ys : List Part}
    (h : List.Forall₂ (fun x y => x.prepare = .ok y) xs ys)
    (hxs : ∀ x ∈ xs, x.Regular Condition.Unread)
    (hback : ∀ y ∈ ys, ∀ script ∈ y.script?, ∀ w ∈ script.words, w.ReadsBack) :
    ∀ y ∈ ys, y.Regular Condition.Rereads := by
  induction h with
  | nil => simp
  | @cons x y xs ys hprepare _ ih =>
    rw [List.forall_mem_cons] at hxs hback ⊢
    exact ⟨hxs.1.prepare hprepare hback.1, ih hxs.2 hback.2⟩

end Part

namespace Template

/-- All conditions of a template that were read. -/
def scripts (t : Template) : List Script := (parts t).filterMap Part.script?

/-- No flag stands in front of text that would go on with its name. -/
def FlagsApart (t : Template) : Prop := (parts t).IsChain Part.NameEnds

instance (t : Template) : Decidable (FlagsApart t) :=
  inferInstanceAs (Decidable ((parts t).IsChain Part.NameEnds))

/-- The parts of a template that was read are as they are read, and no two texts among them are
neighbours. -/
theorem regular_of_parse {source : String} {t : Template} (h : parse source = .ok t)
    (hback : ∀ script ∈ scripts t, ∀ w ∈ script.words, w.ReadsBack) :
    (∀ y ∈ parts t, y.Regular Condition.Rereads) ∧ NoTwoTexts ((parts t).map Part.text?) := by
  obtain ⟨raw, hraw, hprepare⟩ := bind_eq_ok_iff.1 h
  obtain ⟨hregular, htexts⟩ := regular_of_parseLazy hraw
  have hprepared := prepareBlocks_eq_ok_iff.1 ⟨t, hprepare, rfl⟩
  refine ⟨Part.regular_of_prepared hprepared hregular fun y hy script hscript => ?_, ?_⟩
  · exact hback script (List.mem_filterMap.2 ⟨y, hy, hscript⟩)
  · rwa [Part.text?_of_prepared hprepared]

/-- A template that was read, with all floats in its conditions reading back, is read again from its
own source, but for the places of directives, exactly if no text goes on with the name of a flag in
front of it and no condition ends its own directive. -/
theorem parse_printed {source : String} {t : Template} (h : parse source = .ok t)
    (hback : ∀ script ∈ scripts t, ∀ w ∈ script.words, w.ReadsBack) :
    (∃ t', parse (Template.source t) = .ok t' ∧ t'.unplaced = t.unplaced) ↔
      FlagsApart t ∧ ∀ script ∈ scripts t, script.Enclosable := by
  obtain ⟨hregular, htexts⟩ := regular_of_parse h hback
  have hscripts : (∀ y ∈ parts t, ∀ script ∈ y.script?, script.Enclosable) ↔
      ∀ script ∈ scripts t, script.Enclosable := by
    simp only [scripts, List.mem_filterMap, Option.mem_def]
    constructor
    · rintro hall script ⟨y, hy, hscript⟩
      exact hall y hy script hscript
    · intro hall y hy script hscript
      exact hall script ⟨y, hy, hscript⟩
  rw [parse_unplaced_iff, toList_source, readsAs_cut_source_iff hregular htexts, hscripts,
    FlagsApart]

/-- A float, brackets within the texts of conditions, a blank condition, escapes in text and an
ELSE. -/
theorem parse_printed_of_brackets :
    ∃ t t',
      parse "\\$$a-$[[if 1.50 > [x] y]]$[[if]]\\\\$[[endif]]$[[elif @]@]]$[[else]]z$[[endif]]" =
        .ok t ∧
        parse (Template.source t) = .ok t' ∧ t'.unplaced = t.unplaced := by
  obtain ⟨t, h, hback, henclosable, hflags⟩ : ∃ t,
      parse "\\$$a-$[[if 1.50 > [x] y]]$[[if]]\\\\$[[endif]]$[[elif @]@]]$[[else]]z$[[endif]]" =
        .ok t ∧
        (∀ script ∈ scripts t, ∀ w ∈ script.words, w.ReadsBack) ∧
        (∀ script ∈ scripts t, script.Enclosable) ∧ FlagsApart t := by
    decide +kernel
  obtain ⟨t', ht', hsame⟩ := (parse_printed h hback).2 ⟨hflags, henclosable⟩
  exact ⟨t, t', h, ht', hsame⟩

/-- Text behind a flag that goes on with its name is read as part of the name, and a condition that
ends with a bracket loses it to the text behind its directive. -/
theorem parse_printed_loses :
    (∃ t t', parse "$A\\b" = .ok t ∧ (∀ script ∈ scripts t, ∀ w ∈ script.words, w.ReadsBack) ∧
      parse (Template.source t) = .ok t' ∧ t'.unplaced ≠ t.unplaced) ∧
    ∃ t t', parse "$[[IF a] ]]x$[[ENDIF]]" = .ok t ∧
      (∀ script ∈ scripts t, ∀ w ∈ script.words, w.ReadsBack) ∧
      parse (Template.source t) = .ok t' ∧ t'.unplaced ≠ t.unplaced := by
  -- the texts of the two templates differ
  constructor
  · obtain ⟨t, h, hback, t', ht', htexts⟩ : ∃ t, parse "$A\\b" = .ok t ∧
        (∀ script ∈ scripts t, ∀ w ∈ script.words, w.ReadsBack) ∧
        ∃ t', parse (Template.source t) = .ok t' ∧
          (parts t'.unplaced).map Part.text? ≠ (parts t.unplaced).map Part.text? := by
      decide +kernel
    exact ⟨t, t', h, hback, ht', fun hsame => htexts (by rw [hsame])⟩
  · obtain ⟨t, h, hback, t', ht', htexts⟩ : ∃ t, parse "$[[IF a] ]]x$[[ENDIF]]" = .ok t ∧
        (∀ script ∈ scripts t, ∀ w ∈ script.words, w.ReadsBack) ∧
        ∃ t', parse (Template.source t) = .ok t' ∧
          (parts t'.unplaced).map Part.text? ≠ (parts t.unplaced).map Part.text? := by
      decide +kernel
    exact ⟨t, t', h, hback, ht', fun hsame => htexts (by rw [hsame])⟩

end Template

end FlagScript
