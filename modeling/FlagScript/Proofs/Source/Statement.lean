import FlagScript.Proofs.Source.Translation

/-!
# Scripts of one statement

A script of a single plain expression, or of a single assignment to which a literal gives the value,
is read from every source that says its words, in whatever letter case names stand there.
-/

namespace FlagScript

/-! ## Reading words one by one -/

namespace Token

variable {cs rest : List Char} {w : Word} {ws : List Word}

theorem Reads.nil : Reads [] [] := ⟨[], .nil, rfl⟩

theorem Reads.blank (h : Reads cs ws) : Reads (' ' :: cs) ws := by
  obtain ⟨fs, hlexes, hfs⟩ := h
  exact ⟨fs, .layout (by decide) hlexes, hfs⟩

theorem Cut.reads (h : Cut cs rest w) (hrest : Reads rest ws) : Reads (cs ++ rest) (w :: ws) := by
  obtain ⟨fs, hlexes, hfs⟩ := hrest
  refine ⟨(w.kind, cs) :: fs, h.cutsOff.lexes hlexes, ?_⟩
  rw [List.map_cons, hfs, h.word?_eq, List.map_cons]

end Token

open Token (Reads)

/-! ## Tokens of an assignment -/

namespace Phrase

variable {t u v : Token} {op : AssignOp}

theorem statements_step (ht : t.kind = .identifier) (hu : u.kind = op.kind)
    (hop : op.takesValue = false) :
    Nesting.tooDeep? [t, u] = none ∧ statements [t, u] = .ok [.step t op] := by
  obtain ⟨k, cs, p⟩ := t
  obtain ⟨k', cs', p'⟩ := u
  subst ht hu
  cases op <;> cases hop <;> exact ⟨rfl, rfl⟩

theorem statements_assign (ht : t.kind = .identifier) (hu : u.kind = op.kind)
    (hop : op.takesValue = true) (hv : v.kind.isLiteral = true) :
    Nesting.tooDeep? [t, u, v] = none ∧
      statements [t, u, v] = .ok [.assign t op u.position (.literal v)] := by
  obtain ⟨k, cs, p⟩ := t
  obtain ⟨k', cs', p'⟩ := u
  obtain ⟨k'', cs'', p''⟩ := v
  subst ht hu
  cases k'' <;> cases hv <;> cases op <;> cases hop <;> exact ⟨rfl, rfl⟩

end Phrase

/-! ## Statements -/

namespace Script

open Phrase

variable {source name : String} {op : AssignOp} {e : Expr}

theorem parse_step (hop : op.takesValue = false)
    (h : Reads source.toList (Expr.step name op).words) :
    parse source = .ok [.step name op] := by
  obtain ⟨ts, hlex, hts⟩ := h.lex
  obtain ⟨t, us, rfl, ht, hus⟩ := exists_of_words_cons hts
  obtain ⟨u, vs, rfl, hu, hvs⟩ := exists_of_words_cons hus
  obtain rfl := List.map_eq_nil_iff.1 hvs
  obtain ⟨hid, rfl⟩ := name_of_word? ht
  obtain ⟨hdeep, hps⟩ := statements_step hid (Token.kind_of_word? hu).symm hop
  refine parse_eq_ok_iff.2 ⟨_, _, hlex, hdeep, hps, ?_⟩
  rw [meanings_cons_eq_ok_iff]
  exact ⟨_, _, by rw [meaning], by rw [meanings], rfl⟩

theorem parse_assign {v : Value} {quoted : Bool} (hop : op.takesValue = true)
    (hv : (Expr.literal v quoted).Plain)
    (h : Reads source.toList (Expr.assign name op (.literal v quoted)).words) :
    parse source = .ok [.assign name op (.literal v quoted)] := by
  obtain ⟨ts, hlex, hts⟩ := h.lex
  obtain ⟨t, us, rfl, ht, hus⟩ := exists_of_words_cons hts
  obtain ⟨u, vs, rfl, hu, hvs⟩ := exists_of_words_cons hus
  obtain ⟨w, ws, rfl, hw, hws⟩ := exists_of_words_cons hvs
  obtain rfl := List.map_eq_nil_iff.1 hws
  obtain ⟨hid, rfl⟩ := name_of_word? ht
  obtain ⟨hlit, hliteral⟩ := literal_of_word? hv hw
  obtain ⟨hdeep, hps⟩ := statements_assign hid (Token.kind_of_word? hu).symm hop hlit
  have hvalue : Phrase.meaning 2 (.literal w) = .ok (.literal v quoted) := by
    rw [meaning, hliteral, faultAt]
  have hassign : Phrase.meaning 1 (.assign t op u.position (.literal w)) =
      .ok (.assign t.name op (.literal v quoted)) :=
    meaning_assign_eq_ok_iff.2 ⟨by decide, _, hvalue, rfl⟩
  refine parse_eq_ok_iff.2 ⟨_, _, hlex, hdeep, hps, ?_⟩
  exact meanings_cons_eq_ok_iff.2 ⟨_, _, hassign, by rw [meanings], rfl⟩

/-- A plain expression is read from every source that says its words. -/
theorem parse_plain (he : e.Plain) (hnesting : e.nesting ≤ maxNesting)
    (h : Reads source.toList e.words) : parse source = .ok [e] := by
  obtain ⟨ts, hlex, hts⟩ := h.lex
  have hwords : ts.map Token.word? = (words [e]).map some := by
    rw [hts, words, List.flatMap_singleton]
  have hread := parse_of_words hlex hwords (by simp) (by simpa using he) (by simp)
  exact hread.1 (by simpa using hnesting)

/-- What is printed of a plain expression says its words. -/
theorem reads_plain (he : e.Plain) (hp : ∀ w ∈ e.words, w.Printable) :
    Reads e.source.toList e.words := by
  have hreads := reads_source [e] (by simpa using Expr.fits_of_plain he) (by simpa [words] using hp)
  rwa [words, List.flatMap_singleton] at hreads

end Script

end FlagScript
