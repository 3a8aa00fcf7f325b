import FlagScript.Proofs.Source.Ends
import FlagScript.Proofs.Template.Parts
import Mathlib.Data.List.Chain

/-!
# Cutting a source into pieces

Text is gathered up to what is no text, and each piece is cut off behind those in front
(`exists_cutFrom_append`). So the pieces of any source are trimmed, and no two texts among them are
neighbours (`neat_cut`); the same holds of the parts that a template was read from (`Neat.parts`).
-/

namespace FlagScript

namespace Template

variable {done : List Piece} {text : List Char} {p : Position} {cs rest : List Char}

/-! ## One step of the cut -/

theorem cutFrom_nil : cutFrom done text p [] = (addText text done).reverse := by rw [cutFrom]

theorem cutFrom_escape (c : Char) :
    cutFrom done text p ('\\' :: c :: cs) =
      cutFrom done (c :: text) ((p.after '\\').after c) cs := by
  rw [cutFrom]

theorem cutFrom_char {c : Char} (hescape : c ≠ '\\') (hflag : c ≠ '$') :
    cutFrom done text p (c :: cs) = cutFrom done (c :: text) (p.after c) cs := by
  rw [cutFrom.eq_def]
  split <;> simp_all

theorem cutFrom_name {name : List Char} (hname : cs.takeWhile Token.isNameChar = name)
    (hne : name ≠ []) :
    cutFrom done text p ('$' :: cs) =
      cutFrom (.flag (Text.upper (String.ofList name)) :: addText text done) []
        (p.advance ('$' :: name)) (cs.drop name.length) := by
  subst hname
  rw [cutFrom.eq_def]
  split
  next h => cases h
  next h => cases h
  next h => cases h
  next cs' h =>
    -- a name does not begin with a bracket
    cases h
    exact absurd (List.takeWhile_cons_of_neg (by decide)) hne
  next cs' _ h =>
    cases h
    simp only
    rw [if_neg (by simpa using hne)]
  next c cs' _ _ hc h =>
    cases h
    exact absurd rfl hc

theorem cutFrom_directive {d : Directive} {n : Nat} (h : directive? cs = some (d, n)) :
    cutFrom done text p ('$' :: '[' :: '[' :: cs) =
      cutFrom (.directive p d :: addText text done) []
        (p.advance ('$' :: '[' :: '[' :: cs.take n)) (cs.drop n) := by
  rw [cutFrom, h]

/-- What was cut off before stands in front of all that is cut off later. -/
theorem exists_cutFrom_append (done : List Piece) (text : List Char) (p : Position)
    (cs : List Char) : ∃ pieces, cutFrom done text p cs = done.reverse ++ pieces := by
  have hadd : ∀ (text : List Char) (done : List Piece),
      ∃ pieces, (addText text done).reverse = done.reverse ++ pieces := by
    intro text done
    unfold addText
    split
    · exact ⟨[], by rw [List.append_nil]⟩
    · exact ⟨[.text text.reverse], by rw [List.reverse_cons]⟩
  have hpiece : ∀ (piece : Piece) (text : List Char) (done pieces : List Piece),
      ∃ pieces', (piece :: addText text done).reverse ++ pieces = done.reverse ++ pieces' := by
    intro piece text done pieces
    obtain ⟨pieces', hpieces⟩ := hadd text done
    exact ⟨pieces' ++ piece :: pieces, by rw [List.reverse_cons, hpieces]; simp⟩
  -- what is already cut only ever gets pieces behind it
  fun_induction cutFrom done text p cs with
  | case1 done text p => exact hadd text done
  | case2 done text p => exact hadd ('\\' :: text) done
  | case3 done text p c cs ih => exact ih
  | case4 done text p cs _ =>
    obtain ⟨pieces, hpieces⟩ := hpiece (.malformed p) text done []
    exact ⟨pieces, by rw [← hpieces, List.append_nil]⟩
  | case5 done text p cs d n _ ih =>
    obtain ⟨pieces, hpieces⟩ := ih
    rw [hpieces]
    exact hpiece (.directive p d) text done pieces
  | case6 done text p cs _ name _ ih => exact ih
  | case7 done text p cs _ name _ ih =>
    obtain ⟨pieces, hpieces⟩ := ih
    rw [hpieces]
    exact hpiece (.flag (Text.upper (String.ofList name))) text done pieces
  | case8 done text p c cs _ _ _ _ ih => exact ih

end Template

/-! ## Pieces as they are cut off -/

namespace Part

/-- A part with a text, a name or a condition as they are read. -/
inductive Regular (P : Condition → Prop) : Part → Prop where
  | text {cs : List Char} (h : cs ≠ []) : Regular P (.text (.ofText cs))
  | flag {name : String} (h : Token.IsName name) : Regular P (.flag name)
  | clause {opens : Bool} {p : Position} {c : Condition} (h : P c) : Regular P (.clause opens p c)
  | otherwise : Regular P .otherwise
  | endIf : Regular P .endIf

/-- The text of a part that is one. -/
def text? : Part → Option TextBlock
  | text t => some t
  | _ => none

end Part

/-- A condition that is still to be read, with no blanks at its ends. -/
def Condition.Unread : Condition → Prop
  | raw source => Text.trim source.toList = source.toList
  | parsed _ => False

namespace Template

/-- Of no two neighbours both are texts. -/
def NoTwoTexts (texts : List (Option TextBlock)) : Prop :=
  texts.IsChain fun a b => a = none ∨ b = none

def Piece.text? (piece : Piece) : Option TextBlock := piece.part?.bind Part.text?

/-- Pieces, in one order or the other, as they are cut off. -/
structure Neat (pieces : List Piece) : Prop where
  regular : ∀ piece ∈ pieces, ∀ x ∈ piece.part?, x.Regular Condition.Unread
  apart : NoTwoTexts (pieces.map Piece.text?)

namespace Neat

variable {pieces : List Piece} {piece : Piece}

theorem nil : Neat [] := ⟨by simp, .nil⟩

theorem cons (h : Neat pieces) (hpiece : ∀ x ∈ piece.part?, x.Regular Condition.Unread)
    (htext : piece.text? = none ∨ ∀ a ∈ pieces.head?, a.text? = none) : Neat (piece :: pieces) where
  regular := List.forall_mem_cons.2 ⟨hpiece, h.regular⟩
  apart := by
    refine List.isChain_cons.2 ⟨?_, h.apart⟩
    intro b hb
    rw [List.head?_map] at hb
    obtain ⟨a, ha, rfl⟩ := Option.map_eq_some_iff.1 hb
    exact htext.imp id fun hnone => hnone a ha

theorem reverse (h : Neat pieces) : Neat pieces.reverse where
  regular := fun piece hp => h.regular piece (List.mem_reverse.1 hp)
  apart := by
    rw [NoTwoTexts, List.map_reverse, List.isChain_reverse]
    exact h.apart.imp fun _ _ hnone => hnone.symm

/-- The text read so far is added to pieces that do not end with text. -/
theorem addText {text : List Char} (h : Neat pieces)
    (hhead : ∀ a ∈ pieces.head?, a.text? = none) : Neat (addText text pieces) := by
  unfold Template.addText
  split
  next => exact h
  next hne =>
    refine h.cons ?_ (.inr hhead)
    intro x hx
    cases hx
    exact .text (by simpa using hne)

end Neat

/-- The condition of a directive is cut off without the blanks around it. -/
theorem conditionTo?_trim {condition : String} {n : Nat}
    (h : conditionTo? cs = some (condition, n)) :
    Text.trim condition.toList = condition.toList := by
  obtain ⟨k, _, hk⟩ := Option.map_eq_some_iff.1 h
  cases hk
  rw [String.toList_ofList, Text.trim_trim]

theorem regular_of_directive? {d : Directive} {n : Nat} (h : directive? cs = some (d, n)) :
    ∀ x ∈ (Piece.directive p d).part?, x.Regular Condition.Unread := by
  obtain ⟨⟨d', k⟩, hhere, hd⟩ := Option.map_eq_some_iff.1 h
  cases hd
  unfold directiveHere? at hhere
  split at hhere
  next =>
    obtain ⟨⟨condition, m⟩, hcondition, hd⟩ := Option.map_eq_some_iff.1 hhere
    cases hd
    intro x hx
    cases hx
    exact .clause (conditionTo?_trim hcondition)
  next =>
    split at hhere
    next =>
      obtain ⟨⟨condition, m⟩, hcondition, hd⟩ := Option.map_eq_some_iff.1 hhere
      cases hd
      intro x hx
      cases hx
      exact .clause (conditionTo?_trim hcondition)
    next =>
      split at hhere
      next =>
        cases hhere
        intro x hx
        cases hx
        exact .otherwise
      next =>
        obtain ⟨m, _, hd⟩ := Option.map_eq_some_iff.1 hhere
        cases hd
        intro x hx
        cases hx
        exact .endIf

theorem text?_directive (p : Position) (d : Directive) : (Piece.directive p d).text? = none := by
  cases d <;> rfl

theorem neat_cutFrom (h : Neat done) (hhead : ∀ a ∈ done.head?, a.text? = none) :
    Neat (cutFrom done text p cs) := by
  -- characters are gathered; at the end and at whatever is no text, what was gathered is added
  fun_induction cutFrom done text p cs with
  | case1 => exact (h.addText hhead).reverse
  | case2 => exact (h.addText hhead).reverse
  | case3 done text p c cs ih => exact ih h hhead
  | case4 done text p cs hnone =>
    have hmalformed : ∀ x ∈ (Piece.malformed p).part?, x.Regular Condition.Unread := by rintro x ⟨⟩
    exact ((h.addText hhead).cons hmalformed (.inl rfl)).reverse
  | case5 done text p cs d n hd ih =>
    have htext := text?_directive p d
    refine ih ((h.addText hhead).cons (regular_of_directive? hd) (.inl htext)) ?_
    rintro a ⟨⟩
    exact htext
  | case6 done text p cs _ name _ ih => exact ih h hhead
  | case7 done text p cs _ name hname ih =>
    have hregular : ∀ x ∈ (Piece.flag (Text.upper (String.ofList name))).part?,
        x.Regular Condition.Unread := by
      rintro x ⟨⟩
      have hchars : ∀ c ∈ cs.takeWhile Token.isNameChar, Token.isNameChar c = true :=
        List.all_eq_true.1 List.all_takeWhile
      exact .flag (Token.isName_upper (by simpa using hname) hchars)
    refine ih ((h.addText hhead).cons hregular (.inl rfl)) ?_
    rintro a ⟨⟩
    rfl
  | case8 done text p c cs _ _ _ _ ih => exact ih h hhead

/-- Cutting any source gives parts that are not empty, with upper-case names and trimmed conditions,
and no two texts in a row. -/
theorem neat_cut (source : List Char) : Neat (cut source) := neat_cutFrom .nil (by simp)

/-- So are the parts that a template was read from. -/
theorem Neat.parts {pieces : List Piece} {xs : List Part} (h : Neat pieces)
    (hxs : pieces.map Piece.part? = xs.map some) :
    (∀ x ∈ xs, x.Regular Condition.Unread) ∧ NoTwoTexts (xs.map Part.text?) := by
  constructor
  · intro x hx
    have hmem : some x ∈ pieces.map Piece.part? := by
      rw [hxs]
      exact List.mem_map_of_mem hx
    obtain ⟨piece, hpiece, hpart⟩ := List.mem_map.1 hmem
    exact h.regular piece hpiece x hpart
  · have htexts : pieces.map Piece.text? = xs.map Part.text? := by
      have hbind := congrArg (List.map fun x => x.bind Part.text?) hxs
      rwa [List.map_map, List.map_map] at hbind
    rw [← htexts]
    exact h.apart

theorem regular_of_parseLazy {source : String} {t : Template} (h : parseLazy source = .ok t) :
    (∀ x ∈ parts t, x.Regular Condition.Unread) ∧ NoTwoTexts ((parts t).map Part.text?) := by
  obtain ⟨xs, hxs, hparts⟩ := parts_of_readFrom h
  obtain rfl : parts t = xs := hparts
  exact (neat_cut source.toList).parts hxs

end Template

end FlagScript
