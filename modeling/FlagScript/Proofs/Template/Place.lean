import FlagScript.Proofs.Position
import FlagScript.Proofs.Template.Derivation
import FlagScript.Proofs.Template.Offence

/-!
# Where conditions stand

A template asks in the order in which its directives are met on the way through the source. `Placed`
goes along this way and keeps the text that was passed, which says at which place a directive has to
stand. So the places of the questions increase, and at each of them stands the directive with the
keyword and the condition of the question (`questions_stand`).
-/

namespace FlagScript

namespace Question

open Template (IsGap Writes WritesElseIf ConditionText)

/-- The keyword of a first clause, or of a further one. -/
def WrittenBy (q : Question) (keyword : List Char) : Prop :=
  if q.opens then Writes ['I', 'F'] keyword else WritesElseIf keyword

/-- The directive of a question stands in front: a keyword, and the text of the condition up to the
first brackets behind it. -/
def Begins (q : Question) (cs : List Char) : Prop :=
  ∃ gap keyword text rest,
    cs = '$' :: '[' :: '[' :: (gap ++ (keyword ++ (text ++ ']' :: ']' :: rest))) ∧
    IsGap gap ∧ q.WrittenBy keyword ∧ ConditionText text ∧
    q.condition = .raw (String.ofList (Text.trim text))

/-- The directive of a question stands in what is left of a source behind the text `front`, at the
place of the question. -/
def StandsBehind (front : List Char) (q : Question) (cs : List Char) : Prop :=
  ∃ passed rest, cs = passed ++ rest ∧ q.position = .behind (front ++ passed) ∧ q.Begins rest

theorem StandsBehind.append {q : Question} {front ds rest : List Char}
    (h : q.StandsBehind (front ++ ds) rest) : q.StandsBehind front (ds ++ rest) := by
  obtain ⟨passed, rest, rfl, hplace, hbegins⟩ := h
  refine ⟨ds ++ passed, rest, by rw [List.append_assoc], ?_, hbegins⟩
  rw [hplace, List.append_assoc]

end Question

namespace Template

/-! ## Questions that items ask -/

variable {items : List Item} {p : Position} {d : Directive} {q : Question}
  {cs ds front rest : List Char}

def Piece.question? (piece : Piece) : Option Question := piece.part?.bind Part.question?

def Item.question? : Item → Option Question
  | .directive p d => (Piece.directive p d).question?
  | _ => none

theorem filterMap_addChar (c : Char) (pieces : List Piece) :
    (addChar c pieces).filterMap Piece.question? = pieces.filterMap Piece.question? := by
  unfold addChar
  split <;> rfl

theorem filterMap_gather (items : List Item) :
    (gather items).filterMap Piece.question? = items.filterMap Item.question? := by
  induction items with
  | nil => rfl
  | cons x xs ih =>
    cases x with
    | char c => rw [gather, filterMap_addChar, ih]; rfl
    | flag name => exact ih
    | malformed p => exact ih
    | directive p d => rw [gather, List.filterMap_cons, List.filterMap_cons, ih]; rfl

/-- A template asks what the items ask that it is derived from. -/
theorem Blocks.questions {t : Template} (h : Blocks items t) :
    questions t = items.filterMap Item.question? := by
  have hsaid := congrArg (List.filterMap (·.bind Part.question?)) (blocks_iff_saying.1 h)
  rw [List.filterMap_map, List.filterMap_map] at hsaid
  rw [← filterMap_gather, Template.questions]
  exact hsaid.symm

/-- A directive that asks is the one that its question says. -/
theorem Directive.Written.begins (h : d.Written ds) (hq : (Item.directive p d).question? = some q)
    (rest : List Char) : q.position = p ∧ q.Begins ('$' :: '[' :: '[' :: (ds ++ rest)) := by
  obtain ⟨gap, cs, hgap, hspelled, rfl⟩ := h
  cases hspelled with
  | openIf hword htext =>
    cases hq
    exact ⟨rfl, gap, _, _, rest, by simp, hgap, hword, htext, rfl⟩
  | elseIf hword htext =>
    cases hq
    exact ⟨rfl, gap, _, _, rest, by simp, hgap, hword, htext, rfl⟩
  | otherwise => cases hq
  | endIf => cases hq

/-! ## The way through a source -/

/-- Questions whose directives stand one behind the other in a source, behind the text `front` of
it. -/
inductive Placed : List Char → List Char → List Question → Prop where
  | nil {front cs : List Char} : Placed front cs []
  | skip {front rest : List Char} {qs : List Question} (ds : List Char)
      (h : Placed (front ++ ds) rest qs) : Placed front (ds ++ rest) qs
  | question {front rest : List Char} {q : Question} {qs : List Question} (ds : List Char)
      (hplace : q.position = .behind front) (hbegins : q.Begins (ds ++ rest)) (hne : ds ≠ [])
      (h : Placed (front ++ ds) rest qs) : Placed front (ds ++ rest) (q :: qs)

theorem Scans.placed (h : Scans p cs items) (hp : p = .behind front) :
    Placed front cs (items.filterMap Item.question?) := by
  induction h generalizing front with
  | nil | backslash | malformed => exact .nil
  | @escape p c cs xs _ ih =>
    exact .skip ['\\', c] (ih (Position.advance_of_eq_behind hp ['\\', c]))
  | @flag p name rest cs xs heq _ _ _ _ ih =>
    rw [heq]
    exact .skip ('$' :: name) (ih (Position.advance_of_eq_behind hp ('$' :: name)))
  | @directive p d ds rest cs xs heq hd _ ih =>
    have hrest := ih (Position.advance_of_eq_behind hp ('$' :: '[' :: '[' :: ds))
    subst heq
    cases hq : (Item.directive p d).question? with
    | none =>
      -- a directive without a condition is passed as text is
      rw [List.filterMap_cons_none hq]
      exact .skip ('$' :: '[' :: '[' :: ds) hrest
    | some q =>
      obtain ⟨hplace, hbegins⟩ := hd.begins hq rest
      rw [List.filterMap_cons_some hq]
      exact .question ('$' :: '[' :: '[' :: ds) (hplace.trans hp) hbegins (by simp) hrest
  | @char p c cs xs _ _ _ ih => exact .skip [c] (ih (Position.advance_of_eq_behind hp [c]))

namespace Placed

variable {qs : List Question}

theorem standsBehind (h : Placed front cs qs) : ∀ q ∈ qs, q.StandsBehind front cs := by
  induction h with
  | nil => simp
  | skip _ _ ih => exact fun q hq => (ih q hq).append
  | question _ hplace hbegins _ _ ih =>
    refine List.forall_mem_cons.2 ⟨?_, fun q hq => (ih q hq).append⟩
    exact ⟨[], _, rfl, by rw [hplace, List.append_nil], hbegins⟩

/-- The directive of a question was passed before the next one begins. -/
theorem increasing (h : Placed front cs qs) : (qs.map Question.position).Pairwise (· < ·) := by
  induction h with
  | nil => exact .nil
  | skip _ _ ih => exact ih
  | @question front rest q qs ds hplace _ hne h ih =>
    refine List.pairwise_cons.2 ⟨?_, ih⟩
    intro place hmem
    obtain ⟨r, hr, rfl⟩ := List.mem_map.1 hmem
    obtain ⟨passed, _, _, hplace', _⟩ := h.standsBehind r hr
    rw [hplace, hplace', List.append_assoc]
    exact Position.behind_lt_behind (by simp [hne])

end Placed

/-- The conditions of a template stand in its source one behind the other, each at the place that
its clause holds. There the source goes on with `$[[`, perhaps layout, the keyword of a first clause
of a branch or of a further one, and the text up to the next closing brackets, of which the
condition is what is left without the blanks at its ends. -/
theorem questions_stand {source : String} {t : Template} (h : parseLazy source = .ok t) :
    ((questions t).map Question.position).Pairwise (· < ·) ∧
      ∀ q ∈ questions t, ∃ front rest, source.toList = front ++ rest ∧
        q.position = .behind front ∧ q.Begins rest := by
  obtain ⟨items, hscans⟩ := exists_scans .start source.toList
  have hblocks := (parseLazy_eq_ok_iff hscans).1 h
  have hstart : Position.start = .behind [] := rfl
  have hplaced := hscans.placed hstart
  rw [← hblocks.questions] at hplaced
  exact ⟨hplaced.increasing, hplaced.standsBehind⟩

/-- A branch on the second line, and in its further clause another one behind a line end. -/
theorem questions_stand_nested :
    let source := "é\n$[[ if $A]]$[[else\tIF ]]\n$[[IF $B[1] ]]$[[ENDIF]]$[[ENDIF]]"
    ∃ t, parseLazy source = .ok t ∧
      (questions t).map Question.position = [⟨2, 1⟩, ⟨2, 12⟩, ⟨3, 1⟩] ∧
      ((questions t).map Question.position).Pairwise (· < ·) ∧
      ∀ q ∈ questions t, ∃ front rest, source.toList = front ++ rest ∧
        q.position = .behind front ∧ q.Begins rest := by
  intro source
  obtain ⟨t, h, hplaces⟩ : ∃ t, parseLazy source = .ok t ∧
      (questions t).map Question.position = [⟨2, 1⟩, ⟨2, 12⟩, ⟨3, 1⟩] := by decide +kernel
  exact ⟨t, h, hplaces, questions_stand h⟩

end Template

end FlagScript
