import FlagScript.Proofs.Source.Brackets
import FlagScript.Proofs.Template.Cut
import FlagScript.Proofs.Template.Pieces

/-!
# Pieces of what is printed

The parts of a template are printed one behind the other, and cutting the source gives pieces that
are read as the same parts exactly if none of the parts runs into what stands behind it
(`readsAs_cut_source_iff`): text must not go on with the name of a flag in front, and a condition
must not end its own directive.
-/

namespace FlagScript

namespace Template

variable {done : List Piece} {text : List Char} {p : Position} {cs rest : List Char}

/-! ## Text -/

theorem cutFrom_escapeChar (done : List Piece) (text : List Char) (p : Position) (c : Char)
    (rest : List Char) :
    ∃ p', cutFrom done text p (escapeChar c ++ rest) = cutFrom done (c :: text) p' rest := by
  unfold escapeChar
  split
  next => exact ⟨_, cutFrom_escape c⟩
  next h =>
    simp only [Bool.or_eq_true, beq_iff_eq, not_or] at h
    exact ⟨_, cutFrom_char h.1 h.2⟩

/-- Text is read as it was before it was printed, whatever stands behind it. -/
theorem cutFrom_text (done : List Piece) (text : List Char) (p : Position) (cs rest : List Char) :
    ∃ p', cutFrom done text p (cs.flatMap escapeChar ++ rest) =
      cutFrom done (cs.reverse ++ text) p' rest := by
  -- of the place only that there is one is kept: escapes move what stands behind
  induction cs generalizing text p with
  | nil => exact ⟨p, rfl⟩
  | cons c cs ih =>
    obtain ⟨p₁, hc⟩ := cutFrom_escapeChar done text p c (cs.flatMap escapeChar ++ rest)
    obtain ⟨p₂, hcs⟩ := ih (c :: text) p₁
    exact ⟨p₂, by rw [List.flatMap_cons, List.append_assoc, hc, hcs]; simp⟩

/-! ## Directives -/

/-- A condition with a blank in front, unless it is empty. -/
def spaced (condition : List Char) : List Char :=
  if condition.isEmpty then [] else ' ' :: condition

theorem trim_spaced (cs : List Char) : Text.trim (spaced cs) = Text.trim cs := by
  unfold spaced
  split
  next h => rw [List.isEmpty_iff.1 h]
  next => exact Text.trim_cons_of_isBlank (by decide) cs

theorem count_spaced (cs : List Char) : (spaced cs).count ']' = cs.count ']' := by
  unfold spaced
  split
  next h => rw [List.isEmpty_iff.1 h]
  next => exact List.count_cons_of_ne (by decide)

end Template

namespace Enclosed

variable {cs : List Char} {c : Char}

theorem iff_bracketsApart : Enclosed cs ↔ Text.BracketsApart (cs ++ [']']) := by
  rw [Text.BracketsApart, List.isChain_append]
  constructor
  · intro h
    refine ⟨Text.bracketsApart_iff.2 h.inside, .singleton _, ?_⟩
    rintro b hb a _ ⟨rfl, _⟩
    exact h.last hb
  · rintro ⟨hinside, -, hend⟩
    exact ⟨Text.bracketsApart_iff.1 hinside, fun hb => hend ']' hb ']' rfl ⟨rfl, rfl⟩⟩

theorem cons_iff :
    Enclosed (c :: cs) ↔ (c = ']' → (cs ++ [']']).head? ≠ some ']') ∧ Enclosed cs := by
  rw [iff_bracketsApart, iff_bracketsApart, List.cons_append, Text.bracketsApart_cons_iff]

theorem spaced_iff : Enclosed (Template.spaced cs) ↔ Enclosed cs := by
  unfold Template.spaced
  split
  next h => rw [List.isEmpty_iff.1 h]
  next => rw [cons_iff, and_iff_right fun hblank => absurd hblank (by decide)]

end Enclosed

namespace Template

variable {done : List Piece} {text : List Char} {p : Position} {cs rest : List Char}

theorem closes_append_iff {c : Char} :
    closes (c :: cs ++ ']' :: ']' :: rest) = true ↔ c = ']' ∧ (cs ++ [']']).head? = some ']' := by
  cases cs with
  | nil =>
    unfold closes
    split <;> simp_all
  | cons d cs =>
    unfold closes
    split <;> simp_all

/-- A directive ends with the brackets behind its condition, or with brackets of the condition that
come first. -/
theorem closeDistance?_append (cs rest : List Char) :
    ∃ n, closeDistance? (cs ++ ']' :: ']' :: rest) = some n ∧ n ≤ cs.length ∧
      (Enclosed cs → n = cs.length) ∧ (¬Enclosed cs → (cs.take n).count ']' < cs.count ']') := by
  induction cs with
  | nil => exact ⟨0, rfl, Nat.le_refl _, fun _ => rfl, fun h => absurd ⟨by simp, by simp⟩ h⟩
  | cons c cs ih =>
    obtain ⟨n, hdistance, hn, henclosed, hless⟩ := ih
    rw [List.cons_append, closeDistance?, ← List.cons_append]
    -- either two brackets close the text here, or the search goes on behind this character
    by_cases hcloses : closes (c :: cs ++ ']' :: ']' :: rest) = true
    · obtain ⟨hc, hhead⟩ := closes_append_iff.1 hcloses
      refine ⟨0, if_pos hcloses, Nat.zero_le _, ?_, ?_⟩
      · exact fun h => absurd hhead ((Enclosed.cons_iff.1 h).1 hc)
      · intro _
        simp [hc]
    · have hcons : Enclosed (c :: cs) ↔ Enclosed cs := by
        rw [Enclosed.cons_iff, and_iff_right]
        exact fun hc hhead => hcloses (closes_append_iff.2 ⟨hc, hhead⟩)
      refine ⟨n + 1, by rw [if_neg hcloses, hdistance]; rfl, by simpa using hn, ?_, ?_⟩
      · intro h
        rw [henclosed (hcons.1 h), List.length_cons]
      · intro h
        have hcount := hless (mt hcons.2 h)
        rw [List.take_succ_cons, List.count_cons, List.count_cons]
        omega

/-- The condition of a printed directive is read whole, or with fewer brackets than were printed. -/
theorem conditionTo?_spaced (rest : List Char) (htrim : Text.trim cs = cs) :
    ∃ condition n, conditionTo? (spaced cs ++ ']' :: ']' :: rest) = some (condition, n) ∧
      (Enclosed cs → condition = String.ofList cs ∧ n = (spaced cs).length + 2) ∧
      (¬Enclosed cs → condition.toList.count ']' < cs.count ']') := by
  obtain ⟨n, hdistance, hn, henclosed, hless⟩ := closeDistance?_append (spaced cs) rest
  have htake : (spaced cs ++ ']' :: ']' :: rest).take n = (spaced cs).take n :=
    List.take_append_of_le_length hn
  refine ⟨String.ofList (Text.trim ((spaced cs).take n)), n + 2, ?_, ?_, ?_⟩
  · rw [conditionTo?, hdistance, Option.map_some, htake]
  · intro h
    rw [henclosed (Enclosed.spaced_iff.2 h), List.take_length, trim_spaced, htrim]
    exact ⟨rfl, rfl⟩
  · intro h
    have hcount := hless (mt Enclosed.spaced_iff.1 h)
    have hsub := (Text.trim_sublist ((spaced cs).take n)).count_le ']'
    rw [count_spaced] at hcount
    rw [String.toList_ofList]
    omega

/-- How the directive of a clause is printed. -/
def clauseWord (opens : Bool) : List Char :=
  if opens then ['I', 'F'] else ['E', 'L', 'S', 'E', ' ', 'I', 'F']

/-- What stands behind a keyword in a printed directive ends the keyword. -/
theorem keywordLength?_if (cs rest : List Char) :
    keywordLength? ['I', 'F'] ('I' :: 'F' :: (spaced cs ++ ']' :: ']' :: rest)) = some 2 := by
  unfold spaced
  split <;> rfl

theorem directive?_clauseWord (opens : Bool) (cs rest : List Char) :
    directive? (clauseWord opens ++ (spaced cs ++ ']' :: ']' :: rest)) =
      (conditionTo? (spaced cs ++ ']' :: ']' :: rest)).map fun (condition, n) =>
        (clauseDirective opens condition, (clauseWord opens).length + n) := by
  cases opens with
  | true =>
    show directive? ('I' :: 'F' :: (spaced cs ++ ']' :: ']' :: rest)) = _
    have hgap : layoutLength ('I' :: 'F' :: (spaced cs ++ ']' :: ']' :: rest)) = 0 := rfl
    simp only [directive?, hgap, List.drop_zero, directiveHere?, keywordLength?_if,
      List.drop_succ_cons, Option.map_map]
    congr 1
    funext ⟨condition, n⟩
    simp [clauseDirective, clauseWord]
  | false =>
    show directive? ('E' :: 'L' :: 'S' :: 'E' :: ' ' :: 'I' :: 'F' ::
      (spaced cs ++ ']' :: ']' :: rest)) = _
    have hgap : layoutLength ('E' :: 'L' :: 'S' :: 'E' :: ' ' :: 'I' :: 'F' ::
        (spaced cs ++ ']' :: ']' :: rest)) = 0 := rfl
    -- of the spellings of the keyword it is the one in two words, which is tried last
    have hif : keywordLength? ['I', 'F'] ('E' :: 'L' :: 'S' :: 'E' :: ' ' :: 'I' :: 'F' ::
        (spaced cs ++ ']' :: ']' :: rest)) = none := rfl
    have hone : keywordLength? ['E', 'L', 'S', 'E', 'I', 'F'] ('E' :: 'L' :: 'S' :: 'E' :: ' ' ::
        'I' :: 'F' :: (spaced cs ++ ']' :: ']' :: rest)) = none := rfl
    have hshort : keywordLength? ['E', 'L', 'I', 'F'] ('E' :: 'L' :: 'S' :: 'E' :: ' ' ::
        'I' :: 'F' :: (spaced cs ++ ']' :: ']' :: rest)) = none := rfl
    have htwo : elseIfLength? ('E' :: 'L' :: 'S' :: 'E' :: ' ' :: 'I' :: 'F' ::
        (spaced cs ++ ']' :: ']' :: rest)) = some 7 := by
      show (keywordLength? ['I', 'F'] ('I' :: 'F' :: (spaced cs ++ ']' :: ']' :: rest))).map
        (4 + 1 + ·) = some 7
      rw [keywordLength?_if]
      rfl
    simp only [directive?, hgap, List.drop_zero, directiveHere?, hif, hone, hshort, htwo,
      Option.none_or, List.drop_succ_cons, Option.map_map]
    congr 1
    funext ⟨condition, n⟩
    simp [clauseDirective, clauseWord]

theorem directive?_otherwise :
    directive? ('E' :: 'L' :: 'S' :: 'E' :: ']' :: ']' :: rest) = some (.otherwise, 6) := rfl

theorem directive?_endIf :
    directive? ('E' :: 'N' :: 'D' :: 'I' :: 'F' :: ']' :: ']' :: rest) = some (.endIf, 7) := rfl

end Template

/-! ## Parts that were read -/

/-- A condition that was read, found harmless, and is read again from its own source. -/
structure Script.Rereads (script : Script) : Prop where
  again : Script.parseCondition script.source = .ok script
  trim : Text.trim script.source.toList = script.source.toList
  harmless : Expr.firstEffectOf script = none
  spelled : ∀ w ∈ script.words, w.Spelled

def Condition.Rereads : Condition → Prop
  | raw _ => False
  | parsed script => script.Rereads

namespace Part

/-- The script of a condition that was read. -/
def script? : Part → Option Script
  | clause _ _ (.parsed script) => some script
  | _ => none

def isFlag : Part → Bool
  | flag _ => true
  | _ => false

/-- A flag does not stand in front of a text that goes on with its name. -/
def NameEnds (x y : Part) : Prop :=
  x.isFlag = true → ∀ t ∈ y.text?, ∀ c ∈ t.text.toList.head?, Token.isNameChar c = false

-- decided for the one character that is there, if any, and not for every character
instance : DecidableRel NameEnds := fun x y =>
  decidable_of_iff
    (x.isFlag = true → ∀ t ∈ y.text?, t.text.toList.head?.all (!Token.isNameChar ·) = true)
    (by simp only [NameEnds, Option.all_eq_true, Option.mem_def, Bool.not_eq_true'])

/-- Whether a printed part ends in front of the characters that stand behind it. -/
def Ends (rest : List Char) : Part → Prop
  | flag _ => ∀ c ∈ rest.head?, Token.isNameChar c = false
  | clause _ _ c => Enclosed (Template.conditionSource c).toList
  | _ => True

theorem source_clause (opens : Bool) (p : Position) (c : Condition) :
    (clause opens p c).source = '$' :: '[' :: '[' :: (Template.clauseWord opens ++
      (Template.spaced (Template.conditionSource c).toList ++ [']', ']'])) := by
  have hspaced : (if (Template.conditionSource c).isEmpty then ""
      else " " ++ Template.conditionSource c).toList =
        Template.spaced (Template.conditionSource c).toList := by
    by_cases hs : Template.conditionSource c = ""
    · rw [hs]
      rfl
    · simp [Template.spaced, hs]
  rw [source, Template.directiveSource]
  simp only [String.toList_append, hspaced]
  cases opens <;> simp [Template.clauseWord]

end Part

namespace Template

/-- A part is cut off as a piece, which is read as the part exactly if the part ends in front of
what stands behind it, and then nothing of that is cut off. -/
def CutsPart (y : Part) (rest : List Char) : Prop :=
  ∀ (done : List Piece) (text : List Char) (p : Position), ∃ piece p' rest',
    cutFrom done text p (y.source ++ rest) = cutFrom (piece :: addText text done) [] p' rest' ∧
      (piece.ReadsAs y ↔ y.Ends rest) ∧ (y.Ends rest → rest' = rest)

theorem upper_append_eq_iff {name : String} {more : List Char} (hname : Token.IsName name)
    (hmore : ∀ c ∈ more, Token.isNameChar c = true) :
    Text.upper (String.ofList (name.toList ++ more)) = name ↔ more = [] := by
  constructor
  · intro hupper
    have hlength := congrArg (fun s => s.toList.length) hupper
    rw [Token.upper_of_nameChars (List.forall_mem_append.2 ⟨hname.chars, hmore⟩)] at hlength
    simpa using hlength
  · rintro rfl
    rw [List.append_nil, String.ofList_toList, hname.upper]

/-- All name characters behind a flag become part of its name. -/
theorem cutsPart_flag {name : String} (hname : Token.IsName name) (rest : List Char) :
    CutsPart (.flag name) rest := by
  intro done text p
  obtain ⟨more, hmore⟩ : ∃ more, rest.takeWhile Token.isNameChar = more := ⟨_, rfl⟩
  have hends : (Part.flag name).Ends rest ↔ more = [] := by
    rw [← hmore]
    cases rest with
    | nil => simp [Part.Ends]
    | cons c rest => simp [Part.Ends, List.takeWhile_cons]
  have hchars : ∀ c ∈ more, Token.isNameChar c = true := by
    rw [← hmore]
    exact List.all_eq_true.1 List.all_takeWhile
  have htake : (name.toList ++ rest).takeWhile Token.isNameChar = name.toList ++ more := by
    rw [List.takeWhile_append_of_pos hname.chars, hmore]
  have hne : name.toList ++ more ≠ [] := List.append_ne_nil_of_left_ne_nil hname.nonempty more
  refine ⟨_, _, _, cutFrom_name htake hne, ?_, ?_⟩
  · rw [readsAs_flag_iff, upper_append_eq_iff hname hchars, hends]
  · intro h
    rw [hends.1 h, List.append_nil]
    exact List.drop_left

/-- A condition that ends its own directive is read with fewer brackets, so as another one. -/
theorem cutsPart_clause {script : Script} (h : script.Rereads) (opens : Bool) (q : Position)
    (rest : List Char) : CutsPart (.clause opens q (.parsed script)) rest := by
  intro done text p
  obtain ⟨condition, n, hcondition, henclosed, hless⟩ := conditionTo?_spaced rest h.trim
  have hdirective := directive?_clauseWord opens script.source.toList rest
  rw [hcondition, Option.map_some] at hdirective
  have hsource : (Part.clause opens q (.parsed script)).source ++ rest = '$' :: '[' :: '[' ::
      (clauseWord opens ++ (spaced script.source.toList ++ ']' :: ']' :: rest)) := by
    rw [Part.source_clause]
    simp [conditionSource]
  rw [hsource]
  refine ⟨_, _, _, cutFrom_directive hdirective, ?_, ?_⟩
  · rw [readsAs_clause_iff]
    constructor
    · -- a condition that is cut short has lost a bracket, and printing one never adds brackets
      rintro ⟨hread, _⟩
      by_contra hnot
      have hcount := Script.count_conditionSource_le hread h.spelled
      have hfewer := hless hnot
      omega
    · intro hends
      obtain ⟨rfl, _⟩ := henclosed hends
      rw [String.ofList_toList]
      exact ⟨h.again, h.harmless⟩
  · intro hends
    obtain ⟨_, rfl⟩ := henclosed hends
    have hsplit : clauseWord opens ++ (spaced script.source.toList ++ ']' :: ']' :: rest) =
        clauseWord opens ++ (spaced script.source.toList ++ [']', ']']) ++ rest := by simp
    rw [hsplit]
    exact List.drop_left' (by simp)

theorem cutsPart_of_regular {y : Part} (h : y.Regular Condition.Rereads) (htext : ∀ t, y ≠ .text t)
    (rest : List Char) : CutsPart y rest := by
  cases h with
  | @text cs _ => exact absurd rfl (htext _)
  | flag hname => exact cutsPart_flag hname rest
  | @clause opens q c hc =>
    cases c with
    | raw source => exact hc.elim
    | parsed script => exact cutsPart_clause hc opens q rest
  | otherwise =>
    exact fun done text p => ⟨_, _, _, cutFrom_directive directive?_otherwise,
      iff_of_true ⟨_, _, rfl, rfl, rfl⟩ trivial, fun _ => rfl⟩
  | endIf =>
    exact fun done text p => ⟨_, _, _, cutFrom_directive directive?_endIf,
      iff_of_true ⟨_, _, rfl, rfl, rfl⟩ trivial, fun _ => rfl⟩

/-- Each part ends in front of what is printed behind it. -/
def AllEnd : List Part → Prop
  | [] => True
  | y :: ys => y.Ends (ys.flatMap Part.source) ∧ AllEnd ys

/-- What is printed of some parts is cut into pieces that are read as the parts exactly if each of
them ends in front of the next one. -/
theorem cutFrom_source (done : List Piece) (text : List Char) (p : Position) {ys : List Part}
    (h : ∀ y ∈ ys, y.Regular Condition.Rereads) (htexts : NoTwoTexts (ys.map Part.text?))
    (htext : text = [] ∨ ∀ t, ys.head? ≠ some (.text t)) :
    ∃ pieces, cutFrom done text p (ys.flatMap Part.source) =
        (addText text done).reverse ++ pieces ∧
      (List.Forall₂ Piece.ReadsAs pieces ys ↔ AllEnd ys) := by
  -- text is in front only where no text comes next, so no two of them become one piece
  induction ys generalizing done text p with
  | nil =>
    refine ⟨[], by rw [List.flatMap_nil, cutFrom_nil, List.append_nil], ?_⟩
    exact iff_of_true .nil trivial
  | cons y ys ih =>
    have hy := h y List.mem_cons_self
    have hys : ∀ y ∈ ys, y.Regular Condition.Rereads := fun x hx => h x (List.mem_cons_of_mem y hx)
    rw [List.map_cons] at htexts
    rw [List.flatMap_cons]
    by_cases hother : ∀ t, y ≠ .text t
    · obtain ⟨piece, p', rest', hcut, hreads, hrest⟩ :=
        cutsPart_of_regular hy hother (ys.flatMap Part.source) done text p
      by_cases hends : y.Ends (ys.flatMap Part.source)
      · obtain rfl := hrest hends
        obtain ⟨pieces, hpieces, hread⟩ :=
          ih (piece :: addText text done) [] p' hys htexts.of_cons (.inl rfl)
        refine ⟨piece :: pieces, ?_, ?_⟩
        · rw [hcut, hpieces]
          simp [addText]
        · rw [List.forall₂_cons, AllEnd, hreads, hread]
      · -- whatever becomes of the rest, this piece is read as another part
        obtain ⟨pieces, hpieces⟩ := exists_cutFrom_append (piece :: addText text done) [] p' rest'
        refine ⟨piece :: pieces, by rw [hcut, hpieces]; simp, iff_of_false ?_ ?_⟩
        · exact fun hread => hends (hreads.1 (List.forall₂_cons.1 hread).1)
        · exact fun hall => hends hall.1
    · -- text is gathered, and becomes a piece at what stands behind it
      obtain ⟨t, ht⟩ := not_forall_not.1 hother
      subst ht
      obtain rfl : text = [] := htext.resolve_right fun hhead => hhead t rfl
      cases hy with
      | @text cs hcs =>
        obtain ⟨p', hcut⟩ := cutFrom_text done [] p cs (ys.flatMap Part.source)
        have hbehind : ∀ t', ys.head? ≠ some (.text t') := by
          intro t' ht'
          obtain ⟨zs, rfl⟩ := List.head?_eq_some_iff.1 ht'
          exact (List.isChain_cons_cons.1 htexts).1.elim nofun nofun
        obtain ⟨pieces, hpieces, hread⟩ := ih done cs.reverse p' hys htexts.of_cons (.inr hbehind)
        refine ⟨.text cs :: pieces, ?_, ?_⟩
        · show cutFrom done [] p ((TextBlock.ofText cs).text.toList.flatMap escapeChar ++ _) = _
          rw [TextBlock.ofText, String.toList_ofList, hcut, List.append_nil, hpieces]
          simp [addText, hcs]
        · rw [List.forall₂_cons, AllEnd, hread]
          exact and_congr_left fun _ => iff_of_true (readsAs_text cs) trivial

end Template

/-! ## Where parts end -/

namespace Part

/-- A flag ends in front of whatever is printed, unless it is text that goes on with its name. -/
theorem nameEnds_iff {P : Condition → Prop} {name : String} {ys : List Part}
    (h : ∀ y ∈ ys, y.Regular P) :
    (∀ c ∈ (ys.flatMap source).head?, Token.isNameChar c = false) ↔
      ∀ y ∈ ys.head?, (flag name).NameEnds y := by
  cases ys with
  | nil => simp
  | cons y ys =>
    have hdollar : ∀ {cs : List Char}, y.text? = none → y.source = '$' :: cs →
        ((∀ c ∈ ((y :: ys).flatMap source).head?, Token.isNameChar c = false) ↔
          ∀ x ∈ (y :: ys).head?, (flag name).NameEnds x) := by
      intro cs hnone hsource
      have hname : Token.isNameChar '$' = false := by decide
      simp [hsource, NameEnds, hnone, hname]
    cases h y List.mem_cons_self with
    | @text cs hcs =>
      obtain ⟨d, ds, rfl⟩ := List.exists_cons_of_ne_nil hcs
      obtain ⟨e, es, hescape, hsame⟩ : ∃ e es, Template.escapeChar d = e :: es ∧
          Token.isNameChar e = Token.isNameChar d := by
        unfold Template.escapeChar
        split
        next hd =>
          -- neither a backslash nor what gets one is in a name
          simp only [Bool.or_eq_true, beq_iff_eq] at hd
          rcases hd with rfl | rfl <;> exact ⟨_, _, rfl, by decide⟩
        next => exact ⟨d, [], rfl, rfl⟩
      simp [source, TextBlock.ofText, hescape, hsame, NameEnds, isFlag, text?]
    | @flag name' _ => exact hdollar rfl rfl
    | @clause opens p c _ => exact hdollar rfl (source_clause opens p c)
    | otherwise => exact hdollar rfl rfl
    | endIf => exact hdollar rfl rfl

theorem ends_iff {y : Part} {ys : List Part} (hy : y.Regular Condition.Rereads)
    (h : ∀ y ∈ ys, y.Regular Condition.Rereads) :
    y.Ends (ys.flatMap source) ↔
      (∀ x ∈ ys.head?, y.NameEnds x) ∧ ∀ script ∈ y.script?, script.Enclosable := by
  cases hy with
  | @flag name _ =>
    rw [← nameEnds_iff h]
    simp [Ends, script?]
  | @clause opens p c hc =>
    cases c with
    | raw source => exact hc.elim
    | parsed script =>
      have henclosed := Script.enclosed_source_iff hc.spelled
      simp [Ends, NameEnds, isFlag, script?, Template.conditionSource, henclosed]
  | text _ | otherwise | endIf => simp [Ends, NameEnds, isFlag, script?]

end Part

namespace Template

theorem allEnd_iff {ys : List Part} (h : ∀ y ∈ ys, y.Regular Condition.Rereads) :
    AllEnd ys ↔
      ys.IsChain Part.NameEnds ∧ ∀ y ∈ ys, ∀ script ∈ y.script?, script.Enclosable := by
  induction ys with
  | nil => simp [AllEnd]
  | cons y ys ih =>
    rw [List.forall_mem_cons] at h
    rw [AllEnd, Part.ends_iff h.1 h.2, ih h.2, List.isChain_cons, List.forall_mem_cons]
    exact and_and_and_comm

/-- What is printed of some parts is cut into pieces that are read as the parts exactly if no flag
and no condition runs into what stands behind it. -/
theorem readsAs_cut_source_iff {ys : List Part} (h : ∀ y ∈ ys, y.Regular Condition.Rereads)
    (htexts : NoTwoTexts (ys.map Part.text?)) :
    List.Forall₂ Piece.ReadsAs (cut (ys.flatMap Part.source)) ys ↔
      ys.IsChain Part.NameEnds ∧ ∀ y ∈ ys, ∀ script ∈ y.script?, script.Enclosable := by
  obtain ⟨pieces, hcut, hread⟩ := cutFrom_source [] [] .start h htexts (.inl rfl)
  rw [cut, hcut, ← allEnd_iff h]
  exact hread

end Template

end FlagScript
