import FlagScript.Proofs.Template.Acceptance
import FlagScript.Proofs.Template.Printed

/-!
# Templates printed with unread conditions

A template that is well formed, with conditions that are still sources, is read back from what is
printed of it, but for the places of its directives (`parseLazy_source`). Its printed parts are
scanned one behind the other: none of them runs into what stands behind it.
-/

namespace FlagScript

/-! ## Well-formed templates -/

/-- Upper-case letters, digits and underscores, at least one. -/
def Block.IsFlagName (name : String) : Prop :=
  name.toList ≠ [] ∧ ∀ c ∈ name.toList, c.isUpper = true ∨ c.isDigit = true ∨ c = '_'

/-- Two blocks can be neighbours: not two texts, nor a flag and a text that goes on with its
name. -/
def Block.Joins : Block → Block → Prop
  | .text _, .text _ => False
  | .flag _, .text t => ∀ c ∈ t.text.toList.head?, Token.isNameChar c = false
  | _, _ => True

/-- A source without blanks at its ends that ends no directive too early. -/
def Condition.Writable : Condition → Prop
  | .raw source => Text.trim source.toList = source.toList ∧ Enclosed source.toList
  | .parsed _ => False

mutual

def Block.WellFormed : Block → Prop
  | .text t => ∃ cs, cs ≠ [] ∧ t = .ofText cs
  | .flag name => Block.IsFlagName name
  | .branch first more otherwise =>
    Clause.WellFormed first ∧ Clause.AllWellFormed more ∧ Template.ElseWellFormed otherwise

def Clause.WellFormed : Clause → Prop
  | .mk _ condition content => condition.Writable ∧ Template.WellFormed content

def Clause.AllWellFormed : List Clause → Prop
  | [] => True
  | c :: cs => Clause.WellFormed c ∧ Clause.AllWellFormed cs

def Template.ElseWellFormed : Option (List Block) → Prop
  | none => True
  | some blocks => Template.WellFormed blocks

def Template.WellFormed : List Block → Prop
  | [] => True
  | b :: bs => Block.WellFormed b ∧ (∀ b' ∈ bs.head?, b.Joins b') ∧ Template.WellFormed bs

end

/-! ## The parts of a well-formed template -/

theorem Block.IsFlagName.isName {name : String} (h : Block.IsFlagName name) :
    Token.IsName name := by
  have hchars : ∀ c ∈ name.toList, Token.isNameChar c = true := by
    intro c hc
    rcases h.2 c hc with hupper | hdigit | rfl
    · have halpha : c.isAlpha = true := by
        show (c.isUpper || c.isLower) = true
        rw [hupper, Bool.true_or]
      simp [Token.isNameChar, Char.isAlphanum, halpha]
    · simp [Token.isNameChar, Char.isAlphanum, hdigit]
    · decide
  have hsame : ∀ c ∈ name.toList, c.toUpper = c := by
    intro c hc
    have hall : ∀ n : Fin 128, (Char.ofNat n).isUpper = true ∨ (Char.ofNat n).isDigit = true ∨
        Char.ofNat n = '_' → (Char.ofNat n).toUpper = Char.ofNat n := by decide
    have hn := hall ⟨c.toNat, Token.toNat_lt_of_isNameChar (hchars c hc)⟩
    simp only [Char.ofNat_toNat] at hn
    exact hn (h.2 c hc)
  refine ⟨h.1, hchars, ?_⟩
  have hupper := Token.upper_of_nameChars hchars
  rwa [List.map_congr_left hsame, List.map_id', String.ofList_toList] at hupper

namespace Part

variable {x y : Part} {xs ys : List Part}

/-- Two parts can be neighbours. -/
def Joins (x y : Part) : Prop := (x.text? = none ∨ y.text? = none) ∧ x.NameEnds y

def isDirective : Part → Bool
  | clause _ _ _ => true
  | otherwise => true
  | endIf => true
  | _ => false

theorem joins_of_left (h : x.isDirective = true) : x.Joins y := by
  cases x <;> cases h <;> exact ⟨.inl rfl, nofun⟩

theorem joins_of_right (h : y.isDirective = true) : x.Joins y := by
  cases y <;> cases h <;> exact ⟨.inr rfl, nofun⟩

/-- Parts that can be printed and scanned again. -/
structure Settled (ys : List Part) : Prop where
  regular : ∀ y ∈ ys, y.Regular Condition.Writable
  joined : ys.IsChain Joins

namespace Settled

theorem nil : Settled [] := ⟨by simp, .nil⟩

theorem singleton (h : y.Regular Condition.Writable) : Settled [y] :=
  ⟨List.forall_mem_singleton.2 h, .singleton y⟩

theorem append (hxs : Settled xs) (hys : Settled ys)
    (h : ∀ x ∈ xs.getLast?, ∀ y ∈ ys.head?, x.Joins y) : Settled (xs ++ ys) where
  regular := List.forall_mem_append.2 ⟨hxs.regular, hys.regular⟩
  joined := List.isChain_append.2 ⟨hxs.joined, hys.joined, h⟩

/-- Whatever stands in front of a directive can stand there. -/
theorem append_directive (hxs : Settled xs) (hys : Settled ys)
    (h : ∀ y ∈ ys.head?, y.isDirective = true) : Settled (xs ++ ys) :=
  hxs.append hys fun _ _ y hy => joins_of_right (h y hy)

theorem cons_directive (hy : y.Regular Condition.Writable) (hys : Settled ys)
    (h : y.isDirective = true) : Settled (y :: ys) :=
  (singleton hy).append hys fun x hx y' _ => by
    cases hx
    exact joins_of_left h

end Settled

end Part

namespace Template

open FlagScript.Part (Settled)

theorem isDirective_of_atEnd {us : List Part} (h : AtEnd us) :
    ∀ u ∈ us.head?, u.isDirective = true := by
  intro u hu
  rcases h u hu with ⟨p, c, rfl⟩ | rfl | rfl <;> rfl

/-- What can stand behind a block can stand behind its last part. -/
theorem joins_parts {b b' : Block} {us : List Part} (h : b.Joins b') :
    ∀ x ∈ b.parts.getLast?, ∀ y ∈ (b'.parts ++ us).head?, x.Joins y := by
  intro x hx y hy
  -- a branch begins and ends with directives, and those join with everything
  have hbranch : ∀ {first more otherwise}, b' = .branch first more otherwise →
      y.isDirective = true := by
    rintro ⟨p, condition, content⟩ more otherwise rfl
    cases hy
    rfl
  cases b with
  | branch first more otherwise =>
    rw [Block.parts, ← List.append_assoc, ← List.append_assoc, List.getLast?_concat] at hx
    cases hx
    exact Part.joins_of_left rfl
  | text t =>
    cases hx
    cases b' with
    | text t' => exact h.elim
    | flag name => cases hy; exact ⟨.inr rfl, nofun⟩
    | branch => exact Part.joins_of_right (hbranch rfl)
  | flag name =>
    cases hx
    cases b' with
    | text t =>
      cases hy
      refine ⟨.inl rfl, fun _ t' ht' => ?_⟩
      cases ht'
      exact h
    | flag name => cases hy; exact ⟨.inr rfl, nofun⟩
    | branch => exact Part.joins_of_right (hbranch rfl)

mutual

theorem settled_block : ∀ b : Block, b.WellFormed → Settled b.parts
  | .text t, ⟨cs, hcs, ht⟩ => by
    subst ht
    exact .singleton (.text hcs)
  | .flag name, h => .singleton (.flag h.isName)
  | .branch first more otherwise, ⟨hfirst, hmore, hotherwise⟩ => by
    have hend : Settled [.endIf] := .singleton .endIf
    have hclauses := pastClauses_elseParts otherwise []
    rw [List.append_nil] at hclauses
    rw [Block.parts]
    refine (settled_clause true first hfirst).append_directive ?_
      (isDirective_of_atEnd (atEnd_furtherParts more hclauses))
    refine (settled_furtherParts more hmore).append_directive ?_
      (isDirective_of_atEnd hclauses.atEnd)
    exact (settled_elseParts otherwise hotherwise).append_directive hend
      (by simp [Part.isDirective])

theorem settled_clause : ∀ (opens : Bool) (c : Clause), c.WellFormed → Settled (c.parts opens)
  | _, .mk _ _ content, ⟨hcondition, hcontent⟩ =>
    .cons_directive (.clause hcondition) (settled_parts content hcontent) rfl

theorem settled_furtherParts : ∀ cs : List Clause, Clause.AllWellFormed cs →
    Settled (Clause.furtherParts cs)
  | [], _ => .nil
  | c :: cs, ⟨hc, hcs⟩ => by
    have hend : AtEnd (Clause.furtherParts cs ++ []) :=
      atEnd_furtherParts cs (by simp [PastClauses])
    rw [List.append_nil] at hend
    exact (settled_clause false c hc).append_directive (settled_furtherParts cs hcs)
      (isDirective_of_atEnd hend)

theorem settled_elseParts : ∀ otherwise : Option (List Block), ElseWellFormed otherwise →
    Settled (elseParts otherwise)
  | none, _ => .nil
  | some blocks, h => .cons_directive .otherwise (settled_parts blocks h) rfl

theorem settled_parts : ∀ bs : List Block, WellFormed bs → Settled (parts bs)
  | [], _ => .nil
  | b :: bs, ⟨hb, hjoins, hbs⟩ => by
    refine (settled_block b hb).append (settled_parts bs hbs) ?_
    cases bs with
    | nil => simp [parts]
    | cons b' bs => exact joins_parts (hjoins b' rfl)

end

/-! ## Scanning what is printed -/

variable {p : Position} {rest : List Char} {items : List Item} {ys : List Part}

/-- The items of printed text are its characters. -/
theorem exists_scans_text (p : Position) (cs rest : List Char) :
    ∃ p', ∀ items, Scans p' rest items →
      Scans p (cs.flatMap escapeChar ++ rest) (cs.map .char ++ items) := by
  induction cs generalizing p with
  | nil => exact ⟨p, fun _ h => h⟩
  | cons c cs ih =>
    rw [List.flatMap_cons, List.append_assoc]
    by_cases hc : c == '\\' || c == '$'
    · obtain ⟨p', hp'⟩ := ih ((p.after '\\').after c)
      refine ⟨p', fun items h => ?_⟩
      rw [escapeChar, if_pos hc]
      exact .escape (hp' items h)
    · obtain ⟨p', hp'⟩ := ih (p.after c)
      refine ⟨p', fun items h => ?_⟩
      rw [escapeChar, if_neg hc]
      simp only [Bool.or_eq_true, beq_iff_eq, not_or] at hc
      exact .char hc.1 (fun hdollar => absurd hdollar hc.2) (hp' items h)

/-- The directive of a clause is printed as one that is written so. -/
theorem written_clause (opens : Bool) {source : String} (h : (Condition.raw source).Writable) :
    (clauseDirective opens source).Written
      (clauseWord opens ++ (spaced source.toList ++ [']', ']'])) := by
  obtain ⟨htrim, henclosed⟩ := h
  have htext : ConditionText (spaced source.toList) := by
    refine ⟨fun c hc => ?_, Enclosed.spaced_iff.2 henclosed⟩
    unfold spaced at hc
    split at hc
    next => cases hc
    next =>
      cases hc
      rfl
  -- the blank that sets the condition off is trimmed away again
  have hcondition : String.ofList (Text.trim (spaced source.toList)) = source := by
    rw [trim_spaced, htrim, String.ofList_toList]
  have hif : Writes ['I', 'F'] ['I', 'F'] := by rw [Writes]; decide
  have helse : Writes ['E', 'L', 'S', 'E'] ['E', 'L', 'S', 'E'] := by rw [Writes]; decide
  have helseIf : WritesElseIf (['E', 'L', 'S', 'E'] ++ ([' '] ++ ['I', 'F'])) :=
    .parted helse (by simp [IsGap, Text.isLayout]) (by simp) hif
  have hspelled : (clauseDirective opens (String.ofList (Text.trim (spaced source.toList)))).Spelled
      (clauseWord opens ++ (spaced source.toList ++ [']', ']'])) := by
    cases opens with
    | true => exact .openIf hif htext
    | false => exact .elseIf helseIf htext
  rw [hcondition] at hspelled
  exact ⟨[], _, by simp [IsGap], hspelled, rfl⟩

theorem written_otherwise : Directive.otherwise.Written ['E', 'L', 'S', 'E', ']', ']'] := by
  have hword : Writes ['E', 'L', 'S', 'E'] ['E', 'L', 'S', 'E'] := by rw [Writes]; decide
  have hgap : IsGap [] := by simp [IsGap]
  exact ⟨[], _, hgap, .otherwise hword hgap, rfl⟩

theorem written_endIf : Directive.endIf.Written ['E', 'N', 'D', 'I', 'F', ']', ']'] := by
  have hword : Writes ['E', 'N', 'D', 'I', 'F'] ['E', 'N', 'D', 'I', 'F'] := by rw [Writes]; decide
  have hgap : IsGap [] := by simp [IsGap]
  exact ⟨[], _, hgap, .endIf hword hgap, rfl⟩

/-- The pieces say these parts, but for the places of directives. -/
def SayingUnplaced (pieces : List Piece) (us : List Part) : Prop :=
  pieces.map (fun piece => piece.part?.map (Part.mapHead Head.unplaced)) =
    us.map fun u => some (u.mapHead Head.unplaced)

theorem SayingUnplaced.cons {piece : Piece} {pieces : List Piece} {u : Part} {us : List Part}
    (hpiece : piece.part?.map (Part.mapHead Head.unplaced) = some (u.mapHead Head.unplaced))
    (h : SayingUnplaced pieces us) : SayingUnplaced (piece :: pieces) (u :: us) := by
  rw [SayingUnplaced, List.map_cons, List.map_cons, hpiece, h]

theorem SayingUnplaced.shaped {pieces : List Piece} {us : List Part}
    (h : SayingUnplaced pieces us) : Shaped pieces us := by
  have hshapes := congrArg (List.map fun x => x.map Part.shape) h
  simpa only [Shaped, List.map_map, Function.comp_def, Option.map_map, Option.map_some,
    Part.shape_mapHead] using hshapes

/-- What stands behind a text is no text. -/
theorem textEnds_of_sayingUnplaced (h : SayingUnplaced (gather items) ys)
    (hys : ∀ y ∈ ys.head?, y.text? = none) : TextEnds items := by
  apply textEnds_of_gather
  intro piece hpiece
  obtain ⟨pieces, hgather⟩ := List.head?_eq_some_iff.1 hpiece
  rw [hgather] at h
  cases ys with
  | nil => cases h
  | cons y ys =>
    obtain ⟨x, hx, hxy⟩ := Option.map_eq_some_iff.1 (List.cons.inj h).1
    have hy := hys y rfl
    rw [Piece.text?, hx]
    cases x <;> cases y <;> cases hxy <;> first | rfl | cases hy

/-- What is printed of settled parts is scanned as the same parts. -/
theorem exists_scans_source (h : Part.Settled ys) (p : Position) :
    ∃ items, Scans p (ys.flatMap Part.source) items ∧ SayingUnplaced (gather items) ys := by
  induction ys generalizing p with
  | nil => exact ⟨[], .nil, rfl⟩
  | cons y ys ih =>
    obtain ⟨hy, hregular⟩ := List.forall_mem_cons.1 h.regular
    obtain ⟨hhead, hjoined⟩ := List.isChain_cons.1 h.joined
    have ih := ih ⟨hregular, hjoined⟩
    -- a directive is scanned up to its brackets, whatever stands behind it
    have hdirective : ∀ {d : Directive} {ds : List Char}, d.Written ds →
        y.source = '$' :: '[' :: '[' :: ds →
        (Piece.directive p d).part?.map (Part.mapHead Head.unplaced) =
          some (y.mapHead Head.unplaced) →
        ∃ items, Scans p ((y :: ys).flatMap Part.source) items ∧
          SayingUnplaced (gather items) (y :: ys) := by
      intro d ds hd hsource hpart
      obtain ⟨items, hscans, hsaying⟩ := ih (p.advance ('$' :: '[' :: '[' :: ds))
      refine ⟨.directive p d :: items, ?_, .cons hpart hsaying⟩
      rw [List.flatMap_cons, hsource]
      exact .directive rfl hd hscans
    cases hy with
    | @text cs hcs =>
      obtain ⟨p', htext⟩ := exists_scans_text p cs (ys.flatMap Part.source)
      obtain ⟨items, hscans, hsaying⟩ := ih p'
      have hends : TextEnds items := textEnds_of_sayingUnplaced hsaying fun y hy =>
        (hhead y hy).1.resolve_left nofun
      refine ⟨cs.map .char ++ items, ?_, ?_⟩
      · have hsource : (Part.text (.ofText cs)).source = cs.flatMap escapeChar := by
          rw [Part.source, TextBlock.ofText, String.toList_ofList]
        rw [List.flatMap_cons, hsource]
        exact htext items hscans
      · rw [gather_text hends hcs]
        exact .cons rfl hsaying
    | @flag name hname =>
      obtain ⟨items, hscans, hsaying⟩ := ih (p.advance ('$' :: name.toList))
      have hends := (Part.nameEnds_iff hregular).2 fun y hy => (hhead y hy).2
      refine ⟨.flag name.toList :: items, ?_, .cons ?_ hsaying⟩
      · exact .flag rfl hname.nonempty hname.chars hends hscans
      · rw [String.ofList_toList, hname.upper]
        rfl
    | @clause opens q c hc =>
      cases c with
      | parsed script => exact hc.elim
      | raw source =>
        refine hdirective (written_clause opens hc) (Part.source_clause opens q _) ?_
        cases opens <;> rfl
    | otherwise => exact hdirective written_otherwise rfl rfl
    | endIf => exact hdirective written_endIf rfl rfl

/-- A well-formed template whose conditions are unread is read back from what is printed of it, but
for the places of its directives. -/
theorem parseLazy_source {t : Template} (h : WellFormed t) :
    ∃ t', parseLazy (source t) = .ok t' ∧ t'.unplaced = t.unplaced := by
  obtain ⟨items, hscans, hsaying⟩ := exists_scans_source (settled_parts t h) .start
  rw [← toList_source] at hscans
  obtain ⟨t', hread, hparts⟩ := readFrom_of_shaped hsaying.shaped (source t).toList
  refine ⟨t', by rw [parseLazy, cut_of_scans hscans, hread], parts_inj ?_⟩
  rw [unplaced, unplaced, parts_mapHeads, parts_mapHeads]
  -- the parts of the template that was read are said by the pieces, and so are those of the other
  have hheads := congrArg (List.map fun x => x.map (Part.mapHead Head.unplaced)) hparts
  rw [List.map_map, List.map_map] at hheads
  have hsame := hheads.symm.trans hsaying
  refine (List.map_inj_right fun _ _ => Option.some.inj).1 ?_
  rw [List.map_map, List.map_map]
  exact hsame

/-- A flag in front of text that looks like a directive, and a branch within a branch. -/
def lookalike : Template :=
  [.flag "A_1", .text (.ofText "-$[[ENDIF]]\\".toList),
    .branch (.mk .start (.raw "$A_1 > 1") [.branch (.mk .start (.raw "") []) [] (some [])])
      [.mk .start (.raw "a[0]b") [.text (.ofText [' '])]] none]

theorem parseLazy_source_lookalike : WellFormed lookalike ∧
    ∃ t', parseLazy (source lookalike) = .ok t' ∧ t'.unplaced = lookalike.unplaced := by
  have hname : Block.IsFlagName "A_1" := ⟨by decide, by simp⟩
  have hfirst : (Condition.raw "$A_1 > 1").Writable := ⟨by decide, by decide, by decide⟩
  have hempty : (Condition.raw "").Writable := ⟨by decide, by decide, by decide⟩
  have hmore : (Condition.raw "a[0]b").Writable := ⟨by decide, by decide, by decide⟩
  have hinner : WellFormed [.branch (.mk .start (.raw "") []) [] (some [])] :=
    ⟨⟨⟨hempty, trivial⟩, trivial, trivial⟩, by simp, trivial⟩
  have hspace : WellFormed [.text (.ofText [' '])] :=
    ⟨⟨[' '], List.cons_ne_nil _ _, rfl⟩, by simp, trivial⟩
  have h : WellFormed lookalike := by
    refine ⟨hname, ?_, ⟨_, by decide, rfl⟩, ?_,
      ⟨⟨hfirst, hinner⟩, ⟨⟨hmore, hspace⟩, trivial⟩, trivial⟩, by simp, trivial⟩
    · intro b hb
      cases hb
      show ∀ c ∈ some '-', Token.isNameChar c = false
      intro c hc
      cases hc
      decide
    · intro b hb
      cases hb
      trivial
  exact ⟨h, parseLazy_source h⟩

end Template

end FlagScript
