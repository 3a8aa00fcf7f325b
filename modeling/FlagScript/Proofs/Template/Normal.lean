import FlagScript.Proofs.Run.Labels
import FlagScript.Proofs.Template.Place
import FlagScript.Proofs.Template.Shown

/-!
# Templates as they are read

Reading a template leaves its texts, flags and conditions in a normal form (`row_normal`), which
blocks made by hand need not have. It holds of the pieces that a source is cut into, and a row of
blocks stands in one piece among them, at whatever depth.
-/

namespace FlagScript

/-! ## Normal form -/

/-- A text that is not empty, with marks that say whether it starts and ends with a space. -/
structure TextBlock.Normal (t : TextBlock) : Prop where
  nonempty : t.text ≠ ""
  left : t.leftSpace = true ↔ t.text.toList.head? = some ' '
  right : t.rightSpace = true ↔ t.text.toList.getLast? = some ' '

/-- A condition that is still to be read, without blanks at its ends and without the brackets that
would end its directive. -/
inductive Condition.Normal : Condition → Prop
  | raw {source : String} (htrim : Text.trim source.toList = source.toList)
      (hinside : ¬[']', ']'] <:+: source.toList) : Normal (.raw source)

def Clause.condition : Clause → Condition
  | .mk _ condition _ => condition

namespace Block

/-- A block by itself. What a branch contains are rows of their own. -/
inductive Normal : Block → Prop
  | text {t : TextBlock} (h : t.Normal) : Normal (.text t)
  | flag {name : String} (h : Flags.IsAllowed name) : Normal (.flag name)
  | branch {first : Clause} {more : List Clause} {otherwise : Option (List Block)}
      (h : ∀ c ∈ first :: more, c.condition.Normal) : Normal (.branch first more otherwise)

def isText : Block → Bool
  | .text _ => true
  | _ => false

end Block

/-- Blocks in a row, of which no two neighbours are texts. -/
structure Template.Normal (row : List Block) : Prop where
  blocks : ∀ b ∈ row, b.Normal
  apart : row.IsChain fun b b' => ¬(b.isText = true ∧ b'.isText = true)

/-! ## Texts and conditions that were read -/

theorem TextBlock.normal_ofText {cs : List Char} (h : cs ≠ []) : (ofText cs).Normal where
  nonempty := by
    rw [ofText, ne_eq, ← String.toList_inj, String.toList_ofList]
    exact h
  left := by simp [ofText]
  right := by simp [ofText]

/-- Blanks are dropped at the ends, so what is left stands in one piece. -/
theorem Text.isInfix_trim (cs : List Char) : trim cs <:+: cs :=
  (List.rdropWhile_prefix _ _).isInfix.trans (List.dropWhile_suffix _).isInfix

theorem Question.Begins.normal {q : Question} {cs : List Char} (h : q.Begins cs) :
    q.condition.Normal := by
  obtain ⟨_, _, text, _, _, _, _, htext, hcondition⟩ := h
  rw [hcondition]
  refine .raw ?_ ?_
  · rw [String.toList_ofList, Text.trim_trim]
  · rw [String.toList_ofList]
    exact fun hbrackets => htext.enclosed.inside (hbrackets.trans (Text.isInfix_trim text))

namespace Template

variable {source : String} {t : Template} {bs : List Block}

theorem condition_normal (h : parseLazy source = .ok t) :
    ∀ q ∈ questions t, q.condition.Normal := by
  obtain ⟨items, hscans⟩ := exists_scans .start source.toList
  have hblocks := (parseLazy_eq_ok_iff hscans).1 h
  have hplaced : Placed [] source.toList (items.filterMap Item.question?) := hscans.placed rfl
  intro q hq
  rw [hblocks.questions] at hq
  obtain ⟨_, _, _, _, hbegins⟩ := hplaced.standsBehind q hq
  exact hbegins.normal

/-! ## Rows -/

theorem block_normal (h : parseLazy source = .ok t) (hbs : Row t bs) : ∀ b ∈ bs, b.Normal := by
  intro b hb
  have hparts := (isInfix_parts_of_mem hb).trans hbs.isInfix_parts
  have hregular := (regular_of_parseLazy h).1
  cases b with
  | text u =>
    cases hregular (.text u) (hparts.subset List.mem_cons_self) with
    | text hcs => exact .text (TextBlock.normal_ofText hcs)
  | flag name =>
    cases hregular (.flag name) (hparts.subset List.mem_cons_self) with
    | flag hname => exact .flag hname.isAllowed
  | branch first more otherwise =>
    refine .branch fun c hc => ?_
    -- the directive of a clause is among the parts, and asks its condition
    obtain ⟨opens, hclause⟩ : ∃ opens,
        c.parts opens <:+: (Block.branch first more otherwise).parts := isInfix_parts_of_clause hc
    obtain ⟨p, condition, content⟩ := c
    have hpart := (hclause.trans hparts).subset List.mem_cons_self
    exact condition_normal h _ (List.mem_filterMap.2 ⟨_, hpart, rfl⟩)

theorem texts_apart (h : parseLazy source = .ok t) (hbs : Row t bs) :
    bs.IsChain fun b b' => ¬(b.isText = true ∧ b'.isText = true) := by
  have htexts : NoTwoTexts ((parts bs).map Part.text?) :=
    List.IsChain.infix (regular_of_parseLazy h).2 (hbs.isInfix_parts.map _)
  rw [List.isChain_iff_forall_rel_of_append_cons_cons]
  rintro b b' front back rfl ⟨hb, hb'⟩
  -- two texts that are neighbours in the row are neighbours among its parts
  cases b <;> cases hb
  cases b' <;> cases hb'
  rw [parts_append, List.map_append] at htexts
  have hpair := (List.isChain_append.1 htexts).2.1
  rw [parts, parts, Block.parts, Block.parts] at hpair
  rcases (List.isChain_cons_cons.1 hpair).1 with hnone | hnone <;> cases hnone

/-- Wherever blocks stand in a row in a template that was read without its conditions: no text is
empty, its marks say whether it starts and ends with a space, and no other text stands next to it;
names of flags are made of upper-case letters, digits and underscores; and conditions are sources
without blanks at their ends that do not hold two closing brackets in a row. -/
theorem row_normal (h : parseLazy source = .ok t) : ∀ bs, Row t bs → Normal bs :=
  fun _ hbs => ⟨block_normal h hbs, texts_apart h hbs⟩

/-- Escaped spaces at the ends of a text, a condition that ends at the first two of three brackets,
and behind an ELSE within the second clause of a branch a text that looks like a directive. -/
theorem row_normal_nested :
    let source :=
      "$[[IF  $A[1] ]]\\ x\\ $b_1$[[ELIF]]$[[if b]]] $[[ELSE]]$\\$[[$[[ENDIF]]$[[ENDIF]]"
    let texts : List TextBlock :=
      [⟨" x ", true, true⟩, ⟨"] ", false, true⟩, ⟨"$$[[", false, false⟩]
    ∃ t, parseLazy source = .ok t ∧ (parts t).filterMap Part.text? = texts ∧
      ∀ bs, Row t bs → Normal bs := by
  intro source texts
  obtain ⟨t, h, htexts⟩ : ∃ t, parseLazy source = .ok t ∧
      (parts t).filterMap Part.text? = texts := by decide +kernel
  exact ⟨t, h, htexts, row_normal h⟩

end Template

end FlagScript
