import FlagScript.Proofs.Template.Answers

/-!
# Expanding templates

Expanding the blocks of a template that was read gives what they show together, and runs the
conditions that are run for it and no others (`expandTemplate_eq_ok_iff`). The text is written block
by block, and the space in front of a gap is taken off what was written already. The induction is on
the blocks, behind a block whose own text was written last: this is where the space is.
-/

namespace FlagScript

namespace Template

variable {W : Type} [World W] {s : Interpreter W}

/-! ## Gaps -/

/-- The block shows this, which is its own text if it is one. -/
def TextOf (b : Block) (shown : List Char) : Prop := ∀ t, b = .text t → t = .ofText shown

theorem dropSpace_reverse {shown : List Char} (h : shown.getLast? = some ' ') (out : List Char) :
    dropSpace (shown.reverse ++ out) = shown.dropLast.reverse ++ out := by
  obtain ⟨front, rfl⟩ := List.getLast?_eq_some_iff.1 h
  simp [dropSpace]

/-- What stands in front of a block for which this was written: the gap that an empty branch leaves
is closed. -/
def closedBefore (previous b : Block) (next : Option Block) (written out : List Char) : List Char :=
  let isGap := match b with
    | .branch _ _ _ => written.isEmpty
    | _ => false
  if isGap then closeGap (some previous) next out else out

/-- The space in front of a gap is taken off what was written last exactly if the text in front of
the branch gives it up. -/
theorem closedBefore_eq {previous b : Block} {bs : List Block} {before shown : List Char}
    {behind : List (Block × List Char)} (hprevious : TextOf previous before)
    (hbehind : behind.map Prod.fst = bs) (hbs : AsRead bs) (out : List Char) :
    closedBefore previous b bs.head? shown.reverse (before.reverse ++ out) =
      (if closesGap previous ((b, shown) :: behind) then before.dropLast else before).reverse ++
        out := by
  -- only a text gives up a space, and only a branch makes it do so
  cases previous with
  | flag name => simp [closedBefore, closeGap, endsWithSpace, closesGap]
  | branch first more otherwise => simp [closedBefore, closeGap, endsWithSpace, closesGap]
  | text t =>
    cases b with
    | text u => simp [closedBefore, closesGap]
    | flag name => simp [closedBefore, closesGap]
    | branch first more otherwise =>
      cases shown with
      | cons c cs => simp [closedBefore, closesGap]
      | nil =>
        subst hbehind
        obtain rfl := hprevious t rfl
        rcases behind with _ | ⟨⟨u | name | ⟨first, more, otherwise⟩, shown⟩, behind⟩
        · simp [closedBefore, closeGap, startsWithSpace, closesGap]
        -- the branch stands between two texts, whose marks say what they begin and end with
        · cases hbs (.text u) (List.mem_append_left _ List.mem_cons_self) with
          | @text cs hcs =>
            by_cases hspaces : before.getLast? = some ' ' ∧ cs.head? = some ' '
            · simp [closedBefore, closeGap, endsWithSpace, startsWithSpace, closesGap,
                TextBlock.ofText, hspaces, dropSpace_reverse hspaces.1]
            · simp [closedBefore, closeGap, endsWithSpace, startsWithSpace, closesGap,
                TextBlock.ofText, hspaces]
        · simp [closedBefore, closeGap, startsWithSpace, closesGap]
        · simp [closedBefore, closeGap, startsWithSpace, closesGap]

/-! ## Blocks -/

/-- What expanding some blocks behind another one writes. -/
def ListAnswers (s : Interpreter W) (bs : List Block) : Prop :=
  ∀ (previous : Block) (before out : List Char), TextOf previous before →
    Answers s (expandFrom · (some previous) (before.reverse ++ out) bs) fun written ran =>
      ∃ shown, ShowAll s bs shown ran ∧
        written = (joined ((previous, before) :: shown)).reverse ++ out

def BlockAnswers (s : Interpreter W) (b : Block) : Prop :=
  Answers s (expandBlock · b) fun written ran =>
    ∃ shown, Shows s b shown ran ∧ written = shown.reverse

/-- In front of a template there is nothing, as if a flag were there that is not set. -/
theorem ListAnswers.start {bs : List Block} (h : ListAnswers s bs) :
    Answers s (expandFrom · none [] bs) fun written ran =>
      ∃ shown, ShowAll s bs shown ran ∧ written = (joined shown).reverse := by
  have hflag : (expandFrom · none [] bs) =
      (expandFrom (W := W) · (some (.flag "")) ([].reverse ++ []) bs) := by
    funext s
    cases bs <;> rfl
  rw [hflag]
  refine (h (.flag "") [] [] fun t ht => nomatch ht).congr fun written ran => ?_
  simp [joined, closesGap]

theorem blockAnswers_text (t : TextBlock) : BlockAnswers s (.text t) := by
  refine (Answers.ok (a := t.text.toList.reverse) fun v => rfl).congr fun written ran => ?_
  constructor
  · rintro ⟨rfl, rfl⟩
    exact ⟨t.text.toList, .text t, rfl⟩
  · rintro ⟨_, ⟨⟩, rfl⟩
    exact ⟨rfl, rfl⟩

theorem blockAnswers_flag {name : String} (hname : Text.upper name = name) :
    BlockAnswers s (.flag name) := by
  have hok : Answers s (expandBlock · (.flag name)) fun written ran =>
      written = (s.flagText name).toList.reverse ∧ ran = [] := .ok fun v => rfl
  refine hok.congr fun written ran => ?_
  simp only [shows_flag_iff, Interpreter.flagText, Interpreter.flag?, hname]
  constructor
  · rintro ⟨rfl, rfl⟩
    exact ⟨_, ⟨rfl, rfl⟩, rfl⟩
  · rintro ⟨_, ⟨rfl, rfl⟩, rfl⟩
    exact ⟨rfl, rfl⟩

theorem blockAnswers_branch {first : Clause} {more : List Clause}
    {otherwise : Option (List Block)}
    (hread : ClausesAsRead (first :: more))
    (hcontent : ∀ c ∈ first :: more, ListAnswers s c.content)
    (hotherwise : ListAnswers s (otherwise.getD [])) :
    BlockAnswers s (.branch first more otherwise) := by
  -- a branch picks its content first and then expands it
  have hpick : (expandBlock (W := W) · (.branch first more otherwise)) =
      andThen (pick · (first :: more))
        (fun content s => expandFrom s none [] ((content.or otherwise).getD [])) :=
    funext fun s => expandBlock_eq_pick s first more otherwise
  have hpicked : ∀ content asked, Picks s (first :: more) content asked →
      ListAnswers s ((content.or otherwise).getD []) := by
    intro content asked h
    cases content with
    | none => exact hotherwise
    | some blocks =>
      obtain ⟨c, hc, rfl⟩ := exists_of_picks h
      exact hcontent c hc
  rw [BlockAnswers, hpick]
  refine ((pick_answers hread).andThen fun content asked h =>
    (hpicked content asked h).start).congr fun written ran => ?_
  constructor
  · rintro ⟨content, asked, more', hpicks, ⟨shown, hshown, rfl⟩, rfl⟩
    exact ⟨_, .branch hpicks hshown, rfl⟩
  · rintro ⟨_, hshows, rfl⟩
    cases hshows with
    | branch hpicks hshown => exact ⟨_, _, _, hpicks, ⟨_, hshown, rfl⟩, rfl⟩

theorem listAnswers_nil : ListAnswers s [] := by
  intro previous before out _
  refine (Answers.ok (a := before.reverse ++ out) fun v => rfl).congr fun written ran => ?_
  have hjoined : joined [(previous, before)] = before := by
    simp [joined, closesGap_nil]
  constructor
  · rintro ⟨rfl, rfl⟩
    exact ⟨[], .nil, by rw [hjoined]⟩
  · rintro ⟨_, ⟨⟩, rfl⟩
    exact ⟨by rw [hjoined], rfl⟩

theorem textOf_of_shows {b : Block} {shown : List Char} {ran : List Script}
    (h : Shows s b shown ran) (hb : ∀ x ∈ b.parts, x.AsRead) :
    TextOf b shown := by
  rintro t rfl
  cases h
  cases hb (.text t) (List.mem_singleton_self _) with
  | @text cs _ =>
    show TextBlock.ofText cs = .ofText (String.ofList cs).toList
    rw [String.toList_ofList]

/-- What is written behind a block whose own text was written last. -/
theorem ListAnswers.behind {previous b : Block} {bs : List Block} {before shown : List Char}
    (hbs : ListAnswers s bs) (hread : AsRead bs) (hprevious : TextOf previous before)
    (hb : TextOf b shown) (out : List Char) :
    Answers s (expandFrom · (some b) (shown.reverse ++
        closedBefore previous b bs.head? shown.reverse (before.reverse ++ out)) bs)
      fun written ran => ∃ behind, ShowAll s bs behind ran ∧
        written = (joined ((previous, before) :: (b, shown) :: behind)).reverse ++ out := by
  refine (hbs b shown _ hb).congr fun written ran => ?_
  refine exists_congr fun behind => and_congr_right fun hbehind => ?_
  rw [closedBefore_eq hprevious hbehind.map_fst hread, joined_cons previous]
  simp only [List.reverse_append, List.append_assoc]

theorem listAnswers_cons {b : Block} {bs : List Block} (hread : ∀ x ∈ b.parts, x.AsRead)
    (hreads : AsRead bs) (hb : BlockAnswers s b) (hbs : ListAnswers s bs) :
    ListAnswers s (b :: bs) := by
  intro previous before out hprevious
  -- the first block is expanded, and then the rest behind what it has written
  have hcons : (expandFrom (W := W) · (some previous) (before.reverse ++ out) (b :: bs)) =
      andThen (expandBlock · b) (fun written s => expandFrom s (some b)
        (written ++ closedBefore previous b bs.head? written (before.reverse ++ out)) bs) := by
    funext s
    rw [expandFrom_cons, andThen]
    rcases expandBlock s b with ⟨_ | _, _⟩ <;> rfl
  rw [hcons]
  refine (hb.andThen (Q := fun text written ran => ∃ behind, ShowAll s bs behind ran ∧
    written = (joined ((previous, before) :: (b, text.reverse) :: behind)).reverse ++ out)
    ?_).congr fun written ran => ?_
  · rintro _ asked ⟨shown, hshown, rfl⟩
    rw [List.reverse_reverse]
    exact hbs.behind hreads hprevious (textOf_of_shows hshown hread) out
  constructor
  · rintro ⟨_, asked, more, ⟨shown, hshown, rfl⟩, ⟨behind, hbehind, rfl⟩, rfl⟩
    rw [List.reverse_reverse]
    exact ⟨_, .cons hshown hbehind, rfl⟩
  · rintro ⟨_, hshows, rfl⟩
    cases hshows with
    | cons hshown hbehind =>
      refine ⟨_, _, _, ⟨_, hshown, rfl⟩, ⟨_, hbehind, ?_⟩, rfl⟩
      rw [List.reverse_reverse]

mutual

theorem blockAnswers : ∀ b : Block, (∀ x ∈ b.parts, x.AsRead) →
    BlockAnswers s b
  | .text t, _ => blockAnswers_text t
  | .flag name, h => by
    cases h (.flag name) (List.mem_singleton_self _) with
    | flag hname => exact blockAnswers_flag hname.upper
  | .branch (.mk p c content) more otherwise, h => by
    have hread := clausesAsRead_of_branch h
    have hfirst : ListAnswers s content := listAnswers content fun x hx =>
      h x (List.mem_append_left _ (List.mem_cons_of_mem _ hx))
    have hmore := contentsAnswer more fun d hd => hread d (List.mem_cons_of_mem _ hd)
    have hotherwise := elseAnswers otherwise fun x hx =>
      h x (List.mem_append_right _ (List.mem_append_right _ (List.mem_append_left _ hx)))
    exact blockAnswers_branch hread (List.forall_mem_cons.2 ⟨hfirst, hmore⟩) hotherwise

theorem contentsAnswer : ∀ cs : List Clause, ClausesAsRead cs →
    ∀ c ∈ cs, ListAnswers s c.content
  | [], _ => by simp
  | .mk p c content :: cs, h => by
    obtain ⟨⟨opens, hparts⟩, hmore⟩ := List.forall_mem_cons.1 h
    have hcontent : ListAnswers s content := listAnswers content fun x hx =>
      hparts x (List.mem_cons_of_mem _ hx)
    exact List.forall_mem_cons.2 ⟨hcontent, contentsAnswer cs hmore⟩

theorem elseAnswers : ∀ otherwise : Option (List Block),
    (∀ x ∈ elseParts otherwise, x.AsRead) →
      ListAnswers s (otherwise.getD [])
  | none, _ => listAnswers_nil
  | some blocks, h => listAnswers blocks fun x hx => h x (List.mem_cons_of_mem _ hx)

theorem listAnswers : ∀ bs : List Block, AsRead bs → ListAnswers s bs
  | [], _ => listAnswers_nil
  | b :: bs, h => by
    rw [AsRead, parts, List.forall_mem_append] at h
    exact listAnswers_cons h.1 h.2 (blockAnswers b h.1) (listAnswers bs h.2)

end

/-! ## Templates -/

theorem expandTemplate_eq_ok_iff_written {bs : List Block} {out : String} {s' : Interpreter W} :
    s.expandTemplate bs = (.ok out, s') ↔
      ∃ written, expandFrom s none [] bs = (.ok written, s') ∧
        out = String.ofList written.reverse := by
  rw [Interpreter.expandTemplate]
  rcases expandFrom s none [] bs with ⟨_ | written, s₁⟩
  · simp
  · simp [eq_comm, and_comm]

/-- Expanding blocks that stand in a row in a template that was read, with its conditions read in
advance or not, succeeds with a text exactly if this is what the blocks show together in the state
in front, and leaves what the conditions leave that are run for it: in each branch that is reached,
those up to the first one that is true. -/
theorem expandTemplate_eq_ok_iff {source : String} {t : Template}
    (h : parseLazy source = .ok t ∨ parse source = .ok t) {bs : List Block} (hbs : Row t bs)
    (s : Interpreter W) (out : String) (s' : Interpreter W) :
    s.expandTemplate bs = (.ok out, s') ↔
      ∃ shown ran, ShowAll s bs shown ran ∧ out = String.ofList (joined shown) ∧
        s' = s.execAll ran := by
  have hread : AsRead bs := by
    have ht : AsRead t := h.elim asRead_of_parseLazy asRead_of_parse
    exact fun x hx => ht x (hbs.parts_subset hx)
  have hanswers : ∀ written, expandFrom s none [] bs = (.ok written, s') ↔
      ∃ ran, (∃ shown, ShowAll s bs shown ran ∧ written = (joined shown).reverse) ∧
        s' = s.execAll ran :=
    fun written => (listAnswers bs hread).start.eq_ok_iff (v := s.last)
  rw [expandTemplate_eq_ok_iff_written]
  simp only [hanswers]
  constructor
  · rintro ⟨_, ⟨ran, ⟨shown, hshown, rfl⟩, hs'⟩, rfl⟩
    exact ⟨shown, ran, hshown, by rw [List.reverse_reverse], hs'⟩
  · rintro ⟨shown, ran, hshown, rfl, hs'⟩
    exact ⟨_, ⟨ran, ⟨shown, hshown, rfl⟩, hs'⟩, by rw [List.reverse_reverse]⟩

/-- A space between two branches that show nothing, the second one for a flag that is not set; and a
condition behind one that is true, which could not be read. -/
theorem expandTemplate_eq_ok_iff_of_gaps :
    let s := Interpreter.withFlags ({} : MemoryWorld) [("C", .int 2)]
    (∃ t shown ran, parse "a $[[IF $A]]x$[[ENDIF]] $[[IF !$C]]y$[[ELSE]]$B$[[ENDIF]] b$c" = .ok t ∧
      ShowAll s t shown ran ∧ "a b2" = String.ofList (joined shown) ∧
        (s.expandTemplate t).2 = s.execAll ran) ∧
    ∃ l shown ran, parseLazy "$[[IF $C]] $[[IF $A]]$[[ENDIF]] $[[ELIF (]]x$[[ENDIF]]" = .ok l ∧
      ShowAll s l shown ran ∧ " " = String.ofList (joined shown) ∧
        (s.expandTemplate l).2 = s.execAll ran := by
  intro s
  have hok : ∀ {r : Except Error String × Interpreter MemoryWorld} {out : String},
      r.1.toOption = some out → r = (.ok out, r.2) := by
    rintro ⟨_ | _, _⟩ out h <;> cases h
    rfl
  constructor
  · obtain ⟨t, ht, hout⟩ : ∃ t,
        parse "a $[[IF $A]]x$[[ENDIF]] $[[IF !$C]]y$[[ELSE]]$B$[[ENDIF]] b$c" = .ok t ∧
          (s.expandTemplate t).1.toOption = some "a b2" := by
      decide +kernel
    obtain ⟨shown, ran, h⟩ := (expandTemplate_eq_ok_iff (.inr ht) .all s _ _).1 (hok hout)
    exact ⟨t, shown, ran, ht, h⟩
  · obtain ⟨l, hl, hout⟩ : ∃ l,
        parseLazy "$[[IF $C]] $[[IF $A]]$[[ENDIF]] $[[ELIF (]]x$[[ENDIF]]" = .ok l ∧
          (s.expandTemplate l).1.toOption = some " " := by
      decide +kernel
    obtain ⟨shown, ran, h⟩ := (expandTemplate_eq_ok_iff (.inl hl) .all s _ _).1 (hok hout)
    exact ⟨l, shown, ran, hl, h⟩

end Template

end FlagScript
