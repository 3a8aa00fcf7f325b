import FlagScript.Proofs.Template.Rendering

/-!
# Spaces around empty branches

An empty branch takes the space in front of it away if texts stand on both of its sides. Of several
empty branches in a row none has texts on both sides, so the spaces on both sides of them stay
(`expandTemplate_around_empty`). The blocks may stand at any depth, in every row that a state
reaches (`Reached`).
-/

namespace FlagScript

namespace Template

variable {W : Type} [World W] {s : Interpreter W}

/-- Blocks in a row that a state reaches: all of a template, and what one of the branches in such a
row picks. -/
inductive Reached (s : Interpreter W) (t : List Block) : List Block → Prop
  | all : Reached s t t
  | picked {bs : List Block} {first : Clause} {more : List Clause}
      {otherwise content : Option (List Block)} {asked : List Script} (h : Reached s t bs)
      (hb : .branch first more otherwise ∈ bs) (hpicks : Picks s (first :: more) content asked) :
      Reached s t ((content.or otherwise).getD [])

/-- A branch that shows nothing. -/
def IsEmptyBranch (s : Interpreter W) (b : Block) : Prop :=
  (∃ first more otherwise, b = .branch first more otherwise) ∧ (s.expandTemplate [b]).1 = .ok ""

/-- The spaces that stay where one stood on each side of empty branches. -/
def spacesAround (branches : Nat) : List Char :=
  if branches = 1 then [' '] else [' ', ' ']

/-! ## What is shown is known -/

section Unique

variable {α : Type} {f : Interpreter W → Except Error α × Interpreter W}
  {R : α → List Script → Prop}

theorem Answers.unique (h : Answers s f R) {a b : α} {ran more : List Script} (ha : R a ran)
    (hb : R b more) : a = b := by
  have hanswer : ∀ {a ran}, R a ran → (f s).1 = .ok a := fun {a ran} ha => by
    have hok : f s = (.ok a, s.execAll ran) := h.eq_ok_iff (v := s.last).2 ⟨ran, ha, rfl⟩
    rw [hok]
  exact Except.ok.inj ((hanswer ha).symm.trans (hanswer hb))

end Unique

variable {b : Block} {bs : List Block} {shown : List (Block × List Char)} {ran : List Script}

theorem shows_unique {text text' : List Char} {more : List Script} (hb : ∀ x ∈ b.parts, x.AsRead)
    (h : Shows s b text ran) (h' : Shows s b text' more) : text = text' :=
  List.reverse_injective ((blockAnswers b hb).unique ⟨text, h, rfl⟩ ⟨text', h', rfl⟩)

theorem picks_unique {clauses : List Clause} {content content' : Option (List Block)}
    {asked more : List Script} (hread : ClausesAsRead clauses) (h : Picks s clauses content asked)
    (h' : Picks s clauses content' more) : content = content' :=
  (pick_answers hread).unique h h'

/-- Blocks that show something expand to it. -/
theorem expandTemplate_of_showAll (hread : AsRead bs) (h : ShowAll s bs shown ran) :
    (s.expandTemplate bs).1 = .ok (String.ofList (joined shown)) := by
  have hwritten : expandFrom s none [] bs = (.ok (joined shown).reverse, s.execAll ran) :=
    (listAnswers bs hread).start.eq_ok_iff (v := s.last).2 ⟨ran, ⟨shown, h, rfl⟩, rfl⟩
  have hout : s.expandTemplate bs = (.ok (String.ofList (joined shown)), s.execAll ran) :=
    expandTemplate_eq_ok_iff_written.2 ⟨_, hwritten, by rw [List.reverse_reverse]⟩
  rw [hout]

theorem exists_showAll_of_expandTemplate (hread : AsRead bs) {out : String}
    (h : (s.expandTemplate bs).1 = .ok out) :
    ∃ shown ran, ShowAll s bs shown ran ∧ out = String.ofList (joined shown) := by
  obtain ⟨written, hwritten, rfl⟩ := expandTemplate_eq_ok_iff_written.1 (Prod.ext h rfl)
  obtain ⟨ran, ⟨shown, hshown, rfl⟩, -⟩ :=
    (listAnswers bs hread).start.eq_ok_iff (v := s.last).1 hwritten
  exact ⟨shown, ran, hshown, by rw [List.reverse_reverse]⟩

/-! ## Rows that are reached -/

theorem showAll_append_iff {cs : List Block} :
    ShowAll s (bs ++ cs) shown ran ↔ ∃ shown₁ ran₁ shown₂ ran₂, ShowAll s bs shown₁ ran₁ ∧
      ShowAll s cs shown₂ ran₂ ∧ shown = shown₁ ++ shown₂ ∧ ran = ran₁ ++ ran₂ := by
  induction bs generalizing shown ran with
  | nil =>
    constructor
    · intro h
      exact ⟨[], [], shown, ran, .nil, h, rfl, rfl⟩
    · rintro ⟨_, _, shown, ran, ⟨⟩, h, rfl, rfl⟩
      exact h
  | cons b bs ih =>
    constructor
    · rintro (_ | ⟨hb, h⟩)
      obtain ⟨shown₁, ran₁, shown₂, ran₂, h₁, h₂, rfl, rfl⟩ := ih.1 h
      exact ⟨_, _, shown₂, ran₂, .cons hb h₁, h₂, rfl, (List.append_assoc _ _ _).symm⟩
    · rintro ⟨_, _, shown₂, ran₂, _ | ⟨hb, h₁⟩, h₂, rfl, rfl⟩
      rw [List.append_assoc]
      exact .cons hb (ih.2 ⟨_, _, shown₂, ran₂, h₁, h₂, rfl, rfl⟩)

theorem closesGap_branch (first : Clause) (more : List Clause) (otherwise : Option (List Block))
    (behind : List (Block × List Char)) :
    closesGap (.branch first more otherwise) behind = false := rfl

/-- What a branch shows stands unchanged among what is shown together. -/
theorem isInfix_joined {text : List Char} {first : Clause} {more : List Clause}
    {otherwise : Option (List Block)} (h : (.branch first more otherwise, text) ∈ shown) :
    text <:+: joined shown := by
  induction shown with
  | nil => cases h
  | cons head shown ih =>
    rw [joined_cons]
    rcases List.mem_cons.1 h with rfl | h
    · exact (List.prefix_append text (joined shown)).isInfix
    · exact (ih h).trans (List.suffix_append _ _).isInfix

theorem ShowAll.exists_of_mem (h : ShowAll s bs shown ran) (hb : b ∈ bs) :
    ∃ text ran, (b, text) ∈ shown ∧ Shows s b text ran := by
  induction bs generalizing shown ran with
  | nil => cases hb
  | cons b' bs ih =>
    obtain _ | ⟨hb', h⟩ := h
    rcases List.mem_cons.1 hb with rfl | hb
    · exact ⟨_, _, List.mem_cons_self, hb'⟩
    · obtain ⟨text, ran, hmem, hshows⟩ := ih h hb
      exact ⟨text, ran, List.mem_cons_of_mem _ hmem, hshows⟩

theorem AsRead.of_subset {cs : List Block} (h : AsRead cs) (hbs : parts bs ⊆ parts cs) :
    AsRead bs := fun x hx => h x (hbs hx)

theorem AsRead.block (h : AsRead bs) (hb : b ∈ bs) : ∀ x ∈ b.parts, x.AsRead :=
  fun x hx => h x ((isInfix_parts_of_mem hb).subset hx)

/-- What a branch picks stands among its parts. -/
theorem AsRead.picked {first : Clause} {more : List Clause}
    {otherwise content : Option (List Block)} {asked : List Script}
    (h : ∀ x ∈ (Block.branch first more otherwise).parts, x.AsRead)
    (hpicks : Picks s (first :: more) content asked) : AsRead ((content.or otherwise).getD []) := by
  cases content with
  | some blocks =>
    obtain ⟨c, hc, rfl⟩ := exists_of_picks hpicks
    obtain ⟨opens, hparts⟩ := isInfix_parts_of_clause hc
    exact fun x hx => h x (hparts.subset (isInfix_parts_of_content.subset hx))
  | none =>
    cases otherwise with
    | some blocks => exact fun x hx => h x (isInfix_parts_of_else.subset hx)
    | none => exact fun x hx => nomatch hx

/-- Blocks that are reached show something, which stands in what the template shows. -/
theorem Reached.exists_showAll {t : List Block} (ht : AsRead t) (h : ShowAll s t shown ran)
    (hbs : Reached s t bs) :
    AsRead bs ∧ ∃ shown' ran', ShowAll s bs shown' ran' ∧ joined shown' <:+: joined shown := by
  induction hbs with
  | all => exact ⟨ht, shown, ran, h, List.infix_rfl⟩
  | picked _ hb hpicks ih =>
    obtain ⟨hread, shown', ran', hshown', hinfix⟩ := ih
    have hbranch := hread.block hb
    obtain ⟨_, _, hmem, hshows⟩ := hshown'.exists_of_mem hb
    cases hshows with
    | branch hpicks' hinner =>
      obtain rfl := picks_unique (clausesAsRead_of_branch hbranch) hpicks hpicks'
      exact ⟨AsRead.picked hbranch hpicks, _, _, hinner, (isInfix_joined hmem).trans hinfix⟩

/-! ## Gaps in what is shown -/

variable {p q : TextBlock} {behind run : List (Block × List Char)}

/-- Of a text behind a block only the first character counts. -/
theorem closesGap_append_text {u v : TextBlock}
    (hhead : u.text.toList.head? = v.text.toList.head?) (b : Block)
    (front behind behind' : List (Block × List Char)) (cs cs' : List Char) :
    closesGap b (front ++ (.text u, cs) :: behind) =
      closesGap b (front ++ (.text v, cs') :: behind') := by
  cases b with
  | flag name => rfl
  | branch first more otherwise => rfl
  | text t =>
    -- a text looks at the block behind it and at the one behind that
    rcases front with _ | ⟨⟨_ | _ | _, _ | _⟩, _ | ⟨⟨_ | _ | _, _⟩, _⟩⟩ <;>
      simp [closesGap, hhead]

/-- In front of a text nothing depends on more of it than its first character. -/
theorem exists_joined_append_text {u v : TextBlock}
    (hhead : u.text.toList.head? = v.text.toList.head?)
    (front behind behind' : List (Block × List Char)) (cs cs' : List Char) :
    ∃ before, joined (front ++ (.text u, cs) :: behind) =
        before ++ joined ((.text u, cs) :: behind) ∧
      joined (front ++ (.text v, cs') :: behind') =
        before ++ joined ((.text v, cs') :: behind') := by
  induction front with
  | nil => exact ⟨[], rfl, rfl⟩
  | cons head front ih =>
    obtain ⟨before, hu, hv⟩ := ih
    have hcloses := closesGap_append_text hhead head.1 front behind behind' cs cs'
    refine ⟨(if closesGap head.1 (front ++ (.text v, cs') :: behind') then head.2.dropLast
      else head.2) ++ before, ?_, ?_⟩
    · rw [List.cons_append, joined_cons, hcloses, hu, List.append_assoc]
    · rw [List.cons_append, joined_cons, hv, List.append_assoc]

/-- Branches that show nothing. -/
def AllEmpty (run : List (Block × List Char)) : Prop :=
  ∀ x ∈ run, ∃ first more otherwise, x = (.branch first more otherwise, [])

theorem joined_append_of_allEmpty (hrun : AllEmpty run) (behind : List (Block × List Char)) :
    joined (run ++ behind) = joined behind := by
  induction run with
  | nil => rfl
  | cons x run ih =>
    obtain ⟨⟨first, more, otherwise, rfl⟩, hmore⟩ := List.forall_mem_cons.1 hrun
    rw [List.cons_append, joined_cons, closesGap_branch, ih hmore]
    rfl

/-- A text gives up its space if one empty branch stands behind it, not if there are more. -/
theorem closesGap_of_allEmpty (hp : p.text.toList.getLast? = some ' ')
    (hq : q.text.toList.head? = some ' ') (hrun : AllEmpty run) (hne : run ≠ [])
    (cs : List Char) (behind : List (Block × List Char)) :
    closesGap (.text p) (run ++ (.text q, cs) :: behind) = decide (run.length = 1) := by
  cases run with
  | nil => exact absurd rfl hne
  | cons x run =>
    obtain ⟨⟨first, more, otherwise, rfl⟩, hmore⟩ := List.forall_mem_cons.1 hrun
    cases run with
    | nil => simp [closesGap, hp, hq]
    | cons y run =>
      obtain ⟨⟨_, _, _, rfl⟩, -⟩ := List.forall_mem_cons.1 hmore
      simp [closesGap]

/-- Of a text in front of a block only the last character counts. -/
theorem closesGap_text_congr (h : p.text.toList.getLast? = q.text.toList.getLast?)
    (behind : List (Block × List Char)) :
    closesGap (.text p) behind = closesGap (.text q) behind := by
  rcases behind with _ | ⟨⟨_ | _ | _, _ | _⟩, _ | ⟨⟨_ | _ | _, _⟩, _⟩⟩ <;> simp [closesGap, h]

/-- A text that gives up a space ends with one. -/
theorem getLast?_of_closesGap (h : closesGap (.text p) behind = true) :
    p.text.toList.getLast? = some ' ' := by
  unfold closesGap at h
  split at h
  next hp => cases hp; exact beq_iff_eq.1 (Bool.and_eq_true_iff.1 h).1
  next => cases h

variable {c d : Char} {pre suf : List Char}

/-- The space that a text begins with is shown, and what stands behind it as it would be without
that space. -/
theorem exists_joined_space_cons (hq : q.text.toList = ' ' :: d :: suf) (hd : d ≠ ' ')
    (behind : List (Block × List Char)) :
    ∃ right, joined ((.text q, ' ' :: d :: suf) :: behind) = ' ' :: d :: right ∧
      joined ((.text (.ofText (d :: suf)), d :: suf) :: behind) = d :: right := by
  have hlast : q.text.toList.getLast? = (TextBlock.ofText (d :: suf)).text.toList.getLast? := by
    simp [hq, TextBlock.ofText]
  rw [joined_cons, joined_cons, closesGap_text_congr hlast]
  split
  next hcloses =>
    have hspace := getLast?_of_closesGap hcloses
    -- the space that is given up is not `d`, so it stands behind it
    cases suf with
    | nil => simp [TextBlock.ofText, hd] at hspace
    | cons e suf => exact ⟨(e :: suf).dropLast ++ joined behind, rfl, rfl⟩
  next => exact ⟨suf ++ joined behind, rfl, rfl⟩

/-- What is shown of empty branches between two texts. -/
theorem exists_joined_around (hp : p.text.toList = pre ++ [c, ' '])
    (hq : q.text.toList = ' ' :: d :: suf) (hd : d ≠ ' ') (hrun : AllEmpty run) (hne : run ≠ [])
    (front behind : List (Block × List Char)) :
    ∃ left right, joined (front ++ [(.text (.ofText (pre ++ [c])), pre ++ [c])]) = left ++ [c] ∧
      joined ((.text (.ofText (d :: suf)), d :: suf) :: behind) = d :: right ∧
      joined (front ++ (.text p, p.text.toList) ::
          (run ++ (.text q, q.text.toList) :: behind)) =
        left ++ [c] ++ spacesAround run.length ++ d :: right := by
  have hhead : p.text.toList.head? = (TextBlock.ofText (pre ++ [c])).text.toList.head? := by
    cases pre <;> simp [hp, TextBlock.ofText]
  obtain ⟨before, hpfront, hfront⟩ := exists_joined_append_text hhead front
    (run ++ (.text q, q.text.toList) :: behind) [] p.text.toList (pre ++ [c])
  obtain ⟨right, hqbehind, hbehind⟩ := exists_joined_space_cons hq hd behind
  refine ⟨before ++ pre, right, ?_, hbehind, ?_⟩
  · rw [hfront, joined_cons, closesGap_nil]
    simp [joined]
  · have hspaces : p.text.toList.getLast? = some ' ' ∧ q.text.toList.head? = some ' ' := by
      simp [hp, hq]
    have hcloses := closesGap_of_allEmpty hspaces.1 hspaces.2 hrun hne q.text.toList behind
    rw [hpfront, joined_cons, hcloses, joined_append_of_allEmpty hrun, hq, hqbehind, hp]
    by_cases hone : run.length = 1 <;> simp [hone, spacesAround]

/-! ## Gaps in templates -/

theorem nil_of_isEmptyBranch (hread : ∀ x ∈ b.parts, x.AsRead) (hb : IsEmptyBranch s b)
    {text : List Char} (h : Shows s b text ran) : text = [] := by
  have hsingle : AsRead [b] := by
    rwa [AsRead, parts, parts, List.append_nil]
  obtain ⟨shown, ran', hshown, hout⟩ := exists_showAll_of_expandTemplate hsingle hb.2
  obtain _ | ⟨hshows, ⟨⟩⟩ := hshown
  obtain rfl := shows_unique hread h hshows
  have hjoined : joined [(b, text)] = text := by
    rw [joined_cons, closesGap_nil]
    exact List.append_nil text
  rw [hjoined] at hout
  exact (String.ofList_inj.1 (hout.symm : String.ofList text = String.ofList []))

theorem allEmpty_of_showAll (hread : AsRead bs) (hbs : ∀ b ∈ bs, IsEmptyBranch s b)
    (h : ShowAll s bs shown ran) : AllEmpty shown := by
  induction bs generalizing shown ran with
  | nil =>
    cases h
    exact fun x hx => nomatch hx
  | cons b bs ih =>
    obtain _ | ⟨hshows, h⟩ := h
    obtain ⟨hb, hmore⟩ := List.forall_mem_cons.1 hbs
    obtain rfl := nil_of_isEmptyBranch (hread.block List.mem_cons_self) hb hshows
    obtain ⟨first, more, otherwise, rfl⟩ := hb.1
    have hbehind : AsRead bs := hread.of_subset (List.subset_append_right _ _)
    exact List.forall_mem_cons.2 ⟨⟨first, more, otherwise, rfl⟩, ih hbehind hmore h⟩

/-- A text and what stands around it. -/
theorem showAll_append_text_iff {front back : List Block} {t : TextBlock} :
    ShowAll s (front ++ .text t :: back) shown ran ↔ ∃ shown₁ ran₁ shown₂ ran₂,
      ShowAll s front shown₁ ran₁ ∧ ShowAll s back shown₂ ran₂ ∧
        shown = shown₁ ++ (.text t, t.text.toList) :: shown₂ ∧ ran = ran₁ ++ ran₂ := by
  rw [showAll_append_iff]
  constructor
  · rintro ⟨shown₁, ran₁, _, _, h₁, _ | ⟨⟨⟩, h₂⟩, rfl, rfl⟩
    exact ⟨shown₁, ran₁, _, _, h₁, h₂, rfl, rfl⟩
  · rintro ⟨shown₁, ran₁, shown₂, ran₂, h₁, h₂, rfl, rfl⟩
    exact ⟨shown₁, ran₁, _, _, h₁, .cons (.text t) h₂, rfl, rfl⟩

theorem asRead_append_text_iff {front back : List Block} {t : TextBlock} :
    AsRead (front ++ .text t :: back) ↔
      AsRead front ∧ (Part.text t).AsRead ∧ AsRead back := by
  simp only [AsRead, parts_append, parts, Block.parts, List.forall_mem_append,
    List.forall_mem_singleton]

theorem asRead_nil : AsRead [] := fun _ hx => nomatch hx

/-- A text may take any place among blocks. -/
theorem expandTemplate_append_text {front back : List Block} {cs : List Char}
    {shown₁ shown₂ : List (Block × List Char)} {ran₁ ran₂ : List Script} (hcs : cs ≠ [])
    (hfront : AsRead front) (hback : AsRead back) (h₁ : ShowAll s front shown₁ ran₁)
    (h₂ : ShowAll s back shown₂ ran₂) :
    (s.expandTemplate (front ++ .text (.ofText cs) :: back)).1 =
      .ok (String.ofList (joined (shown₁ ++ (.text (.ofText cs), cs) :: shown₂))) := by
  refine expandTemplate_of_showAll (asRead_append_text_iff.2 ⟨hfront, .text hcs, hback⟩)
    (showAll_append_text_iff.2 ⟨shown₁, ran₁, shown₂, ran₂, h₁, h₂, ?_, rfl⟩)
  rw [TextBlock.ofText, String.toList_ofList]

/-- Between a text that ends with a character and a space, and one that begins with a space and
another character, empty branches leave one space if there is one of them, and two if there are
more. This stands between what is shown up to the first character and what is shown from the second
one on, in all rows of blocks that a state reaches, and so in what the whole template shows. -/
theorem expandTemplate_around_empty {source : String} {t : Template} (h : parse source = .ok t)
    {bs front run back : List Block} {p q : TextBlock} {pre suf : List Char} {c d : Char}
    (hbs : Reached s t bs) (hrow : bs = front ++ .text p :: (run ++ .text q :: back))
    (hp : p.text.toList = pre ++ [c, ' ']) (hq : q.text.toList = ' ' :: d :: suf) (hd : d ≠ ' ')
    (hne : run ≠ []) (hrun : ∀ b ∈ run, IsEmptyBranch s b) :
    ∃ left right before after : List Char,
      (s.expandTemplate (front ++ [.text (.ofText (pre ++ [c]))])).1 =
        .ok (String.ofList (left ++ [c])) ∧
      (s.expandTemplate (.text (.ofText (d :: suf)) :: back)).1 =
        .ok (String.ofList (d :: right)) ∧
      (s.expandTemplate bs).1 =
        .ok (String.ofList (left ++ [c] ++ spacesAround run.length ++ d :: right)) ∧
      (s.expandTemplate t).1 = .ok (String.ofList
        (before ++ (left ++ [c] ++ spacesAround run.length ++ d :: right) ++ after)) := by
  have ht := asRead_of_parse h
  obtain ⟨out, hout⟩ := (expandTemplate_expands s (harmless_of_parse h)).total rfl
  obtain ⟨all, ran, hall, rfl⟩ := exists_showAll_of_expandTemplate ht hout
  obtain ⟨hread, shown, ran', hshown, before, after, hinfix⟩ := hbs.exists_showAll ht hall
  have hrowOut := expandTemplate_of_showAll hread hshown
  subst hrow
  -- the row falls apart into what stands in front, the branches, and what stands behind
  obtain ⟨hfront, -, hrest⟩ := asRead_append_text_iff.1 hread
  obtain ⟨hbranches, -, hback⟩ := asRead_append_text_iff.1 hrest
  obtain ⟨shownFront, ran₁, rest, ran₂, hshownFront, hshownRest, rfl, rfl⟩ :=
    showAll_append_text_iff.1 hshown
  obtain ⟨empty, ran₃, shownBack, ran₄, hempty, hshownBack, rfl, rfl⟩ :=
    showAll_append_text_iff.1 hshownRest
  have hlength : empty.length = run.length := by
    rw [← hempty.map_fst, List.length_map]
  have hempties := allEmpty_of_showAll hbranches hrun hempty
  have hnonempty : empty ≠ [] := by
    rwa [← List.length_pos_iff, hlength, List.length_pos_iff]
  obtain ⟨left, right, hleft, hright, haround⟩ :=
    exists_joined_around hp hq hd hempties hnonempty shownFront shownBack
  rw [hlength] at haround
  refine ⟨left, right, before, after, ?_, ?_, by rw [hrowOut, haround], ?_⟩
  · have hcs : pre ++ [c] ≠ [] := List.concat_ne_nil c pre
    rw [expandTemplate_append_text hcs hfront asRead_nil hshownFront .nil, hleft]
  · rw [← hright]
    exact expandTemplate_append_text (List.cons_ne_nil d suf) asRead_nil hback .nil hshownBack
  · rw [← haround, hinfix, hout]

-- that a source is read as a given template can be computed from the parts of both
deriving instance DecidableEq for Condition, Part

theorem eq_ok_of_toOption {ε α : Type} {r : Except ε α} {a : α} (h : r.toOption = some a) :
    r = .ok a := by
  cases r <;> cases h
  rfl

/-- One empty branch between two texts, within a branch whose condition holds. -/
theorem expandTemplate_around_empty_inside :
    let s := Interpreter.withFlags ({} : MemoryWorld) [("A", .bool true)]
    ∃ t p b q, parse "$[[IF $A]]a $[[IF !$A]]x$[[ENDIF]] b$[[ENDIF]]." = .ok t ∧
      Reached s t ([] ++ .text p :: ([b] ++ [.text q])) ∧ p.text.toList = [] ++ ['a', ' '] ∧
        q.text.toList = [' ', 'b'] ∧ IsEmptyBranch s b ∧
          ∃ before after, (s.expandTemplate t).1 =
            .ok (String.ofList (before ++ ['a', ' ', 'b'] ++ after)) := by
  intro s
  let p : TextBlock := .ofText ['a', ' ']
  let q : TextBlock := .ofText [' ', 'b']
  let empty : Block := .branch
    (.mk ⟨1, 13⟩ (.parsed [.unary .not (.flag "A")]) [.text (.ofText ['x'])]) [] none
  let t : Template := [
    .branch (.mk ⟨1, 1⟩ (.parsed [.flag "A"]) [.text p, empty, .text q]) [] none,
    .text (.ofText ['.'])]
  have ht : parse "$[[IF $A]]a $[[IF !$A]]x$[[ENDIF]] b$[[ENDIF]]." = .ok t := by
    obtain ⟨t', ht', hparts⟩ : ∃ t',
        parse "$[[IF $A]]a $[[IF !$A]]x$[[ENDIF]] b$[[ENDIF]]." = .ok t' ∧ parts t' = parts t := by
      decide +kernel
    rw [ht', parts_inj hparts]
  have hpicks : Picks s [.mk ⟨1, 1⟩ (.parsed [.flag "A"]) [.text p, empty, .text q]] (some _) _ :=
    picks_cons_iff.2 ⟨_, .parsed, .inl ⟨by decide +kernel, rfl, rfl⟩⟩
  have hreached : Reached s t ([] ++ .text p :: ([empty] ++ [.text q])) :=
    .picked .all List.mem_cons_self hpicks
  have hempty : IsEmptyBranch s empty := ⟨⟨_, _, _, rfl⟩, eq_ok_of_toOption (by decide +kernel)⟩
  have hp : p.text.toList = [] ++ ['a', ' '] := by decide
  have hq : q.text.toList = [' ', 'b'] := by decide
  refine ⟨t, p, empty, q, ht, hreached, hp, hq, hempty, ?_⟩
  obtain ⟨left, right, before, after, hleft, hright, -, hout⟩ :=
    expandTemplate_around_empty ht hreached rfl hp hq (by decide) (List.cons_ne_nil _ _)
      (List.forall_mem_singleton.2 hempty)
  -- what is shown up to the first character is this character, and so behind the branch
  have hfront : ([] : List Char) ++ ['a'] = left ++ ['a'] :=
    String.ofList_inj.1 (Except.ok.inj hleft)
  have hback : ['b'] = 'b' :: right := String.ofList_inj.1 (Except.ok.inj hright)
  obtain rfl := List.append_cancel_right hfront
  cases hback
  exact ⟨before, after, hout⟩

/-- Of two empty branches between two texts none takes a space away, so two spaces are left. -/
theorem expandTemplate_keeps_two_spaces :
    let s := Interpreter.withFlags ({} : MemoryWorld) []
    ∃ t p b b' q, parse "a $[[IF 0]]x$[[ENDIF]]$[[IF 0]]y$[[ENDIF]] b" = .ok t ∧
      t = [.text p, b, b', .text q] ∧ p.text = "a " ∧ q.text = " b" ∧ IsEmptyBranch s b ∧
        IsEmptyBranch s b' ∧ (s.expandTemplate t).1 = .ok "a  b" := by
  intro s
  let zero : Condition := .parsed [.literal (.int 0) false]
  let b : Block := .branch (.mk ⟨1, 3⟩ zero [.text (.ofText ['x'])]) [] none
  let b' : Block := .branch (.mk ⟨1, 23⟩ zero [.text (.ofText ['y'])]) [] none
  let p : TextBlock := .ofText ['a', ' ']
  let q : TextBlock := .ofText [' ', 'b']
  obtain ⟨t, ht, hparts⟩ : ∃ t, parse "a $[[IF 0]]x$[[ENDIF]]$[[IF 0]]y$[[ENDIF]] b" = .ok t ∧
      parts t = parts [.text p, b, b', .text q] := by
    decide +kernel
  have hb : IsEmptyBranch s b := ⟨⟨_, _, _, rfl⟩, eq_ok_of_toOption (by decide +kernel)⟩
  have hb' : IsEmptyBranch s b' := ⟨⟨_, _, _, rfl⟩, eq_ok_of_toOption (by decide +kernel)⟩
  have hshape := parts_inj hparts
  refine ⟨t, p, b, b', q, ht, hshape, by decide, by decide, hb, hb', ?_⟩
  rw [hshape]
  exact eq_ok_of_toOption (by decide +kernel)

end Template

end FlagScript
