import FlagScript.Proofs.Template.Printed

/-!
# Directives as they are written

`Directive.Written` says how a directive is written behind `$[[`: a keyword in any letter case with
layout around it, and a condition up to the first closing brackets. What is cut off as a directive
is written like one (`written_of_directive?`), and what is written like one is cut off as this one
(`directive?_append`): of the keywords, which overlap, none is taken for another one.
-/

namespace FlagScript

namespace Template

/-! ## How directives are written -/

/-- The characters write a word, which is given in upper case, in any letter case. -/
def Writes (word cs : List Char) : Prop := cs.map Char.toUpper = word

/-- Nothing but layout. -/
def IsGap (cs : List Char) : Prop := ∀ c ∈ cs, Text.isLayout c = true

/-- The keyword of a further clause, in one word or in two. -/
inductive WritesElseIf : List Char → Prop where
  | joined {cs : List Char} (h : Writes ['E', 'L', 'S', 'E', 'I', 'F'] cs) : WritesElseIf cs
  | short {cs : List Char} (h : Writes ['E', 'L', 'I', 'F'] cs) : WritesElseIf cs
  | parted {cs gap ds : List Char} (helse : Writes ['E', 'L', 'S', 'E'] cs) (hgap : IsGap gap)
      (hne : gap ≠ []) (hif : Writes ['I', 'F'] ds) : WritesElseIf (cs ++ (gap ++ ds))

/-- What stands between a keyword and the first closing brackets behind it: nothing, or something
that layout parts from the keyword. -/
structure ConditionText (cs : List Char) : Prop where
  parted : ∀ c ∈ cs.head?, Text.isLayout c = true
  enclosed : Enclosed cs

/-- A directive from its keyword to the brackets that end it. -/
inductive Directive.Spelled : Directive → List Char → Prop where
  | openIf {word cs : List Char} (hword : Writes ['I', 'F'] word) (hcs : ConditionText cs) :
      Spelled (.openIf (String.ofList (Text.trim cs))) (word ++ (cs ++ [']', ']']))
  | elseIf {word cs : List Char} (hword : WritesElseIf word) (hcs : ConditionText cs) :
      Spelled (.elseIf (String.ofList (Text.trim cs))) (word ++ (cs ++ [']', ']']))
  | otherwise {word gap : List Char} (hword : Writes ['E', 'L', 'S', 'E'] word) (hgap : IsGap gap) :
      Spelled .otherwise (word ++ (gap ++ [']', ']']))
  | endIf {word gap : List Char} (hword : Writes ['E', 'N', 'D', 'I', 'F'] word)
      (hgap : IsGap gap) : Spelled .endIf (word ++ (gap ++ [']', ']']))

/-- A directive as it stands behind `$[[`, perhaps with layout in front. -/
def Directive.Written (d : Directive) (cs : List Char) : Prop :=
  ∃ gap ds, IsGap gap ∧ d.Spelled ds ∧ cs = gap ++ ds

/-! ## Words and layout -/

variable {cs ds rest gap word : List Char} {n : Nat}

theorem toUpper_of_isLayout {c : Char} (h : Text.isLayout c = true) :
    c.toUpper = c ∧ c ≠ 'I' ∧ c ≠ 'E' := by
  simp only [Text.isLayout, Bool.or_eq_true, beq_iff_eq] at h
  rcases h with ((rfl | rfl) | rfl) | rfl <;> decide

/-- A word stands in front exactly if the characters begin with it in upper case. -/
theorem wordLength?_eq (word cs : List Char) :
    wordLength? word cs = if word <+: cs.map Char.toUpper then some word.length else none := by
  have hiff : (cs.take word.length).map Char.toUpper = word ↔ word <+: cs.map Char.toUpper := by
    rw [List.map_take, List.prefix_iff_eq_take]
    exact eq_comm
  rw [wordLength?, if_congr hiff rfl rfl]

theorem wordLength?_append (h : Writes word ds) (rest : List Char) :
    wordLength? word (ds ++ rest) = some ds.length := by
  have hlength : word.length = ds.length := by rw [← h, List.length_map]
  rw [wordLength?_eq, List.map_append, h, if_pos (List.prefix_append word _), hlength]

theorem wordLength?_eq_none (h : ¬word <+: cs.map Char.toUpper) : wordLength? word cs = none := by
  rw [wordLength?_eq, if_neg h]

theorem wordLength?_eq_some (h : wordLength? word cs = some n) :
    ∃ ds rest, cs = ds ++ rest ∧ Writes word ds ∧ n = ds.length := by
  unfold wordLength? at h
  split at h
  next hword =>
    cases h
    have hlength := congrArg List.length hword
    rw [List.length_map] at hlength
    exact ⟨_, _, (List.take_append_drop _ cs).symm, hword, hlength.symm⟩
  next => cases h

theorem layoutLength_append (hgap : IsGap gap) (hrest : ∀ c ∈ rest.head?, Text.isLayout c = false) :
    layoutLength (gap ++ rest) = gap.length := by
  rw [layoutLength, List.takeWhile_append_of_pos hgap]
  cases rest with
  | nil => simp
  | cons c rest => simp [hrest c rfl]

/-- The layout in front, and what stands behind it. -/
theorem exists_gap (cs : List Char) :
    ∃ gap rest, cs = gap ++ rest ∧ IsGap gap ∧ ∀ c ∈ rest.head?, Text.isLayout c = false := by
  refine ⟨cs.takeWhile Text.isLayout, cs.dropWhile Text.isLayout, ?_, ?_, ?_⟩
  · exact List.takeWhile_append_dropWhile.symm
  · exact List.all_eq_true.1 List.all_takeWhile
  · intro c hc
    have hnot := List.head?_dropWhile_not Text.isLayout cs
    rw [hc] at hnot
    simpa using hnot

/-! ## Keywords and conditions -/

/-- What may stand behind the keyword of a condition. -/
def KeywordEnds (cs : List Char) : Prop :=
  ∃ c rest, cs = c :: rest ∧ (Text.isLayout c || closes (c :: rest)) = true

theorem ConditionText.keywordEnds (h : ConditionText cs) (rest : List Char) :
    KeywordEnds (cs ++ ']' :: ']' :: rest) := by
  cases cs with
  | nil => exact ⟨_, _, rfl, rfl⟩
  | cons c cs => exact ⟨c, _, rfl, by rw [h.parted c rfl, Bool.true_or]⟩

theorem keywordLength?_append (h : Writes word ds) (hrest : KeywordEnds rest) :
    keywordLength? word (ds ++ rest) = some ds.length := by
  obtain ⟨c, cs, rfl, hc⟩ := hrest
  simp only [keywordLength?, wordLength?_append h, List.drop_left, hc, if_true]

theorem keywordLength?_eq_none (h : ¬word <+: cs.map Char.toUpper) :
    keywordLength? word cs = none := by
  rw [keywordLength?, wordLength?_eq_none h]

theorem keywordLength?_eq_some (h : keywordLength? word cs = some n) :
    ∃ ds rest, cs = ds ++ rest ∧ Writes word ds ∧ n = ds.length ∧ KeywordEnds rest := by
  unfold keywordLength? at h
  split at h
  next => cases h
  next m hword =>
    obtain ⟨ds, rest, rfl, hds, rfl⟩ := wordLength?_eq_some hword
    rw [List.drop_left] at h
    split at h
    next c rest =>
      split at h
      next hc =>
        cases h
        exact ⟨ds, c :: rest, rfl, hds, rfl, c, rest, rfl, hc⟩
      next => cases h
    next => cases h

/-- A condition goes on to the first brackets behind it. -/
theorem conditionTo?_append (h : Enclosed cs) (rest : List Char) :
    conditionTo? (cs ++ ']' :: ']' :: rest) =
      some (String.ofList (Text.trim cs), cs.length + 2) := by
  obtain ⟨n, hdistance, _, hn, _⟩ := closeDistance?_append cs rest
  rw [conditionTo?, hdistance, hn h, Option.map_some, List.take_left]

theorem closes_eq_true (h : closes cs = true) : ∃ rest, cs = ']' :: ']' :: rest := by
  unfold closes at h
  split at h
  next rest => exact ⟨rest, rfl⟩
  next => cases h

theorem closeDistance?_eq_some (h : closeDistance? cs = some n) :
    ∃ ds rest, cs = ds ++ ']' :: ']' :: rest ∧ Enclosed ds ∧ n = ds.length := by
  induction cs generalizing n with
  | nil => cases h
  | cons c cs ih =>
    rw [closeDistance?] at h
    split at h
    next hcloses =>
      cases h
      obtain ⟨rest, hrest⟩ := closes_eq_true hcloses
      exact ⟨[], rest, hrest, ⟨by simp, by simp⟩, rfl⟩
    next hcloses =>
      obtain ⟨m, hm, rfl⟩ := Option.map_eq_some_iff.1 h
      obtain ⟨ds, rest, rfl, hds, rfl⟩ := ih hm
      -- brackets that began with this character would close here
      have hhead : c = ']' → (ds ++ [']']).head? ≠ some ']' := fun hc hhead =>
        hcloses (closes_append_iff.2 ⟨hc, hhead⟩)
      exact ⟨c :: ds, rest, rfl, Enclosed.cons_iff.2 ⟨hhead, hds⟩, rfl⟩

theorem conditionTo?_eq_some {condition : String} (h : conditionTo? cs = some (condition, n)) :
    ∃ ds rest, cs = ds ++ ']' :: ']' :: rest ∧ Enclosed ds ∧
      condition = String.ofList (Text.trim ds) ∧ n = ds.length + 2 := by
  obtain ⟨m, hm, hcondition⟩ := Option.map_eq_some_iff.1 h
  obtain ⟨ds, rest, rfl, hds, rfl⟩ := closeDistance?_eq_some hm
  rw [List.take_left] at hcondition
  cases hcondition
  exact ⟨ds, rest, rfl, hds, rfl, rfl⟩

/-- What stands between a keyword and the brackets is parted from the keyword. -/
theorem KeywordEnds.conditionText (h : KeywordEnds (cs ++ ']' :: ']' :: rest))
    (hcs : Enclosed cs) : ConditionText cs := by
  refine ⟨fun c hc => ?_, hcs⟩
  obtain ⟨cs, rfl⟩ := List.head?_eq_some_iff.1 hc
  obtain ⟨d, more, heq, hd⟩ := h
  obtain ⟨rfl, rfl⟩ := List.cons.inj heq
  rcases Bool.or_eq_true_iff.1 hd with hlayout | hcloses
  · exact hlayout
  · obtain ⟨rfl, hhead⟩ := closes_append_iff.1 hcloses
    exact absurd hhead ((Enclosed.cons_iff.1 hcs).1 rfl)

/-! ## Keywords in two words, and directives without a condition -/

theorem elseIfLength?_append (hds : Writes ['E', 'L', 'S', 'E'] ds) (hgap : IsGap gap)
    (hrest : ∀ c ∈ rest.head?, Text.isLayout c = false) :
    elseIfLength? (ds ++ (gap ++ rest)) =
      if gap = [] then none
      else (keywordLength? ['I', 'F'] rest).map (ds.length + gap.length + ·) := by
  have hdrop : (ds ++ (gap ++ rest)).drop (ds.length + gap.length) = rest := by
    rw [← List.append_assoc, ← List.length_append, List.drop_left]
  simp only [elseIfLength?, wordLength?_append hds, List.drop_left, layoutLength_append hgap hrest,
    hdrop, List.length_eq_zero_iff]

theorem elseIfLength?_eq_none (h : ¬['E', 'L', 'S', 'E'] <+: cs.map Char.toUpper) :
    elseIfLength? cs = none := by
  rw [elseIfLength?, wordLength?_eq_none h]

theorem elseIfLength?_eq_some (h : elseIfLength? cs = some n) :
    ∃ ds rest, cs = ds ++ rest ∧ WritesElseIf ds ∧ n = ds.length ∧ KeywordEnds rest := by
  cases helse : wordLength? ['E', 'L', 'S', 'E'] cs with
  | none => rw [elseIfLength?, helse] at h; cases h
  | some m =>
    obtain ⟨ds, behind, rfl, hds, rfl⟩ := wordLength?_eq_some helse
    obtain ⟨gap, behind, rfl, hgap, hbehind⟩ := exists_gap behind
    rw [elseIfLength?_append hds hgap hbehind] at h
    split at h
    next => cases h
    next hne =>
      obtain ⟨k, hk, rfl⟩ := Option.map_eq_some_iff.1 h
      obtain ⟨ds', rest, rfl, hif, rfl, hends⟩ := keywordLength?_eq_some hk
      refine ⟨ds ++ (gap ++ ds'), rest, by simp, .parted hds hgap hne hif, ?_, hends⟩
      rw [List.length_append, List.length_append, Nat.add_assoc]

theorem bareLength?_append (hds : Writes word ds) (hgap : IsGap gap)
    (hrest : ∀ c ∈ rest.head?, Text.isLayout c = false) :
    bareLength? word (ds ++ (gap ++ rest)) =
      if closes rest then some (ds.length + gap.length + 2) else none := by
  have hdrop : (ds ++ (gap ++ rest)).drop (ds.length + gap.length) = rest := by
    rw [← List.append_assoc, ← List.length_append, List.drop_left]
  simp only [bareLength?, wordLength?_append hds, List.drop_left, layoutLength_append hgap hrest,
    hdrop]

theorem bareLength?_eq_none (h : ¬word <+: cs.map Char.toUpper) : bareLength? word cs = none := by
  rw [bareLength?, wordLength?_eq_none h]

theorem bareLength?_eq_some (h : bareLength? word cs = some n) :
    ∃ ds gap rest, cs = ds ++ (gap ++ [']', ']']) ++ rest ∧ Writes word ds ∧ IsGap gap ∧
      n = (ds ++ (gap ++ [']', ']'])).length := by
  cases hword : wordLength? word cs with
  | none => rw [bareLength?, hword] at h; cases h
  | some m =>
    obtain ⟨ds, behind, rfl, hds, rfl⟩ := wordLength?_eq_some hword
    obtain ⟨gap, behind, rfl, hgap, hbehind⟩ := exists_gap behind
    rw [bareLength?_append hds hgap hbehind] at h
    split at h
    next hcloses =>
      cases h
      obtain ⟨rest, rfl⟩ := closes_eq_true hcloses
      exact ⟨ds, gap, rest, by simp, hds, hgap, by simp [Nat.add_assoc]⟩
    next => cases h

/-! ## Cutting off a directive -/

variable {d : Directive}

/-- What is cut off as a directive is written like one. -/
theorem spelled_of_directiveHere? (h : directiveHere? cs = some (d, n)) :
    ∃ ds rest, cs = ds ++ rest ∧ d.Spelled ds ∧ n = ds.length := by
  -- a keyword that has its end behind it, and the condition up to the brackets
  have hcondition : ∀ {word rest : List Char} {make : String → Directive},
      KeywordEnds rest → ((conditionTo? rest).map fun (x : String × Nat) =>
        (make x.1, word.length + x.2)) = some (d, n) →
      ∃ cs more, rest = cs ++ ']' :: ']' :: more ∧ ConditionText cs ∧
        d = make (String.ofList (Text.trim cs)) ∧ n = (word ++ (cs ++ [']', ']'])).length := by
    intro word rest make hends hsome
    obtain ⟨⟨condition, m⟩, hto, heq⟩ := Option.map_eq_some_iff.1 hsome
    obtain ⟨cs, more, rfl, hcs, rfl, rfl⟩ := conditionTo?_eq_some hto
    cases heq
    exact ⟨cs, more, rfl, hends.conditionText hcs, rfl, by simp⟩
  unfold directiveHere? at h
  split at h
  next m hif =>
    obtain ⟨word, rest, rfl, hword, rfl, hends⟩ := keywordLength?_eq_some hif
    rw [List.drop_left] at h
    obtain ⟨cs, more, rfl, hcs, rfl, rfl⟩ := hcondition hends h
    exact ⟨_, more, by simp, .openIf hword hcs, rfl⟩
  next =>
    split at h
    next m helseIf =>
      have hwrites : ∃ word rest, cs = word ++ rest ∧ WritesElseIf word ∧ m = word.length ∧
          KeywordEnds rest := by
        rcases Option.or_eq_some_iff.1 helseIf with hjoined | ⟨_, hother⟩
        · obtain ⟨word, rest, hcs, hword, hm, hends⟩ := keywordLength?_eq_some hjoined
          exact ⟨word, rest, hcs, .joined hword, hm, hends⟩
        rcases Option.or_eq_some_iff.1 hother with hshort | ⟨_, hparted⟩
        · obtain ⟨word, rest, hcs, hword, hm, hends⟩ := keywordLength?_eq_some hshort
          exact ⟨word, rest, hcs, .short hword, hm, hends⟩
        · exact elseIfLength?_eq_some hparted
      obtain ⟨word, rest, rfl, hword, rfl, hends⟩ := hwrites
      rw [List.drop_left] at h
      obtain ⟨cs, more, rfl, hcs, rfl, rfl⟩ := hcondition hends h
      exact ⟨_, more, by simp, .elseIf hword hcs, rfl⟩
    next =>
      split at h
      next m helse =>
        cases h
        obtain ⟨ds, gap, rest, rfl, hds, hgap, hn⟩ := bareLength?_eq_some helse
        exact ⟨_, rest, rfl, .otherwise hds hgap, hn⟩
      next =>
        obtain ⟨m, hend, hd⟩ := Option.map_eq_some_iff.1 h
        cases hd
        obtain ⟨ds, gap, rest, rfl, hds, hgap, hn⟩ := bareLength?_eq_some hend
        exact ⟨_, rest, rfl, .endIf hds hgap, hn⟩

theorem Writes.map_append (h : Writes word ds) (rest : List Char) :
    (ds ++ rest).map Char.toUpper = word ++ rest.map Char.toUpper := by
  rw [List.map_append, h]

/-- Where a word stands, no keyword stands that does not agree with it. -/
theorem Writes.keywordLength?_eq_none (h : Writes word ds) (other rest : List Char)
    (hother : ¬other <+: word ++ rest.map Char.toUpper) :
    keywordLength? other (ds ++ rest) = none :=
  Template.keywordLength?_eq_none (by rwa [h.map_append])

/-- Letters are no layout. -/
theorem Writes.head?_append {x : Char} (h : Writes (x :: word) ds) (hx : x = 'I' ∨ x = 'E')
    (rest : List Char) : ∀ c ∈ (ds ++ rest).head?, Text.isLayout c = false := by
  intro c hc
  obtain ⟨d, ds, rfl, hd, _⟩ := List.map_eq_cons_iff.1 h
  cases hc
  by_contra hlayout
  obtain ⟨hupper, hI, hE⟩ := toUpper_of_isLayout (by simpa using hlayout)
  rw [hupper] at hd
  rcases hx with hx | hx
  · exact hI (hd.trans hx)
  · exact hE (hd.trans hx)

/-- Behind `ELSE` the keyword in one word does not go on. -/
theorem not_joined (hds : Writes ['E', 'L', 'S', 'E'] ds) (hgap : IsGap gap)
    (hne : gap ≠ [] ∨ rest.head? = some ']') :
    ¬['E', 'L', 'S', 'E', 'I', 'F'] <+: (ds ++ (gap ++ rest)).map Char.toUpper := by
  have hhead : ∀ c ∈ (gap ++ rest).head?, c.toUpper ≠ 'I' := by
    intro c hc
    cases gap with
    | nil =>
      have hbracket := hne.resolve_left (by simp)
      rw [List.nil_append, hbracket] at hc
      cases hc
      decide
    | cons d gap =>
      cases hc
      have hlayout := toUpper_of_isLayout (hgap c (List.mem_cons_self ..))
      rw [hlayout.1]
      exact hlayout.2.1
  rw [hds.map_append]
  cases hbehind : gap ++ rest with
  | nil => simp
  | cons c behind =>
    have hc := hhead c (by rw [hbehind]; rfl)
    simp [hc.symm]

/-- The keyword of a further clause is found, and not taken for the one of a first clause. -/
theorem WritesElseIf.found (h : WritesElseIf ds) (hrest : KeywordEnds rest) :
    keywordLength? ['I', 'F'] (ds ++ rest) = none ∧
      (keywordLength? ['E', 'L', 'S', 'E', 'I', 'F'] (ds ++ rest)).or
        ((keywordLength? ['E', 'L', 'I', 'F'] (ds ++ rest)).or (elseIfLength? (ds ++ rest))) =
          some ds.length := by
  cases h with
  | joined hds =>
    have hif := hds.keywordLength?_eq_none ['I', 'F'] rest (by simp)
    exact ⟨hif, by rw [keywordLength?_append hds hrest, Option.some_or]⟩
  | short hds =>
    have hif := hds.keywordLength?_eq_none ['I', 'F'] rest (by simp)
    have hjoined := hds.keywordLength?_eq_none ['E', 'L', 'S', 'E', 'I', 'F'] rest (by simp)
    exact ⟨hif, by rw [hjoined, keywordLength?_append hds hrest, Option.none_or, Option.some_or]⟩
  | @parted cs gap ds helse hgap hne hds =>
    rw [List.append_assoc, List.append_assoc]
    -- the gap ends the first word, so neither of the joined keywords is found
    have hif := helse.keywordLength?_eq_none ['I', 'F'] (gap ++ (ds ++ rest)) (by simp)
    have hshort := helse.keywordLength?_eq_none ['E', 'L', 'I', 'F'] (gap ++ (ds ++ rest)) (by simp)
    have hjoined : keywordLength? ['E', 'L', 'S', 'E', 'I', 'F'] (cs ++ (gap ++ (ds ++ rest))) =
        none :=
      keywordLength?_eq_none (not_joined helse hgap (.inl hne))
    have hparted : elseIfLength? (cs ++ (gap ++ (ds ++ rest))) =
        some (cs ++ (gap ++ ds)).length := by
      rw [elseIfLength?_append helse hgap (hds.head?_append (.inl rfl) rest), if_neg hne,
        keywordLength?_append hds hrest]
      simp [Nat.add_assoc]
    exact ⟨hif, by rw [hjoined, hshort, hparted, Option.none_or, Option.none_or]⟩

/-- A directive without a condition is not taken for one with a condition. -/
theorem no_condition (h : Writes ['E', 'L', 'S', 'E'] word ∨ Writes ['E', 'N', 'D', 'I', 'F'] word)
    (hgap : IsGap gap) (hrest : rest.head? = some ']') :
    keywordLength? ['I', 'F'] (word ++ (gap ++ rest)) = none ∧
      (keywordLength? ['E', 'L', 'S', 'E', 'I', 'F'] (word ++ (gap ++ rest))).or
        ((keywordLength? ['E', 'L', 'I', 'F'] (word ++ (gap ++ rest))).or
          (elseIfLength? (word ++ (gap ++ rest)))) = none := by
  rcases h with hword | hword
  · have hif := hword.keywordLength?_eq_none ['I', 'F'] (gap ++ rest) (by simp)
    have hshort := hword.keywordLength?_eq_none ['E', 'L', 'I', 'F'] (gap ++ rest) (by simp)
    have hjoined : keywordLength? ['E', 'L', 'S', 'E', 'I', 'F'] (word ++ (gap ++ rest)) = none :=
      keywordLength?_eq_none (not_joined hword hgap (.inr hrest))
    have hparted : elseIfLength? (word ++ (gap ++ rest)) = none := by
      obtain ⟨rest, rfl⟩ := List.head?_eq_some_iff.1 hrest
      have hno : keywordLength? ['I', 'F'] (']' :: rest) = none := keywordLength?_eq_none (by simp)
      rw [elseIfLength?_append hword hgap (by simp [Text.isLayout]), hno, Option.map_none, ite_self]
    exact ⟨hif, by rw [hjoined, hshort, hparted, Option.none_or, Option.none_or]⟩
  · have hif := hword.keywordLength?_eq_none ['I', 'F'] (gap ++ rest) (by simp)
    have hshort := hword.keywordLength?_eq_none ['E', 'L', 'I', 'F'] (gap ++ rest) (by simp)
    have hjoined :=
      hword.keywordLength?_eq_none ['E', 'L', 'S', 'E', 'I', 'F'] (gap ++ rest) (by simp)
    have hparted : elseIfLength? (word ++ (gap ++ rest)) = none :=
      elseIfLength?_eq_none (by rw [hword.map_append]; simp)
    exact ⟨hif, by rw [hjoined, hshort, hparted, Option.none_or, Option.none_or]⟩

/-- What is written like a directive is cut off as this one, whatever stands behind it: no keyword
that is tried before its own stands here. -/
theorem directiveHere?_append (h : d.Spelled ds) (rest : List Char) :
    directiveHere? (ds ++ rest) = some (d, ds.length) := by
  cases h with
  | @openIf word cs hword hcs =>
    have hends := hcs.keywordEnds rest
    have hcondition := conditionTo?_append hcs.enclosed rest
    simp only [List.append_assoc, List.cons_append, List.nil_append, directiveHere?,
      keywordLength?_append hword hends, List.drop_left, hcondition, Option.map_some,
      List.length_append, List.length_cons, List.length_nil]
  | @elseIf word cs hword hcs =>
    obtain ⟨hif, hfound⟩ := hword.found (hcs.keywordEnds rest)
    have hcondition := conditionTo?_append hcs.enclosed rest
    simp only [List.append_assoc, List.cons_append, List.nil_append, directiveHere?, hif, hfound,
      List.drop_left, hcondition, Option.map_some, List.length_append, List.length_cons,
      List.length_nil]
  | @otherwise word gap hword hgap =>
    let brackets := ']' :: ']' :: rest
    have hhead : ∀ c ∈ brackets.head?, Text.isLayout c = false := by simp [brackets, Text.isLayout]
    obtain ⟨hif, hnone⟩ := no_condition (.inl hword) hgap (show brackets.head? = _ from rfl)
    have helse := bareLength?_append hword hgap hhead
    simp only [List.append_assoc, List.cons_append, List.nil_append, directiveHere?, brackets, hif,
      hnone, helse, closes, if_true, List.length_append, List.length_cons, List.length_nil,
      Nat.add_assoc]
  | @endIf word gap hword hgap =>
    let brackets := ']' :: ']' :: rest
    have hhead : ∀ c ∈ brackets.head?, Text.isLayout c = false := by simp [brackets, Text.isLayout]
    obtain ⟨hif, hnone⟩ := no_condition (.inr hword) hgap (show brackets.head? = _ from rfl)
    -- the keywords are tried in turn, and the first three differ from this one
    have helse : bareLength? ['E', 'L', 'S', 'E'] (word ++ (gap ++ brackets)) = none :=
      bareLength?_eq_none (by rw [hword.map_append]; simp)
    have hend := bareLength?_append hword hgap hhead
    simp only [List.append_assoc, List.cons_append, List.nil_append, directiveHere?, brackets, hif,
      hnone, helse, hend, closes, if_true, Option.map_some, List.length_append, List.length_cons,
      List.length_nil, Nat.add_assoc]

theorem written_of_directive? (h : directive? cs = some (d, n)) :
    ∃ ds rest, cs = ds ++ rest ∧ d.Written ds ∧ n = ds.length := by
  obtain ⟨gap, behind, rfl, hgap, hbehind⟩ := exists_gap cs
  obtain ⟨⟨d', m⟩, hhere, heq⟩ := Option.map_eq_some_iff.1 h
  rw [layoutLength_append hgap hbehind, List.drop_left] at hhere
  obtain ⟨ds, rest, rfl, hds, rfl⟩ := spelled_of_directiveHere? hhere
  cases heq
  refine ⟨gap ++ ds, rest, by simp, ⟨gap, ds, hgap, hds, rfl⟩, ?_⟩
  rw [layoutLength_append hgap hbehind, List.length_append]

/-- A directive does not begin with layout. -/
theorem Directive.Spelled.head?_append (h : d.Spelled ds) (rest : List Char) :
    ∀ c ∈ (ds ++ rest).head?, Text.isLayout c = false := by
  cases h with
  | openIf hword _ => rw [List.append_assoc]; exact hword.head?_append (.inl rfl) _
  | otherwise hword _ => rw [List.append_assoc]; exact hword.head?_append (.inr rfl) _
  | endIf hword _ => rw [List.append_assoc]; exact hword.head?_append (.inr rfl) _
  | elseIf hword _ =>
    rw [List.append_assoc]
    cases hword with
    | joined hds => exact hds.head?_append (.inr rfl) _
    | short hds => exact hds.head?_append (.inr rfl) _
    | parted hds _ _ _ => rw [List.append_assoc]; exact hds.head?_append (.inr rfl) _

theorem directive?_append (h : d.Written ds) (rest : List Char) :
    directive? (ds ++ rest) = some (d, ds.length) := by
  obtain ⟨gap, ds, hgap, hds, rfl⟩ := h
  rw [directive?, List.append_assoc, layoutLength_append hgap (hds.head?_append rest),
    List.drop_left, directiveHere?_append hds rest, Option.map_some, List.length_append]

end Template

end FlagScript
