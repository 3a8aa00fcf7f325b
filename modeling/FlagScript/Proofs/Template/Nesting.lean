import FlagScript.Proofs.Template.Acceptance
import FlagScript.Proofs.Template.Printed

/-!
# How deep branches nest

Reading a template, preparing and expanding it go as deep as its branches stand within each other.
Nothing but the source bounds this: a branch takes at least the 17 characters of `$[[IF]]` and
`$[[ENDIF]]`, so branches nest at most as often as that fits into the source, and they can nest as
often (`nesting_of_length`). The limit on how deep scripts nest is about single conditions.
-/

namespace FlagScript

mutual

/-- How many branches of a block stand within each other. -/
def Block.nesting : Block → Nat
  | .text _ => 0
  | .flag _ => 0
  | .branch first more otherwise =>
    max (Clause.nesting first) (max (Clause.nestingOf more) (Template.elseNesting otherwise)) + 1

def Clause.nesting : Clause → Nat
  | .mk _ _ content => Template.nesting content

/-- The deepest of some clauses. -/
def Clause.nestingOf : List Clause → Nat
  | [] => 0
  | c :: cs => max (Clause.nesting c) (Clause.nestingOf cs)

def Template.elseNesting : Option (List Block) → Nat
  | none => 0
  | some blocks => Template.nesting blocks

/-- How many branches of a template stand within each other, where it is deepest. -/
def Template.nesting : List Block → Nat
  | [] => 0
  | b :: bs => max (Block.nesting b) (Template.nesting bs)

end

namespace Template

/-! ## Nesting takes characters -/

/-- How many characters the directives at both ends of branches have at least. -/
def branchLength : List Item → Nat
  | [] => 0
  | .directive _ (.openIf _) :: xs => 7 + branchLength xs
  | .directive _ .endIf :: xs => 10 + branchLength xs
  | _ :: xs => branchLength xs

theorem branchLength_append (xs ys : List Item) :
    branchLength (xs ++ ys) = branchLength xs + branchLength ys := by
  fun_induction branchLength xs <;> simp_all [branchLength] <;> omega

theorem Writes.length_eq {word cs : List Char} (h : Writes word cs) : cs.length = word.length := by
  rw [← h, List.length_map]

theorem branchLength_directive_le {p : Position} {d : Directive} {ds : List Char}
    (h : d.Written ds) : branchLength [.directive p d] ≤ ds.length + 3 := by
  obtain ⟨gap, spelled, _, hspelled, rfl⟩ := h
  cases hspelled with
  | openIf hword _ =>
    have hlength := hword.length_eq
    simp [branchLength, hlength]
    omega
  | endIf hword _ =>
    have hlength := hword.length_eq
    simp [branchLength, hlength]
    omega
  | elseIf | otherwise => simp [branchLength]

theorem branchLength_le_of_scans {p : Position} {cs : List Char} {items : List Item}
    (h : Scans p cs items) : branchLength items ≤ cs.length := by
  -- what is counted of a directive is at most as long as it is written; nothing else is counted
  induction h with
  | nil | backslash | malformed => simp [branchLength]
  | escape _ ih => simp [branchLength]; omega
  | char _ _ _ ih => simp [branchLength]; omega
  | flag hcs _ _ _ _ ih => simp [branchLength, hcs]; omega
  | @directive p d ds rest cs xs hcs hd _ ih =>
    have hdirective := branchLength_directive_le (p := p) hd
    have happend := branchLength_append [.directive p d] xs
    rw [List.singleton_append] at happend
    simp only [happend, List.length_cons, hcs, List.length_append]
    omega

mutual

theorem Branch.nesting_le : ∀ (b : Block) {xs : List Item}, Branch xs b →
    17 * b.nesting ≤ branchLength xs
  | .branch (.mk p _ content) more otherwise, _, h => by
    cases h with
    | @mk _ q condition xs ys zs _ _ _ hcontent hmore hotherwise =>
      have hcontent := hcontent.nesting_le content
      have hmore := hmore.nesting_le more
      have hotherwise := hotherwise.nesting_le otherwise
      -- the parts of a branch stand behind one another, so the deepest of them is among their sum
      simp only [Block.nesting, Clause.nesting, branchLength, branchLength_append]
      omega

theorem Clauses.nesting_le : ∀ (cs : List Clause) {xs : List Item}, Clauses xs cs →
    17 * Clause.nestingOf cs ≤ branchLength xs
  | [], _, _ => by simp [Clause.nestingOf]
  | .mk _ _ content :: more, _, h => by
    cases h with
    | cons hcontent hmore =>
      have hcontent := hcontent.nesting_le content
      have hmore := hmore.nesting_le more
      simp only [Clause.nestingOf, Clause.nesting, branchLength, branchLength_append]
      omega

theorem Otherwise.nesting_le : ∀ (otherwise : Option (List Block)) {xs : List Item},
    Otherwise xs otherwise → 17 * elseNesting otherwise ≤ branchLength xs
  | none, _, _ => by simp [elseNesting]
  | some blocks, _, h => by
    cases h with
    | some h => exact h.nesting_le blocks

/-- Blocks nest as often as the directives of a branch fit among their items, or less often. -/
theorem Blocks.nesting_le : ∀ (bs : List Block) {xs : List Item}, Blocks xs bs →
    17 * nesting bs ≤ branchLength xs
  | [], _, _ => by simp [nesting]
  | b :: bs, _, h => by
    cases h with
    | text _ _ h =>
      have hrest := h.nesting_le bs
      simp only [nesting, Block.nesting, branchLength_append]
      omega
    | flag h =>
      have hrest := h.nesting_le bs
      simp only [nesting, Block.nesting, branchLength]
      omega
    | branch hb h =>
      have hbranch := hb.nesting_le b
      have hrest := h.nesting_le bs
      simp only [nesting, branchLength_append]
      omega

end

theorem nesting_le_of_parseLazy {source : String} {t : Template} (h : parseLazy source = .ok t) :
    17 * nesting t ≤ source.length := by
  obtain ⟨items, hscans⟩ := exists_scans .start source.toList
  have hblocks : Blocks items t := (parseLazy_eq_ok_iff hscans).1 h
  rw [← String.length_toList]
  exact (hblocks.nesting_le t).trans (branchLength_le_of_scans hscans)

/-! ## Preparing keeps the nesting -/

mutual

theorem nesting_mapBlockHeads (f : Head → Head) : ∀ b : Block, (b.mapHeads f).nesting = b.nesting
  | .text _ => rfl
  | .flag _ => rfl
  | .branch first more otherwise => by
    rw [Block.mapHeads, Block.nesting, Block.nesting, nesting_mapClauseHeads f first,
      nestingOf_mapAllHeads f more, nesting_mapElse f otherwise]

theorem nesting_mapClauseHeads (f : Head → Head) : ∀ c : Clause,
    (c.mapHeads f).nesting = c.nesting
  | .mk p condition content => by
    rw [Clause.mapHeads, Clause.nesting, Clause.nesting, nesting_mapHeads f content]

theorem nestingOf_mapAllHeads (f : Head → Head) : ∀ cs : List Clause,
    Clause.nestingOf (Clause.mapAllHeads f cs) = Clause.nestingOf cs
  | [] => rfl
  | c :: cs => by
    rw [Clause.mapAllHeads, Clause.nestingOf, Clause.nestingOf, nesting_mapClauseHeads f c,
      nestingOf_mapAllHeads f cs]

theorem nesting_mapElse (f : Head → Head) : ∀ otherwise : Option (List Block),
    elseNesting (mapElse f otherwise) = elseNesting otherwise
  | none => rfl
  | some blocks => by rw [mapElse, elseNesting, elseNesting, nesting_mapHeads f blocks]

/-- Whatever is changed about directives, blocks nest as before. -/
theorem nesting_mapHeads (f : Head → Head) : ∀ bs : List Block,
    nesting (mapHeads f bs) = nesting bs
  | [] => rfl
  | b :: bs => by
    rw [mapHeads, nesting, nesting, nesting_mapBlockHeads f b, nesting_mapHeads f bs]

end

theorem nesting_unplaced (t : Template) : nesting t.unplaced = nesting t :=
  nesting_mapHeads Head.unplaced t

theorem shapes_of_prepared {xs ys : List Part}
    (h : List.Forall₂ (fun x y => x.prepare = .ok y) xs ys) :
    ys.map Part.shape = xs.map Part.shape := by
  induction h with
  | nil => rfl
  | cons hprepare _ ih => rw [List.map_cons, List.map_cons, Part.shape_of_prepare hprepare, ih]

theorem nesting_of_prepare {l t : Template} (h : prepareBlocks l = .ok t) :
    nesting t = nesting l := by
  -- without its conditions, the template that was prepared is the one before
  let blank : Head → Head := fun _ => (.start, .raw "")
  have hsame : mapHeads blank t = mapHeads blank l := by
    apply parts_inj
    rw [parts_mapHeads, parts_mapHeads]
    exact shapes_of_prepared (prepareBlocks_eq_ok_iff.1 ⟨t, h, rfl⟩)
  rw [← nesting_mapHeads blank t, hsame, nesting_mapHeads]

theorem nesting_le_of_parse {source : String} {t : Template} (h : parse source = .ok t) :
    17 * nesting t ≤ source.length := by
  obtain ⟨l, hl, hprepare⟩ := bind_eq_ok_iff.1 h
  rw [nesting_of_prepare hprepare]
  exact nesting_le_of_parseLazy hl

/-! ## Templates of every depth -/

/-- Branches within each other with nothing in between, and without conditions. -/
def nested : Nat → Template
  | 0 => []
  | n + 1 => [.branch (.mk .start (.parsed []) (nested n)) [] none]

theorem nesting_nested (n : Nat) : nesting (nested n) = n := by
  induction n with
  | zero => rfl
  | succ n ih =>
    simp [nested, nesting, Block.nesting, Clause.nesting, Clause.nestingOf, elseNesting, ih]

theorem parts_nested_succ (n : Nat) :
    parts (nested (n + 1)) =
      .clause true .start (.parsed []) :: (parts (nested n) ++ [.endIf]) := by
  simp [nested, parts, Block.parts, Clause.parts, Clause.furtherParts, elseParts]

theorem length_source_nested (n : Nat) : (source (nested n)).length = 17 * n := by
  rw [← String.length_toList, toList_source]
  induction n with
  | zero => rfl
  | succ n ih =>
    have hopen : (Part.clause true .start (.parsed [])).source.length = 7 := by decide
    have hclose : Part.endIf.source.length = 10 := by decide
    rw [parts_nested_succ, List.flatMap_cons, List.flatMap_append, List.flatMap_singleton,
      List.length_append, List.length_append, ih, hopen, hclose]
    omega

theorem mem_parts_nested {n : Nat} {x : Part} (h : x ∈ parts (nested n)) :
    x = .clause true .start (.parsed []) ∨ x = .endIf := by
  induction n with
  | zero => cases h
  | succ n ih =>
    rw [parts_nested_succ, List.mem_cons, List.mem_append, List.mem_singleton] at h
    rcases h with h | h | h
    · exact .inl h
    · exact ih h
    · exact .inr h

theorem rereads_nil : Script.Rereads [] where
  again := by decide +kernel
  trim := by decide
  harmless := rfl
  spelled := List.forall_mem_nil _

/-- What is printed of branches within each other is read as such. -/
theorem exists_parse_nested (n : Nat) :
    ∃ l t, parseLazy (source (nested n)) = .ok l ∧ parse (source (nested n)) = .ok t ∧
      nesting l = n ∧ nesting t = n := by
  have hregular : ∀ x ∈ parts (nested n), x.Regular Condition.Rereads := by
    intro x hx
    rcases mem_parts_nested hx with rfl | rfl
    · exact .clause rereads_nil
    · exact .endIf
  -- nothing runs into what stands behind it, for there is no text and no flag
  have htexts : NoTwoTexts ((parts (nested n)).map Part.text?) := by
    refine (List.pairwise_of_forall_mem_list fun a ha b _ => .inl ?_).isChain
    obtain ⟨x, hx, rfl⟩ := List.mem_map.1 ha
    rcases mem_parts_nested hx with rfl | rfl <;> rfl
  have hapart : (parts (nested n)).IsChain Part.NameEnds := by
    refine (List.pairwise_of_forall_mem_list fun x hx y _ => ?_).isChain
    rcases mem_parts_nested hx with rfl | rfl <;> exact Bool.noConfusion
  have henclosable : ∀ x ∈ parts (nested n), ∀ script ∈ x.script?, script.Enclosable := by
    intro x hx
    rcases mem_parts_nested hx with rfl | rfl <;> decide
  have hread := (readsAs_cut_source_iff hregular htexts).2 ⟨hapart, henclosable⟩
  rw [← toList_source, ← parse_unplaced_iff] at hread
  obtain ⟨t, ht, hsame⟩ := hread
  obtain ⟨l, hl, hprepare⟩ := bind_eq_ok_iff.1 ht
  -- places of directives make no difference to how deep branches nest, nor do conditions
  have hnesting : nesting t = n := by
    rw [← nesting_unplaced, hsame, nesting_unplaced, nesting_nested]
  exact ⟨l, t, hl, ht, (nesting_of_prepare hprepare).symm.trans hnesting, hnesting⟩

/-- Branches of templates with at most so many characters nest as often as 17 goes into that number,
and no deeper, whether their conditions are read in advance or not. -/
theorem nesting_of_length (length : Nat) :
    (∀ (source : String) (t : Template), source.length ≤ length →
      parseLazy source = .ok t ∨ parse source = .ok t → nesting t ≤ length / 17) ∧
    ∃ (source : String) (l t : Template), source.length ≤ length ∧
      parseLazy source = .ok l ∧ parse source = .ok t ∧
        nesting l = length / 17 ∧ nesting t = length / 17 := by
  constructor
  · intro source t hlength h
    have hbound : 17 * nesting t ≤ source.length :=
      h.elim nesting_le_of_parseLazy nesting_le_of_parse
    rw [Nat.le_div_iff_mul_le (by decide)]
    omega
  · obtain ⟨l, t, h⟩ := exists_parse_nested (length / 17)
    refine ⟨source (nested (length / 17)), l, t, ?_, h⟩
    rw [length_source_nested]
    exact Nat.mul_div_le length 17

/-- Three branches within each other, the second behind an ELIF and the third behind an ELSE; and
branches that nest deeper than the groups of a script may. -/
theorem nesting_of_length_mixed :
    (∃ t, parse "$[[if]]$[[elif $A]]$[[If 1]]$X$[[Else]]$[[IF]]b$[[ENDIF]]$[[endif]]$[[ENDIF]]" =
      .ok t ∧ nesting t = 3 ∧ nesting t ≤ 77 / 17) ∧
    ∃ (source : String) (l t : Template), source.length ≤ 17 * 65 ∧
      parseLazy source = .ok l ∧ parse source = .ok t ∧ nesting l = 65 ∧ nesting t = 65 := by
  constructor
  · obtain ⟨t, ht, hnesting⟩ : ∃ t,
        parse "$[[if]]$[[elif $A]]$[[If 1]]$X$[[Else]]$[[IF]]b$[[ENDIF]]$[[endif]]$[[ENDIF]]" =
          .ok t ∧ nesting t = 3 := by
      decide +kernel
    exact ⟨t, ht, hnesting, (nesting_of_length 77).1 _ t (by decide) (.inr ht)⟩
  · exact (nesting_of_length (17 * 65)).2

/-- No number bounds how deep the branches of accepted templates nest, whether their conditions are
read in advance or not. -/
theorem nesting_unbounded :
    (¬∃ bound, ∀ (source : String) (t : Template), parseLazy source = .ok t → nesting t ≤ bound) ∧
    ¬∃ bound, ∀ (source : String) (t : Template), parse source = .ok t → nesting t ≤ bound := by
  constructor
  · rintro ⟨bound, h⟩
    obtain ⟨l, _, hl, _, hnesting, _⟩ := exists_parse_nested (bound + 1)
    have hle := h _ l hl
    omega
  · rintro ⟨bound, h⟩
    obtain ⟨_, t, _, ht, _, hnesting⟩ := exists_parse_nested (bound + 1)
    have hle := h _ t ht
    omega

end Template

end FlagScript
