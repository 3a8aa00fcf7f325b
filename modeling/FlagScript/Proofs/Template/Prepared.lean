import FlagScript.Proofs.Template.Frame

/-!
# Conditions read in advance

Reading the conditions of a template in advance changes nothing of what it expands to: a condition
that could be read runs as the script that reading it later gives, and blocks keep the spaces at
their ends (`expandFrom_prepared`). So what fails while it is expanded could not be prepared.
-/

namespace FlagScript

namespace Template

/-! ## Blocks before and after -/

/-- Blocks with the same spaces at their ends. -/
structure SameEdges (b b' : Option Block) : Prop where
  left : startsWithSpace b = startsWithSpace b'
  right : endsWithSpace b = endsWithSpace b'

theorem SameEdges.refl (b : Option Block) : SameEdges b b := ⟨rfl, rfl⟩

theorem prepareBlock_branch {first : Clause} {more : List Clause} {otherwise : Option (List Block)}
    {b' : Block} (h : prepareBlock (.branch first more otherwise) = .ok b') :
    ∃ first' more' otherwise', b' = .branch first' more' otherwise' := by
  rw [prepareBlock.eq_def] at h
  obtain ⟨first', _, h⟩ := bind_eq_ok_iff.1 h
  obtain ⟨more', _, h⟩ := bind_eq_ok_iff.1 h
  cases otherwise with
  | none =>
    cases h
    exact ⟨first', more', none, rfl⟩
  | some blocks =>
    obtain ⟨blocks', _, h⟩ := bind_eq_ok_iff.1 h
    cases h
    exact ⟨first', more', some blocks', rfl⟩

theorem prepareBlock_sameEdges {b b' : Block} (h : prepareBlock b = .ok b') :
    SameEdges (some b) (some b') := by
  cases b with
  | text t => cases h; exact ⟨rfl, rfl⟩
  | flag name => cases h; exact ⟨rfl, rfl⟩
  | branch first more otherwise =>
    obtain ⟨_, _, _, rfl⟩ := prepareBlock_branch h
    exact ⟨rfl, rfl⟩

theorem prepareBlocks_cons_eq_ok_iff {b : Block} {bs bs' : List Block} :
    prepareBlocks (b :: bs) = .ok bs' ↔
      ∃ c cs, prepareBlock b = .ok c ∧ prepareBlocks bs = .ok cs ∧ bs' = c :: cs := by
  rw [prepareBlocks]
  simp only [bind_eq_ok_iff, pure, Except.pure, Except.ok.injEq, exists_and_left,
    eq_comm (a := bs')]

theorem prepareBlocks_sameEdges {bs bs' : List Block} (h : prepareBlocks bs = .ok bs') :
    SameEdges bs.head? bs'.head? := by
  cases bs with
  | nil => cases h; exact ⟨rfl, rfl⟩
  | cons b bs =>
    obtain ⟨_, _, hb, _, rfl⟩ := prepareBlocks_cons_eq_ok_iff.1 h
    exact prepareBlock_sameEdges hb

theorem closeGap_congr {previous previous' next next' : Option Block}
    (hp : SameEdges previous previous') (hn : SameEdges next next') (out : List Char) :
    closeGap previous next out = closeGap previous' next' out := by
  rw [closeGap, closeGap, hp.right, hn.left]

/-! ## Expanding -/

variable {W : Type} [World W]

/-- The condition that was read in advance is the one that is read when it is reached. -/
theorem holds_prepared (s : Interpreter W) {p : Position} {c c' : Condition}
    (h : Clause.prepare p c = .ok c') : holds s p c = holds s p c' := by
  cases c with
  | parsed script => cases h; rfl
  | raw source =>
    rw [Clause.prepare] at h
    cases hread : Clause.readCondition p source with
    | error e => rw [hread] at h; cases h
    | ok script =>
      rw [hread] at h
      cases h
      simp only [holds, hread]

mutual

theorem expandBlock_prepared : ∀ (b : Block) {b' : Block}, prepareBlock b = .ok b' →
    ∀ s : Interpreter W, expandBlock s b = expandBlock s b'
  | .text t, _, h, s => by rw [prepareBlock] at h; cases h; rfl
  | .flag name, _, h, s => by rw [prepareBlock] at h; cases h; rfl
  | .branch first more none, _, h, s => by
    rw [prepareBlock] at h
    obtain ⟨first', hfirst, h⟩ := bind_eq_ok_iff.1 h
    obtain ⟨more', hmore, h⟩ := bind_eq_ok_iff.1 h
    cases h
    have hfirsts := expandClause_prepared first hfirst
    have hmores := expandClauses_prepared more hmore
    simp only [expandBlock_branch, hfirsts, hmores]
  | .branch first more (some blocks), _, h, s => by
    rw [prepareBlock] at h
    obtain ⟨first', hfirst, h⟩ := bind_eq_ok_iff.1 h
    obtain ⟨more', hmore, h⟩ := bind_eq_ok_iff.1 h
    obtain ⟨blocks', hblocks, h⟩ := bind_eq_ok_iff.1 h
    cases h
    have hfirsts := expandClause_prepared first hfirst
    have hmores := expandClauses_prepared more hmore
    have hothers := expandFrom_prepared blocks hblocks (.refl none)
    simp only [expandBlock_branch, hfirsts, hmores, hothers]
  termination_by structural b => b

theorem expandClause_prepared : ∀ (c : Clause) {c' : Clause}, prepareClause c = .ok c' →
    ∀ s : Interpreter W, expandClause s c = expandClause s c'
  | .mk p condition content, _, h, s => by
    rw [prepareClause] at h
    obtain ⟨condition', hcondition, h⟩ := bind_eq_ok_iff.1 h
    obtain ⟨content', hcontent, h⟩ := bind_eq_ok_iff.1 h
    cases h
    have hshown := expandFrom_prepared content hcontent (.refl none)
    simp only [expandClause_mk, holds_prepared s hcondition, hshown]
  termination_by structural c => c

theorem expandClauses_prepared : ∀ (cs : List Clause) {cs' : List Clause},
    prepareClauses cs = .ok cs' → ∀ s : Interpreter W, expandClauses s cs = expandClauses s cs'
  | [], _, h, s => by rw [prepareClauses] at h; cases h; rfl
  | c :: cs, _, h, s => by
    rw [prepareClauses] at h
    obtain ⟨c', hc, h⟩ := bind_eq_ok_iff.1 h
    obtain ⟨cs', hcs, h⟩ := bind_eq_ok_iff.1 h
    cases h
    have hothers := expandClauses_prepared cs hcs
    simp only [expandClauses_cons, expandClause_prepared c hc s, hothers]
  termination_by structural cs => cs

/-- Blocks expand behind the same text and the same spaces as they do when they are prepared. -/
theorem expandFrom_prepared : ∀ (bs : List Block) {bs' : List Block}, prepareBlocks bs = .ok bs' →
    ∀ {previous previous' : Option Block}, SameEdges previous previous' →
      ∀ (s : Interpreter W) (out : List Char),
        expandFrom s previous out bs = expandFrom s previous' out bs'
  | [], _, h, _, _, _, s, out => by rw [prepareBlocks] at h; cases h; rfl
  | b :: bs, _, h, previous, previous', hprevious, s, out => by
    obtain ⟨b', bs', hb, hbs, rfl⟩ := prepareBlocks_cons_eq_ok_iff.1 h
    have hblock := expandBlock_prepared b hb s
    have hrest := expandFrom_prepared bs hbs (prepareBlock_sameEdges hb)
    have hgap := closeGap_congr hprevious (prepareBlocks_sameEdges hbs) out
    rw [expandFrom_cons, expandFrom_cons, hblock]
    simp only [hrest, hgap]
    -- only a branch leaves a gap, and it stays one
    cases b with
    | text t => rw [prepareBlock] at hb; cases hb; rfl
    | flag name => rw [prepareBlock] at hb; cases hb; rfl
    | branch first more otherwise =>
      obtain ⟨_, _, _, rfl⟩ := prepareBlock_branch hb
      rfl
  termination_by structural bs => bs

end

theorem expandTemplate_prepared {l t : Template} (h : prepareBlocks l = .ok t)
    (s : Interpreter W) : s.expandTemplate l = s.expandTemplate t := by
  have hblocks := expandFrom_prepared (W := W) l h (.refl none) s []
  rw [Interpreter.expandTemplate, Interpreter.expandTemplate, hblocks]

/-- A template that was read with all of its conditions expands, from every state, to the same text
and leaves the same interpreter as the template whose conditions are read when they are reached. So
if that fails, be it while the blocks are read or in some state, the conditions cannot be read in
advance. -/
theorem expandTemplate_lazy (source : String) :
    (∀ t, parse source = .ok t → ∃ l, parseLazy source = .ok l ∧
      ∀ (W : Type) [World W] (s : Interpreter W),
        ∃ out s', s.expandTemplate l = (.ok out, s') ∧ s.expandTemplate t = (.ok out, s')) ∧
    ((∃ e, parseLazy source = .error e) ∨
      (∃ l, parseLazy source = .ok l ∧ ∃ (W : Type) (_ : World W) (s : Interpreter W) (e : Error),
        (s.expandTemplate l).1 = .error e) → ∃ e, parse source = .error e) := by
  have hsame : ∀ t, parse source = .ok t → ∃ l, parseLazy source = .ok l ∧
      ∀ (W : Type) [World W] (s : Interpreter W),
        ∃ out s', s.expandTemplate l = (.ok out, s') ∧ s.expandTemplate t = (.ok out, s') := by
    intro t ht
    obtain ⟨l, hl, hprepare⟩ := bind_eq_ok_iff.1 ht
    refine ⟨l, hl, fun W _ s => ?_⟩
    obtain ⟨out, hout⟩ := (expandTemplate_expands s (harmless_of_parse ht)).total rfl
    have hboth : s.expandTemplate t = (.ok out, (s.expandTemplate t).2) := Prod.ext hout rfl
    exact ⟨out, _, (expandTemplate_prepared hprepare s).trans hboth, hboth⟩
  refine ⟨hsame, fun hfails => ?_⟩
  cases ht : parse source with
  | error e => exact ⟨e, rfl⟩
  | ok t =>
    -- then reading lazily and expanding would both succeed
    obtain ⟨l, hl, hexpand⟩ := hsame t ht
    rcases hfails with ⟨e, he⟩ | ⟨l', hl', W, _, s, e, he⟩
    · rw [hl] at he
      cases he
    · rw [hl] at hl'
      cases hl'
      obtain ⟨out, s', hok, _⟩ := hexpand W s
      rw [hok] at he
      cases he

/-- A gap behind an empty branch, with a condition in a branch that is not reached; and a condition
that is reached and cannot be read. -/
theorem expandTemplate_lazy_of_gap :
    let s := Interpreter.withFlags ({} : MemoryWorld) [("GO", .bool true)]
    (∃ t, parse "a $[[IF !$GO]]$[[IF $B]]b$[[ENDIF]]$[[ENDIF]] c" = .ok t ∧
      ∃ l, parseLazy "a $[[IF !$GO]]$[[IF $B]]b$[[ENDIF]]$[[ENDIF]] c" = .ok l ∧
        ∃ out s', s.expandTemplate l = (.ok out, s') ∧ s.expandTemplate t = (.ok out, s')) ∧
    ∃ l e, parseLazy "$[[IF $GO]]$[[IF $NOPE(]]x$[[ENDIF]]$[[ENDIF]]" = .ok l ∧
      (s.expandTemplate l).1 = .error e ∧
      ∃ e, parse "$[[IF $GO]]$[[IF $NOPE(]]x$[[ENDIF]]$[[ENDIF]]" = .error e := by
  intro s
  constructor
  · obtain ⟨t, h, -⟩ : ∃ t, parse "a $[[IF !$GO]]$[[IF $B]]b$[[ENDIF]]$[[ENDIF]] c" = .ok t ∧
        True := by decide +kernel
    obtain ⟨l, hl, hsame⟩ := (expandTemplate_lazy _).1 t h
    exact ⟨t, h, l, hl, hsame MemoryWorld s⟩
  · obtain ⟨l, h, hfails⟩ : ∃ l,
        parseLazy "$[[IF $GO]]$[[IF $NOPE(]]x$[[ENDIF]]$[[ENDIF]]" = .ok l ∧
          (s.expandTemplate l).1.isOk = false := by decide +kernel
    cases he : (s.expandTemplate l).1 with
    | ok out =>
      rw [he] at hfails
      cases hfails
    | error e =>
      exact ⟨l, e, h, he, (expandTemplate_lazy _).2 (.inr ⟨l, h, MemoryWorld, _, s, e, he⟩)⟩

end Template

end FlagScript
