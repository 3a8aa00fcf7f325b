import FlagScript.Template.Check
import FlagScript.Proofs.Grammar.Meaning

/-!
# The conditions of a template

A condition is read and checked for effects before it runs: in advance, or when it is reached. So a
template that was read holds no condition that changes something, however deep it stands
(`harmless_of_parseLazy`), and if its conditions were read in advance, all of them are ready
(`harmless_of_parse`).
-/

namespace FlagScript

/-! ## Conditions that change nothing -/

/-- A condition that changes nothing when it runs: it was read and has no effect, or it is still to
be read, which is when it is checked. If all conditions are to be ready, none is left to be read. -/
def Condition.Harmless (ready : Bool) : Condition → Prop
  | raw _ => ready = false
  | parsed script => Expr.firstEffectOf script = none

mutual

/-- Every condition of a block is harmless, within its content and behind its ELSE included. -/
def Block.Harmless (ready : Bool) : Block → Prop
  | .text _ => True
  | .flag _ => True
  | .branch first more otherwise =>
    Clause.Harmless ready first ∧ Clause.AllHarmless ready more ∧
      match otherwise with
      | none => True
      | some blocks => Block.AllHarmless ready blocks

def Clause.Harmless (ready : Bool) : Clause → Prop
  | .mk _ condition content => condition.Harmless ready ∧ Block.AllHarmless ready content

def Clause.AllHarmless (ready : Bool) : List Clause → Prop
  | [] => True
  | c :: cs => Clause.Harmless ready c ∧ Clause.AllHarmless ready cs

def Block.AllHarmless (ready : Bool) : List Block → Prop
  | [] => True
  | b :: bs => Block.Harmless ready b ∧ Block.AllHarmless ready bs

end

variable {ready : Bool}

theorem Clause.allHarmless_iff {cs : List Clause} :
    Clause.AllHarmless ready cs ↔ ∀ c ∈ cs, c.Harmless ready := by
  induction cs with
  | nil => simp [Clause.AllHarmless]
  | cons c cs ih => simp [Clause.AllHarmless, ih]

theorem Block.allHarmless_iff {bs : List Block} :
    Block.AllHarmless ready bs ↔ ∀ b ∈ bs, b.Harmless ready := by
  induction bs with
  | nil => simp [Block.AllHarmless]
  | cons b bs ih => simp [Block.AllHarmless, ih]

theorem Block.harmless_branch_iff {first : Clause} {more : List Clause}
    {otherwise : Option (List Block)} :
    (Block.branch first more otherwise).Harmless ready ↔
      first.Harmless ready ∧ Clause.AllHarmless ready more ∧
        ∀ bs ∈ otherwise, Block.AllHarmless ready bs := by
  cases otherwise with
  | none => simp [Block.Harmless]
  | some bs => simp [Block.Harmless]

namespace Template

/-! ## Conditions as they are read first -/

/-- No condition changes anything in front of an open branch or in its clauses so far. -/
structure Frame.Harmless (f : Frame) : Prop where
  before : ∀ b ∈ f.before, b.Harmless false
  clauses : ∀ c ∈ f.clauses, c.Harmless false

namespace Reading

structure Harmless (r : Reading) : Prop where
  blocks : ∀ b ∈ r.blocks, b.Harmless false
  frames : ∀ f ∈ r.frames, f.Harmless

variable {r r' : Reading}

theorem harmless_empty : Harmless {} := ⟨by simp, by simp⟩

theorem Harmless.push (h : r.Harmless) {b : Block} (hb : b.Harmless false) : (r.push b).Harmless :=
  ⟨List.forall_mem_cons.2 ⟨hb, h.blocks⟩, h.frames⟩

theorem Harmless.openBranch (h : r.Harmless) (p : Position) (condition : String) :
    (r.openBranch p condition).Harmless :=
  ⟨by simp [Reading.openBranch], List.forall_mem_cons.2 ⟨⟨h.blocks, by simp⟩, h.frames⟩⟩

/-- The clause that a directive ends: its condition is still to be read. -/
theorem Harmless.clause (h : r.Harmless) (p : Position) (condition : String) :
    (Clause.mk p (.raw condition) r.blocks.reverse).Harmless false := by
  refine ⟨rfl, Block.allHarmless_iff.2 fun b hb => ?_⟩
  exact h.blocks b (List.mem_reverse.1 hb)

theorem Harmless.nextPart (h : r.Harmless) {next : BranchPart} (hr : r.nextPart? next = some r') :
    r'.Harmless := by
  unfold nextPart? at hr
  split at hr
  next before clauses p condition frames hframes =>
    cases hr
    obtain ⟨hframe, hmore⟩ := List.forall_mem_cons.1 (hframes ▸ h.frames)
    exact ⟨by simp, List.forall_mem_cons.2
      ⟨⟨hframe.before, List.forall_mem_cons.2 ⟨h.clause p condition, hframe.clauses⟩⟩, hmore⟩⟩
  next => cases hr

theorem harmless_of_branch? {clauses : List Clause} {otherwise : Option (List Block)} {b : Block}
    (hb : branch? clauses otherwise = some b) (hc : ∀ c ∈ clauses, c.Harmless false)
    (ho : ∀ bs ∈ otherwise, Block.AllHarmless false bs) : b.Harmless false := by
  unfold branch? at hb
  split at hb
  next => cases hb
  next first more hclauses =>
    cases hb
    have hall : ∀ c ∈ first :: more, c.Harmless false := by
      intro c hmem
      rw [← hclauses, List.mem_reverse] at hmem
      exact hc c hmem
    exact Block.harmless_branch_iff.2 ⟨hall first (by simp),
      Clause.allHarmless_iff.2 fun c hmem => hall c (by simp [hmem]), ho⟩

theorem Harmless.close (h : r.Harmless) (hr : r.close? = some r') : r'.Harmless := by
  unfold close? at hr
  split at hr
  next => cases hr
  next before clauses p condition frames hframes =>
    obtain ⟨hframe, hmore⟩ := List.forall_mem_cons.1 (hframes ▸ h.frames)
    obtain ⟨b, hb, rfl⟩ := Option.map_eq_some_iff.1 hr
    have hb' := harmless_of_branch? hb
      (List.forall_mem_cons.2 ⟨h.clause p condition, hframe.clauses⟩) (by simp)
    exact ⟨List.forall_mem_cons.2 ⟨hb', hframe.before⟩, hmore⟩
  next before clauses frames hframes =>
    -- what was read last stands behind the ELSE of the branch
    obtain ⟨hframe, hmore⟩ := List.forall_mem_cons.1 (hframes ▸ h.frames)
    obtain ⟨b, hb, rfl⟩ := Option.map_eq_some_iff.1 hr
    have hcontent : Block.AllHarmless false r.blocks.reverse :=
      Block.allHarmless_iff.2 fun b hmem => h.blocks b (List.mem_reverse.1 hmem)
    have hb' := harmless_of_branch? hb hframe.clauses (by
      intro bs hbs
      cases hbs
      exact hcontent)
    exact ⟨List.forall_mem_cons.2 ⟨hb', hframe.before⟩, hmore⟩

theorem Harmless.directive (h : r.Harmless) {p : Position} {d : Directive}
    (hr : r.directive? p d = some r') : r'.Harmless := by
  cases d with
  | openIf condition => cases hr; exact h.openBranch p condition
  | elseIf condition => exact h.nextPart hr
  | otherwise => exact h.nextPart hr
  | endIf => exact h.close hr

end Reading

theorem harmless_of_readFrom {source : List Char} {r : Reading} {pieces : List Piece}
    {t : Template} (h : readFrom source r pieces = .ok t) (hr : r.Harmless) :
    Block.AllHarmless false t := by
  induction pieces generalizing r with
  | nil =>
    -- a template ends where no branch is open
    rw [readFrom] at h
    split at h
    next =>
      cases h
      exact Block.allHarmless_iff.2 fun b hb => hr.blocks b (List.mem_reverse.1 hb)
    next => cases h
  | cons piece pieces ih =>
    cases piece with
    | text cs => exact ih h (hr.push trivial)
    | flag name => exact ih h (hr.push trivial)
    | malformed p => cases h
    | directive p d =>
      rw [readFrom] at h
      split at h
      next r' hr' => exact ih h (hr.directive hr')
      next => cases h

theorem harmless_of_parseLazy {source : String} {t : Template} (h : parseLazy source = .ok t) :
    Block.AllHarmless false t :=
  harmless_of_readFrom h Reading.harmless_empty

/-! ## Conditions as they are prepared -/

theorem readCondition_harmless {p : Position} {source : String} {script : Script}
    (h : Clause.readCondition p source = .ok script) : Expr.firstEffectOf script = none := by
  unfold Clause.readCondition at h
  split at h
  next => cases h
  next =>
    split at h
    next => cases h
    next hnone => cases h; exact hnone

theorem prepare_harmless {p : Position} {c c' : Condition} (hc : c.Harmless false)
    (h : Clause.prepare p c = .ok c') : c'.Harmless true := by
  cases c with
  | parsed script => cases h; exact hc
  | raw source =>
    rw [Clause.prepare] at h
    cases hread : Clause.readCondition p source with
    | error e => rw [hread] at h; cases h
    | ok script =>
      rw [hread] at h
      cases h
      exact readCondition_harmless hread

mutual

theorem prepareBlock_harmless : ∀ (b : Block) {b' : Block}, b.Harmless false →
    prepareBlock b = .ok b' → b'.Harmless true
  | .text t, _, _, h => by rw [prepareBlock] at h; cases h; trivial
  | .flag name, _, _, h => by rw [prepareBlock] at h; cases h; trivial
  | .branch first more none, _, hb, h => by
    obtain ⟨hbfirst, hbmore, _⟩ := Block.harmless_branch_iff.1 hb
    rw [prepareBlock] at h
    obtain ⟨first', hfirst, h⟩ := bind_eq_ok_iff.1 h
    obtain ⟨more', hmore, h⟩ := bind_eq_ok_iff.1 h
    cases h
    exact Block.harmless_branch_iff.2 ⟨prepareClause_harmless first hbfirst hfirst,
      prepareClauses_harmless more hbmore hmore, by simp⟩
  | .branch first more (some blocks), _, hb, h => by
    obtain ⟨hbfirst, hbmore, hbblocks⟩ := Block.harmless_branch_iff.1 hb
    rw [prepareBlock] at h
    obtain ⟨first', hfirst, h⟩ := bind_eq_ok_iff.1 h
    obtain ⟨more', hmore, h⟩ := bind_eq_ok_iff.1 h
    obtain ⟨blocks', hblocks, h⟩ := bind_eq_ok_iff.1 h
    cases h
    have hblocks' := prepareBlocks_harmless blocks (hbblocks blocks rfl) hblocks
    exact Block.harmless_branch_iff.2 ⟨prepareClause_harmless first hbfirst hfirst,
      prepareClauses_harmless more hbmore hmore, by simpa using hblocks'⟩

theorem prepareClause_harmless : ∀ (c : Clause) {c' : Clause}, c.Harmless false →
    prepareClause c = .ok c' → c'.Harmless true
  | .mk p condition content, _, hc, h => by
    rw [Clause.Harmless] at hc
    rw [prepareClause] at h
    obtain ⟨condition', hcondition, h⟩ := bind_eq_ok_iff.1 h
    obtain ⟨content', hcontent, h⟩ := bind_eq_ok_iff.1 h
    cases h
    rw [Clause.Harmless]
    exact ⟨prepare_harmless hc.1 hcondition, prepareBlocks_harmless content hc.2 hcontent⟩

theorem prepareClauses_harmless : ∀ (cs : List Clause) {cs' : List Clause},
    Clause.AllHarmless false cs → prepareClauses cs = .ok cs' →
      Clause.AllHarmless true cs'
  | [], _, _, h => by rw [prepareClauses] at h; cases h; trivial
  | c :: cs, _, hcs, h => by
    rw [Clause.AllHarmless] at hcs
    rw [prepareClauses] at h
    obtain ⟨c', hc, h⟩ := bind_eq_ok_iff.1 h
    obtain ⟨cs', hcs', h⟩ := bind_eq_ok_iff.1 h
    cases h
    rw [Clause.AllHarmless]
    exact ⟨prepareClause_harmless c hcs.1 hc, prepareClauses_harmless cs hcs.2 hcs'⟩

theorem prepareBlocks_harmless : ∀ (bs : List Block) {bs' : List Block},
    Block.AllHarmless false bs → prepareBlocks bs = .ok bs' →
      Block.AllHarmless true bs'
  | [], _, _, h => by rw [prepareBlocks] at h; cases h; trivial
  | b :: bs, _, hbs, h => by
    rw [Block.AllHarmless] at hbs
    rw [prepareBlocks] at h
    obtain ⟨b', hb, h⟩ := bind_eq_ok_iff.1 h
    obtain ⟨bs', hbs', h⟩ := bind_eq_ok_iff.1 h
    cases h
    rw [Block.AllHarmless]
    exact ⟨prepareBlock_harmless b hbs.1 hb, prepareBlocks_harmless bs hbs.2 hbs'⟩

end

theorem harmless_of_parse {source : String} {t : Template} (h : parse source = .ok t) :
    Block.AllHarmless true t := by
  obtain ⟨raw, hraw, hprepare⟩ := bind_eq_ok_iff.1 h
  exact prepareBlocks_harmless raw (harmless_of_parseLazy hraw) hprepare

end Template

end FlagScript
