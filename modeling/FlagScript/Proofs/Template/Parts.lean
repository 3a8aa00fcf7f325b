import FlagScript.Template.Check
import FlagScript.Template.Source

/-!
# Templates from left to right

`Template.parts` goes through a template as it stands in a source: text, flags, and the directives
around the content of its branches. Reading pieces and printing blocks are inverse to each other on
it: what is read from pieces has exactly these parts (`parts_of_readFrom`), pieces with the shape of
a template are read as one of this shape (`readFrom_of_shaped`), and a template is printed part by
part (`toList_source`).
-/

namespace FlagScript

/-- What a template consists of from left to right. -/
inductive Part where
  | text (t : TextBlock)
  | flag (name : String)
  /-- The directive of a clause, of which the first one opens its branch. -/
  | clause (opens : Bool) (position : Position) (condition : Condition)
  | otherwise
  | endIf

mutual

def Block.parts : Block → List Part
  | .text t => [.text t]
  | .flag name => [.flag name]
  | .branch first more otherwise =>
    Clause.parts true first ++
      (Clause.furtherParts more ++ (Template.elseParts otherwise ++ [.endIf]))

/-- The directive of a clause, and its content. -/
def Clause.parts (opens : Bool) : Clause → List Part
  | .mk p condition content => .clause opens p condition :: Template.parts content

/-- The parts of the clauses behind the first one of a branch. -/
def Clause.furtherParts : List Clause → List Part
  | [] => []
  | c :: cs => Clause.parts false c ++ Clause.furtherParts cs

/-- The ELSE of a branch, if it has one, and what stands behind it. -/
def Template.elseParts : Option (List Block) → List Part
  | none => []
  | some blocks => .otherwise :: Template.parts blocks

def Template.parts : List Block → List Part
  | [] => []
  | b :: bs => Block.parts b ++ Template.parts bs

end

/-! ## Places and conditions of directives -/

/-- A place and a condition: what the directive of a clause holds. -/
abbrev Head := Position × Condition

mutual

/-- A block with its directives changed, at every depth. -/
def Block.mapHeads (f : Head → Head) : Block → Block
  | .text t => .text t
  | .flag name => .flag name
  | .branch first more otherwise =>
    .branch (Clause.mapHeads f first) (Clause.mapAllHeads f more) (Template.mapElse f otherwise)

def Clause.mapHeads (f : Head → Head) : Clause → Clause
  | .mk p condition content =>
    .mk (f (p, condition)).1 (f (p, condition)).2 (Template.mapHeads f content)

def Clause.mapAllHeads (f : Head → Head) : List Clause → List Clause
  | [] => []
  | c :: cs => Clause.mapHeads f c :: Clause.mapAllHeads f cs

def Template.mapElse (f : Head → Head) : Option (List Block) → Option (List Block)
  | none => none
  | some blocks => some (Template.mapHeads f blocks)

def Template.mapHeads (f : Head → Head) : List Block → List Block
  | [] => []
  | b :: bs => Block.mapHeads f b :: Template.mapHeads f bs

end

namespace Head

/-- The place is forgotten. -/
def unplaced (h : Head) : Head := (.start, h.2)

end Head

namespace Template

/-- A template apart from the places of its directives. -/
def unplaced (t : Template) : Template := mapHeads Head.unplaced t

end Template

namespace Part

def mapHead (f : Head → Head) : Part → Part
  | clause opens p c => clause opens (f (p, c)).1 (f (p, c)).2
  | x => x

/-- A part as it stands in a source. -/
def source : Part → List Char
  | text t => t.text.toList.flatMap Template.escapeChar
  | flag name => '$' :: name.toList
  | clause opens _ c => (Template.directiveSource (if opens then "IF" else "ELSE IF") c).toList
  | otherwise => ['$', '[', '[', 'E', 'L', 'S', 'E', ']', ']']
  | endIf => ['$', '[', '[', 'E', 'N', 'D', 'I', 'F', ']', ']']

end Part

namespace Template

theorem parts_append (bs bs' : List Block) : parts (bs ++ bs') = parts bs ++ parts bs' := by
  induction bs with
  | nil => simp [parts]
  | cons b bs ih => simp [parts, ih]

theorem furtherParts_append (cs cs' : List Clause) :
    Clause.furtherParts (cs ++ cs') = Clause.furtherParts cs ++ Clause.furtherParts cs' := by
  induction cs with
  | nil => simp [Clause.furtherParts]
  | cons c cs ih => simp [Clause.furtherParts, ih]

mutual

theorem parts_mapBlockHeads (f : Head → Head) : ∀ b : Block,
    (b.mapHeads f).parts = b.parts.map (Part.mapHead f)
  | .text _ => rfl
  | .flag _ => rfl
  | .branch first more otherwise => by
    rw [Block.mapHeads, Block.parts, Block.parts, parts_mapClauseHeads f true first,
      parts_mapAllHeads f more, parts_mapElse f otherwise]
    simp [Part.mapHead]

theorem parts_mapClauseHeads (f : Head → Head) : ∀ (opens : Bool) (c : Clause),
    (c.mapHeads f).parts opens = (c.parts opens).map (Part.mapHead f)
  | opens, .mk p condition content => by
    rw [Clause.mapHeads, Clause.parts, Clause.parts, parts_mapHeads f content]
    rfl

theorem parts_mapAllHeads (f : Head → Head) : ∀ cs : List Clause,
    Clause.furtherParts (Clause.mapAllHeads f cs) =
      (Clause.furtherParts cs).map (Part.mapHead f)
  | [] => rfl
  | c :: cs => by
    rw [Clause.mapAllHeads, Clause.furtherParts, Clause.furtherParts,
      parts_mapClauseHeads f false c, parts_mapAllHeads f cs, List.map_append]

theorem parts_mapElse (f : Head → Head) : ∀ otherwise : Option (List Block),
    elseParts (mapElse f otherwise) = (elseParts otherwise).map (Part.mapHead f)
  | none => rfl
  | some blocks => by
    rw [mapElse, elseParts, elseParts, parts_mapHeads f blocks]
    rfl

/-- Changing directives changes them in their places. -/
theorem parts_mapHeads (f : Head → Head) : ∀ bs : List Block,
    parts (mapHeads f bs) = (parts bs).map (Part.mapHead f)
  | [] => rfl
  | b :: bs => by
    rw [mapHeads, parts, parts, parts_mapBlockHeads f b, parts_mapHeads f bs, List.map_append]

end

/-! ## Printing -/

mutual

theorem toList_blockSource : ∀ b : Block, (blockSource b).toList = b.parts.flatMap Part.source
  | .text t => by simp [blockSource, Block.parts, Part.source, textSource]
  | .flag name => by simp [blockSource, Block.parts, Part.source]
  | .branch first more none => by
    have hfirst := toList_clauseSource true first
    have hmore := toList_clausesSource more
    rw [if_pos rfl] at hfirst
    simp [blockSource, Block.parts, elseParts, hfirst, hmore, Part.source]
  | .branch first more (some blocks) => by
    have hfirst := toList_clauseSource true first
    have hmore := toList_clausesSource more
    have hblocks := toList_source blocks
    rw [if_pos rfl] at hfirst
    simp [blockSource, Block.parts, elseParts, hfirst, hmore, hblocks, Part.source]

theorem toList_clauseSource : ∀ (opens : Bool) (c : Clause),
    (clauseSource (if opens then "IF" else "ELSE IF") c).toList =
      (c.parts opens).flatMap Part.source
  | opens, .mk p condition content => by
    rw [clauseSource, String.toList_append, toList_source content, Clause.parts,
      List.flatMap_cons, Part.source]

theorem toList_clausesSource : ∀ cs : List Clause,
    (clausesSource cs).toList = (Clause.furtherParts cs).flatMap Part.source
  | [] => by simp [clausesSource, Clause.furtherParts]
  | c :: cs => by
    have hc := toList_clauseSource false c
    rw [if_neg Bool.false_ne_true] at hc
    rw [clausesSource, String.toList_append, hc, toList_clausesSource cs, Clause.furtherParts,
      List.flatMap_append]

/-- A template is printed part by part. -/
theorem toList_source : ∀ t : List Block, (source t).toList = (parts t).flatMap Part.source
  | [] => by simp [source, parts]
  | b :: bs => by
    rw [source, String.toList_append, toList_blockSource b, toList_source bs, parts,
      List.flatMap_append]

end

/-! ## Reading -/

end Template

/-- The part that a piece of a source says. A malformed directive is none. -/
def Template.Piece.part? : Template.Piece → Option Part
  | .text cs => some (.text (.ofText cs))
  | .flag name => some (.flag name)
  | .directive p (.openIf condition) => some (.clause true p (.raw condition))
  | .directive p (.elseIf condition) => some (.clause false p (.raw condition))
  | .directive _ .otherwise => some .otherwise
  | .directive _ .endIf => some .endIf
  | .malformed _ => none

namespace Template

/-- The parts of the clauses of a branch, of which the first one opens it. -/
def branchParts : List Clause → List Part
  | [] => []
  | c :: cs => c.parts true ++ Clause.furtherParts cs

/-- The directive with which a part of a branch begins. -/
def BranchPart.part (opens : Bool) : BranchPart → Part
  | .clause p condition => .clause opens p (.raw condition)
  | .otherwise => .otherwise

def Frame.parts (f : Frame) : List Part :=
  Template.parts f.before.reverse ++ branchParts f.clauses.reverse ++
    [f.part.part f.clauses.isEmpty]

/-- The parts that were read so far. -/
def Reading.parts (r : Reading) : List Part :=
  r.frames.reverse.flatMap Frame.parts ++ Template.parts r.blocks.reverse

theorem branchParts_append_singleton (cs : List Clause) (c : Clause) :
    branchParts (cs ++ [c]) = branchParts cs ++ c.parts cs.isEmpty := by
  cases cs with
  | nil => simp [branchParts, Clause.furtherParts]
  | cons c' cs => simp [branchParts, furtherParts_append, Clause.furtherParts]

namespace Reading

variable {r r' : Reading}

theorem parts_cons (f : Frame) (frames : List Frame) (blocks : List Block) :
    parts ⟨f :: frames, blocks⟩ =
      frames.reverse.flatMap Frame.parts ++ (f.parts ++ Template.parts blocks.reverse) := by
  simp [parts, List.flatMap_append]

theorem parts_push (r : Reading) (b : Block) : (r.push b).parts = r.parts ++ b.parts := by
  simp [push, parts, parts_append, Template.parts]

theorem parts_openBranch (r : Reading) (p : Position) (condition : String) :
    (r.openBranch p condition).parts = r.parts ++ [.clause true p (.raw condition)] := by
  simp [openBranch, parts, Frame.parts, Template.parts, branchParts, BranchPart.part]

/-- The parts of a clause that ends here stand where it began. -/
theorem parts_clause (before : List Block) (clauses : List Clause) (p : Position)
    (condition : String) (blocks : List Block) :
    Frame.parts ⟨before, clauses, .clause p condition⟩ ++ Template.parts blocks.reverse =
      Template.parts before.reverse ++
        branchParts (.mk p (.raw condition) blocks.reverse :: clauses).reverse := by
  rw [List.reverse_cons, branchParts_append_singleton]
  simp [Frame.parts, BranchPart.part, Clause.parts]

theorem parts_nextPart? {next : BranchPart} (h : r.nextPart? next = some r') :
    r'.parts = r.parts ++ [next.part false] := by
  obtain ⟨frames, blocks⟩ := r
  unfold nextPart? at h
  split at h
  next before clauses p condition frames' hframes =>
    obtain rfl : frames = _ := hframes
    cases h
    rw [parts_cons, parts_cons, parts_clause]
    simp [Frame.parts, Template.parts]
  next => cases h

theorem parts_branch? {clauses : List Clause} {otherwise : Option (List Block)} {b : Block}
    (h : branch? clauses otherwise = some b) :
    b.parts = branchParts clauses.reverse ++ (elseParts otherwise ++ [.endIf]) := by
  unfold branch? at h
  split at h
  next => cases h
  next first more hclauses =>
    cases h
    rw [hclauses, branchParts, Block.parts, List.append_assoc]

theorem parts_close? (h : r.close? = some r') : r'.parts = r.parts ++ [.endIf] := by
  obtain ⟨frames, blocks⟩ := r
  unfold close? at h
  split at h
  next => cases h
  next before clauses p condition frames' hframes =>
    obtain rfl : frames = _ := hframes
    obtain ⟨b, hb, rfl⟩ := Option.map_eq_some_iff.1 h
    have hbranch := parts_branch? hb
    rw [parts_cons, parts_clause]
    simp [parts, parts_append, Template.parts, hbranch, elseParts]
  next before clauses frames' hframes =>
    -- what was read last stands behind the ELSE of the branch
    obtain rfl : frames = _ := hframes
    obtain ⟨b, hb, rfl⟩ := Option.map_eq_some_iff.1 h
    have hbranch := parts_branch? hb
    rw [parts_cons]
    simp [parts, parts_append, Template.parts, hbranch, elseParts, Frame.parts, BranchPart.part]

/-- Whatever a directive does, the parts go on with it. -/
theorem parts_directive? {p : Position} {d : Directive} (h : r.directive? p d = some r') :
    ∃ x, (Piece.directive p d).part? = some x ∧ r'.parts = r.parts ++ [x] := by
  cases d with
  | openIf condition =>
    cases h
    exact ⟨_, rfl, parts_openBranch r p condition⟩
  | elseIf condition => exact ⟨_, rfl, parts_nextPart? h⟩
  | otherwise => exact ⟨_, rfl, parts_nextPart? h⟩
  | endIf => exact ⟨_, rfl, parts_close? h⟩

end Reading

/-- The pieces that are read say the parts of the template, behind those that were read before. -/
theorem parts_of_readFrom {source : List Char} {r : Reading} {pieces : List Piece} {t : Template}
    (h : readFrom source r pieces = .ok t) :
    ∃ xs, pieces.map Piece.part? = xs.map some ∧ parts t = r.parts ++ xs := by
  induction pieces generalizing r with
  | nil =>
    rw [readFrom] at h
    split at h
    next hframes =>
      cases h
      refine ⟨[], rfl, ?_⟩
      rw [Reading.parts, List.isEmpty_iff.1 hframes]
      simp
    next => cases h
  | cons piece pieces ih =>
    -- what the piece adds stands in front of what the others add
    have hstep : ∀ {r' x}, readFrom source r' pieces = .ok t → piece.part? = some x →
        r'.parts = r.parts ++ [x] →
        ∃ xs, (piece :: pieces).map Piece.part? = xs.map some ∧ parts t = r.parts ++ xs := by
      intro r' x hr' hx hparts
      obtain ⟨xs, hxs, ht⟩ := ih hr'
      refine ⟨x :: xs, by rw [List.map_cons, List.map_cons, hx, hxs], ?_⟩
      rw [ht, hparts, List.append_assoc, List.singleton_append]
    cases piece with
    | text cs => exact hstep h rfl (Reading.parts_push r _)
    | flag name => exact hstep h rfl (Reading.parts_push r _)
    | malformed p => cases h
    | directive p d =>
      rw [readFrom] at h
      split at h
      next r' hr' =>
        obtain ⟨x, hx, hparts⟩ := Reading.parts_directive? hr'
        exact hstep h hx hparts
      next => cases h

/-! ## Reading whatever has the shape of a template -/

end Template

/-- A part apart from the place and the condition of its directive. -/
def Part.shape (x : Part) : Part := x.mapHead fun _ => (.start, .raw "")

namespace Template

/-- Pieces with the shapes of some parts. -/
def Shaped (pieces : List Piece) (xs : List Part) : Prop :=
  pieces.map (fun piece => piece.part?.map Part.shape) = xs.map fun x => some x.shape

theorem shaped_append_iff {pieces : List Piece} {xs ys : List Part} :
    Shaped pieces (xs ++ ys) ↔
      ∃ pieces₁ pieces₂, pieces = pieces₁ ++ pieces₂ ∧ Shaped pieces₁ xs ∧ Shaped pieces₂ ys := by
  rw [Shaped, List.map_append, List.map_eq_append_iff]
  rfl

/-- A piece of the kind of a part. -/
def Piece.SameKind (piece : Piece) : Part → Prop
  | .text _ => ∃ cs, piece = .text cs
  | .flag _ => ∃ name, piece = .flag name
  | .clause opens _ _ => ∃ q condition,
      piece = .directive q (if opens then .openIf condition else .elseIf condition)
  | .otherwise => ∃ q, piece = .directive q .otherwise
  | .endIf => ∃ q, piece = .directive q .endIf

theorem Piece.sameKind_of_shape {piece : Piece} {x y : Part} (hy : piece.part? = some y)
    (h : y.shape = x.shape) : piece.SameKind x := by
  cases piece with
  | text cs => cases hy; cases x <;> cases h; exact ⟨cs, rfl⟩
  | flag name => cases hy; cases x <;> cases h; exact ⟨name, rfl⟩
  | malformed q => cases hy
  | directive q d =>
    cases d with
    | openIf condition => cases hy; cases x <;> cases h; exact ⟨q, condition, rfl⟩
    | elseIf condition => cases hy; cases x <;> cases h; exact ⟨q, condition, rfl⟩
    | otherwise => cases hy; cases x <;> cases h; exact ⟨q, rfl⟩
    | endIf => cases hy; cases x <;> cases h; exact ⟨q, rfl⟩

namespace Shaped

variable {pieces : List Piece} {x : Part} {xs : List Part}

theorem eq_nil (h : Shaped pieces []) : pieces = [] := List.map_eq_nil_iff.1 h

/-- A piece of the kind of the first part stands in front. -/
theorem uncons (h : Shaped pieces (x :: xs)) :
    ∃ piece rest, pieces = piece :: rest ∧ piece.SameKind x ∧ Shaped rest xs := by
  obtain ⟨piece, rest, rfl, hpiece, hrest⟩ := List.map_eq_cons_iff.1 h
  obtain ⟨y, hy, hshape⟩ := Option.map_eq_some_iff.1 hpiece
  exact ⟨piece, rest, rfl, Piece.sameKind_of_shape hy hshape, hrest⟩

theorem eq_singleton (h : Shaped pieces [x]) : ∃ piece, pieces = [piece] ∧ piece.SameKind x := by
  obtain ⟨piece, rest, rfl, hkind, hrest⟩ := h.uncons
  exact ⟨piece, by rw [hrest.eq_nil], hkind⟩

end Shaped

/-- Reading some pieces leads from one state to another one, whatever stands behind them. -/
def Reading.Leads (r : Reading) (pieces : List Piece) (r' : Reading) : Prop :=
  ∀ source more, readFrom source r (pieces ++ more) = readFrom source r' more

namespace Reading

variable {r r' r'' : Reading} {pieces pieces' : List Piece}

theorem Leads.trans (h : r.Leads pieces r') (h' : r'.Leads pieces' r'') :
    r.Leads (pieces ++ pieces') r'' := fun source more => by
  rw [List.append_assoc, h, h']

theorem leads_directive {p : Position} {d : Directive} (h : r.directive? p d = some r') :
    r.Leads [.directive p d] r' := fun source more => by
  rw [List.singleton_append, readFrom, h]

end Reading

namespace Reading

theorem branch?_cons (c : Clause) (cs : List Clause) (otherwise : Option (List Block)) :
    ∃ b, branch? (c :: cs) otherwise = some b := by
  unfold branch?
  split
  next h => simp at h
  next first more _ => exact ⟨_, rfl⟩

variable (before : List Block) (clauses : List Clause) (p q : Position) (condition : String)
  (frames : List Frame) (blocks : List Block)

/-- A branch can end behind a clause. -/
theorem leads_endIf_of_clause :
    ∃ b, Leads ⟨⟨before, clauses, .clause p condition⟩ :: frames, blocks⟩ [.directive q .endIf]
      ⟨frames, b :: before⟩ := by
  obtain ⟨b, hb⟩ := branch?_cons (.mk p (.raw condition) blocks.reverse) clauses none
  refine ⟨b, leads_directive ?_⟩
  rw [directive?, close?]
  exact congrArg (Option.map _) hb

/-- It can end behind an ELSE that stands behind some clause. -/
theorem leads_endIf_of_otherwise (c : Clause) :
    ∃ b, Leads ⟨⟨before, c :: clauses, .otherwise⟩ :: frames, blocks⟩ [.directive q .endIf]
      ⟨frames, b :: before⟩ := by
  obtain ⟨b, hb⟩ := branch?_cons c clauses (some blocks.reverse)
  refine ⟨b, leads_directive ?_⟩
  rw [directive?, close?]
  exact congrArg (Option.map _) hb

end Reading

mutual

/-- Pieces with the shape of a block are read as a block. -/
theorem leads_block : ∀ (b : Block) {pieces : List Piece}, Shaped pieces b.parts →
    ∀ r : Reading, ∃ b', r.Leads pieces (r.push b')
  | .text t, pieces, h, r => by
    obtain ⟨piece, rfl, cs, rfl⟩ := h.eq_singleton
    exact ⟨_, fun _ _ => rfl⟩
  | .flag name, pieces, h, r => by
    obtain ⟨piece, rfl, name', rfl⟩ := h.eq_singleton
    exact ⟨_, fun _ _ => rfl⟩
  | .branch (.mk p condition content) more otherwise, pieces, h, r => by
    rw [Block.parts, Clause.parts, List.cons_append] at h
    obtain ⟨piece, rest, rfl, ⟨q, condition', rfl⟩, hrest⟩ := h.uncons
    obtain ⟨pieces₁, pieces₂, rfl, hcontent, hbehind⟩ := shaped_append_iff.1 hrest
    obtain ⟨pieces₃, pieces₄, rfl, hmore, hend⟩ := shaped_append_iff.1 hbehind
    -- the branch opens, goes on with its clauses and ends
    have hopen : r.Leads [.directive q (.openIf condition')] (r.openBranch q condition') :=
      Reading.leads_directive rfl
    obtain ⟨blocks, hblocks⟩ := leads_template content hcontent (r.openBranch q condition')
    obtain ⟨clauses, p', c', blocks', hclauses⟩ :=
      leads_clauses more hmore r.blocks [] q condition' r.frames blocks
    obtain ⟨b, hb⟩ := leads_end otherwise hend r.blocks clauses p' c' r.frames blocks'
    exact ⟨b, hopen.trans (hblocks.trans (hclauses.trans hb))⟩

/-- Behind its clauses a branch ends, with an ELSE or without one. -/
theorem leads_end : ∀ (otherwise : Option (List Block)) {pieces : List Piece},
    Shaped pieces (elseParts otherwise ++ [.endIf]) →
    ∀ (before : List Block) (clauses : List Clause) (p : Position) (condition : String)
      (frames : List Frame) (blocks : List Block), ∃ b,
        Reading.Leads ⟨⟨before, clauses, .clause p condition⟩ :: frames, blocks⟩ pieces
          ⟨frames, b :: before⟩
  | none, pieces, h, before, clauses, p, condition, frames, blocks => by
    obtain ⟨piece, rfl, q, rfl⟩ := h.eq_singleton
    exact Reading.leads_endIf_of_clause before clauses p q condition frames blocks
  | some others, pieces, h, before, clauses, p, condition, frames, blocks => by
    obtain ⟨piece, rest, rfl, ⟨q, rfl⟩, hrest⟩ := h.uncons
    obtain ⟨pieces₁, pieces₂, rfl, hothers, hend⟩ := shaped_append_iff.1 hrest
    obtain ⟨piece', rfl, q', rfl⟩ := hend.eq_singleton
    let c : Clause := .mk p (.raw condition) blocks.reverse
    have helse : Reading.Leads ⟨⟨before, clauses, .clause p condition⟩ :: frames, blocks⟩
        [.directive q .otherwise] ⟨⟨before, c :: clauses, .otherwise⟩ :: frames, []⟩ :=
      Reading.leads_directive rfl
    obtain ⟨blocks', hblocks⟩ := leads_template others hothers
      ⟨⟨before, c :: clauses, .otherwise⟩ :: frames, []⟩
    obtain ⟨b, hb⟩ := Reading.leads_endIf_of_otherwise before clauses q' frames blocks' c
    exact ⟨b, helse.trans (hblocks.trans hb)⟩

/-- Pieces with the shapes of further clauses leave the branch open behind the last of them. -/
theorem leads_clauses : ∀ (cs : List Clause) {pieces : List Piece},
    Shaped pieces (Clause.furtherParts cs) →
    ∀ (before : List Block) (clauses : List Clause) (p : Position) (condition : String)
      (frames : List Frame) (blocks : List Block), ∃ clauses' p' condition' blocks',
        Reading.Leads ⟨⟨before, clauses, .clause p condition⟩ :: frames, blocks⟩ pieces
          ⟨⟨before, clauses', .clause p' condition'⟩ :: frames, blocks'⟩
  | [], pieces, h, before, clauses, p, condition, frames, blocks => by
    obtain rfl := h.eq_nil
    exact ⟨_, _, _, _, fun _ _ => rfl⟩
  | .mk p₁ condition₁ content :: cs, pieces, h, before, clauses, p, condition, frames, blocks => by
    rw [Clause.furtherParts, Clause.parts, List.cons_append] at h
    obtain ⟨piece, rest, rfl, ⟨q, condition', rfl⟩, hrest⟩ := h.uncons
    obtain ⟨pieces₁, pieces₂, rfl, hcontent, hmore⟩ := shaped_append_iff.1 hrest
    let c : Clause := .mk p (.raw condition) blocks.reverse
    have hnext : Reading.Leads ⟨⟨before, clauses, .clause p condition⟩ :: frames, blocks⟩
        [.directive q (.elseIf condition')]
        ⟨⟨before, c :: clauses, .clause q condition'⟩ :: frames, []⟩ :=
      Reading.leads_directive rfl
    obtain ⟨blocks', hblocks⟩ := leads_template content hcontent
      ⟨⟨before, c :: clauses, .clause q condition'⟩ :: frames, []⟩
    obtain ⟨clauses', p', c', blocks'', hclauses⟩ :=
      leads_clauses cs hmore before (c :: clauses) q condition' frames blocks'
    exact ⟨clauses', p', c', blocks'', hnext.trans (hblocks.trans hclauses)⟩

/-- Only blocks are added by pieces with the shape of a template. -/
theorem leads_template : ∀ (bs : List Block) {pieces : List Piece}, Shaped pieces (parts bs) →
    ∀ r : Reading, ∃ blocks, r.Leads pieces ⟨r.frames, blocks⟩
  | [], pieces, h, r => by
    obtain rfl := h.eq_nil
    exact ⟨_, fun _ _ => rfl⟩
  | b :: bs, pieces, h, r => by
    obtain ⟨pieces₁, pieces₂, rfl, hb, hbs⟩ := shaped_append_iff.1 h
    obtain ⟨b', hb'⟩ := leads_block b hb r
    obtain ⟨blocks, hblocks⟩ := leads_template bs hbs (r.push b')
    exact ⟨blocks, hb'.trans hblocks⟩

end

/-- Pieces with the shape of a template are read as a template, of which they say the parts. -/
theorem readFrom_of_shaped {t : Template} {pieces : List Piece} (h : Shaped pieces (parts t))
    (source : List Char) :
    ∃ t', readFrom source {} pieces = .ok t' ∧ pieces.map Piece.part? = (parts t').map some := by
  obtain ⟨blocks, hleads⟩ := leads_template t h {}
  have hread : readFrom source {} pieces = .ok blocks.reverse := by
    have hall := hleads source []
    rwa [List.append_nil] at hall
  obtain ⟨xs, hxs, hparts⟩ := parts_of_readFrom hread
  exact ⟨_, hread, by rw [hxs, hparts]; rfl⟩

/-! ## Templates with the same parts -/

/-- No block goes on here: a branch ends, goes on with its next part, or nothing is left. -/
def AtEnd (xs : List Part) : Prop :=
  ∀ x ∈ xs.head?, (∃ p c, x = .clause false p c) ∨ x = .otherwise ∨ x = .endIf

/-- No further clause stands here either. -/
def PastClauses (xs : List Part) : Prop := ∀ x ∈ xs.head?, x = .otherwise ∨ x = .endIf

theorem PastClauses.atEnd {xs : List Part} (h : PastClauses xs) : AtEnd xs :=
  fun x hx => .inr (h x hx)

theorem atEnd_nil : AtEnd [] := by simp [AtEnd]

theorem pastClauses_elseParts (otherwise : Option (List Block)) (xs : List Part) :
    PastClauses (elseParts otherwise ++ ([.endIf] ++ xs)) := by
  cases otherwise <;> simp [PastClauses, elseParts]

theorem atEnd_furtherParts (cs : List Clause) {xs : List Part} (h : PastClauses xs) :
    AtEnd (Clause.furtherParts cs ++ xs) := by
  cases cs with
  | nil => exact h.atEnd
  | cons c cs =>
    obtain ⟨p, condition, content⟩ := c
    simp [AtEnd, Clause.furtherParts, Clause.parts]

/-- A block begins where a list of blocks does not end. -/
theorem not_atEnd_block (b : Block) (xs : List Part) : ¬AtEnd (b.parts ++ xs) := by
  cases b with
  | text t => simp [AtEnd, Block.parts]
  | flag name => simp [AtEnd, Block.parts]
  | branch first more otherwise =>
    obtain ⟨p, condition, content⟩ := first
    simp [AtEnd, Block.parts, Clause.parts]

mutual

/-- A block is found again at the beginning of the parts: its first part says of which kind it is,
and each part of a branch ends where no block can go on. -/
theorem block_parts_inj : ∀ (b b' : Block) {xs ys : List Part},
    b.parts ++ xs = b'.parts ++ ys → b = b' ∧ xs = ys
  | .text t, .text t', xs, ys, h => by simpa [Block.parts] using h
  | .text t, .flag name, xs, ys, h => by simp [Block.parts] at h
  | .text t, .branch (.mk p c content) more otherwise, xs, ys, h => by
    simp [Block.parts, Clause.parts] at h
  | .flag name, .text t, xs, ys, h => by simp [Block.parts] at h
  | .flag name, .flag name', xs, ys, h => by simpa [Block.parts] using h
  | .flag name, .branch (.mk p c content) more otherwise, xs, ys, h => by
    simp [Block.parts, Clause.parts] at h
  | .branch (.mk p c content) more otherwise, .text t, xs, ys, h => by
    simp [Block.parts, Clause.parts] at h
  | .branch (.mk p c content) more otherwise, .flag name, xs, ys, h => by
    simp [Block.parts, Clause.parts] at h
  | .branch first more otherwise, .branch first' more' otherwise', xs, ys, h => by
    simp only [Block.parts, List.append_assoc] at h
    have hend := pastClauses_elseParts otherwise xs
    have hend' := pastClauses_elseParts otherwise' ys
    obtain ⟨rfl, hbehind⟩ := clause_parts_inj true first first' h (atEnd_furtherParts more hend)
      (atEnd_furtherParts more' hend')
    obtain ⟨rfl, hends⟩ := furtherParts_inj more more' hbehind hend hend'
    obtain ⟨rfl, hrest⟩ := elseParts_inj otherwise otherwise' hends
    exact ⟨rfl, hrest⟩

theorem clause_parts_inj : ∀ (opens : Bool) (c c' : Clause) {xs ys : List Part},
    c.parts opens ++ xs = c'.parts opens ++ ys → AtEnd xs → AtEnd ys → c = c' ∧ xs = ys
  | opens, .mk p condition content, .mk p' condition' content', xs, ys, h, hx, hy => by
    simp only [Clause.parts, List.cons_append, List.cons.injEq, Part.clause.injEq, true_and] at h
    obtain ⟨⟨rfl, rfl⟩, hcontent⟩ := h
    obtain ⟨rfl, hrest⟩ := parts_append_inj content content' hcontent hx hy
    exact ⟨rfl, hrest⟩

theorem furtherParts_inj : ∀ (cs cs' : List Clause) {xs ys : List Part},
    Clause.furtherParts cs ++ xs = Clause.furtherParts cs' ++ ys →
      PastClauses xs → PastClauses ys → cs = cs' ∧ xs = ys
  | [], [], xs, ys, h, _, _ => ⟨rfl, h⟩
  | [], .mk p c content :: cs', xs, ys, h, hx, _ => by
    obtain rfl : xs = _ := h
    simp [PastClauses, Clause.furtherParts, Clause.parts] at hx
  | .mk p c content :: cs, [], xs, ys, h, _, hy => by
    obtain rfl : _ = ys := h
    simp [PastClauses, Clause.furtherParts, Clause.parts] at hy
  | c :: cs, c' :: cs', xs, ys, h, hx, hy => by
    rw [Clause.furtherParts, Clause.furtherParts, List.append_assoc, List.append_assoc] at h
    obtain ⟨rfl, hmore⟩ := clause_parts_inj false c c' h (atEnd_furtherParts cs hx)
      (atEnd_furtherParts cs' hy)
    obtain ⟨rfl, hrest⟩ := furtherParts_inj cs cs' hmore hx hy
    exact ⟨rfl, hrest⟩

theorem elseParts_inj : ∀ (otherwise otherwise' : Option (List Block)) {xs ys : List Part},
    elseParts otherwise ++ ([.endIf] ++ xs) = elseParts otherwise' ++ ([.endIf] ++ ys) →
      otherwise = otherwise' ∧ xs = ys
  | none, none, xs, ys, h => by simpa [elseParts] using h
  | none, some blocks, xs, ys, h => by simp [elseParts] at h
  | some blocks, none, xs, ys, h => by simp [elseParts] at h
  | some blocks, some blocks', xs, ys, h => by
    have hblocks := (List.cons.inj h).2
    obtain ⟨rfl, hends⟩ :=
      parts_append_inj blocks blocks' hblocks (by simp [AtEnd]) (by simp [AtEnd])
    exact ⟨rfl, (List.cons.inj hends).2⟩

/-- Blocks are found again among the parts up to where they end. -/
theorem parts_append_inj : ∀ (bs bs' : List Block) {xs ys : List Part},
    parts bs ++ xs = parts bs' ++ ys → AtEnd xs → AtEnd ys → bs = bs' ∧ xs = ys
  | [], [], xs, ys, h, _, _ => ⟨rfl, h⟩
  | [], b :: bs, xs, ys, h, hx, _ => by
    obtain rfl : xs = _ := h
    rw [parts, List.append_assoc] at hx
    exact absurd hx (not_atEnd_block b _)
  | b :: bs, [], xs, ys, h, _, hy => by
    obtain rfl : _ = ys := h
    rw [parts, List.append_assoc] at hy
    exact absurd hy (not_atEnd_block b _)
  | b :: bs, b' :: bs', xs, ys, h, hx, hy => by
    rw [parts, parts, List.append_assoc, List.append_assoc] at h
    obtain ⟨rfl, hmore⟩ := block_parts_inj b b' h
    obtain ⟨rfl, hrest⟩ := parts_append_inj bs bs' hmore hx hy
    exact ⟨rfl, hrest⟩

end

/-- A template is determined by its parts. -/
theorem parts_inj {t t' : Template} (h : parts t = parts t') : t = t' := by
  have happend : parts t ++ [] = parts t' ++ [] := by rw [h]
  exact (parts_append_inj t t' happend atEnd_nil atEnd_nil).1

end Template

end FlagScript
