import FlagScript.Interpreter
import FlagScript.Proofs.Template.Cut
import FlagScript.Proofs.Template.Pieces

/-!
# What templates show

`ShowAll s bs shown ran` says, of one state, what each of some blocks shows and which conditions are
run for them, and `joined` puts this together, without the spaces in front of the gaps that empty
branches leave. Nothing here is about states that change, or about text that was written already.
-/

namespace FlagScript

/-- The interpreter behind scripts that run one after the other. -/
def Interpreter.execAll {W : Type} [World W] (s : Interpreter W) (scripts : List Script) :
    Interpreter W :=
  scripts.foldl (fun s script => (s.exec script).2) s

/-- The script that is read of a condition, if it was not read in advance. One that changes
something is not read. -/
inductive Condition.Reads : Condition → Script → Prop
  | parsed {script : Script} : Reads (.parsed script) script
  | raw {source : String} {script : Script} (hread : Script.parseCondition source = .ok script)
      (hharmless : Expr.firstEffectOf script = none) : Reads (.raw source) script

namespace Clause

def content : Clause → List Block
  | .mk _ _ content => content

variable {W : Type} [World W]

/-- The script is read of the condition of a clause, and in the state its value is true or not. -/
def Asks (s : Interpreter W) (answer : Bool) : Clause → Script → Prop
  | .mk _ condition _, script => condition.Reads script ∧ (s.exec script).1.truth = answer

end Clause

/-- A part as it is read: a text with its marks, a name in upper case, or a condition that changes
nothing. -/
abbrev Part.AsRead (x : Part) : Prop := x.Regular (Condition.Harmless false)

namespace Template

/-! ## What blocks show -/

/-- Whether a text gives up the space at its end: a branch that shows nothing stands behind it, and
behind that a text that starts with a space. -/
def closesGap : Block → List (Block × List Char) → Bool
  | .text t, (.branch _ _ _, []) :: (.text u, _) :: _ =>
    t.text.toList.getLast? == some ' ' && u.text.toList.head? == some ' '
  | _, _ => false

/-- What blocks show together, each given with what it shows. -/
def joined : List (Block × List Char) → List Char
  | [] => []
  | (b, shown) :: behind =>
    (if closesGap b behind then shown.dropLast else shown) ++ joined behind

variable {W : Type} [World W]

/-- The content of the first of some clauses whose condition is true, if there is one, and the
conditions up to it. -/
inductive Picks (s : Interpreter W) :
    List Clause → Option (List Block) → List Script → Prop
  | nothing {cs : List Clause} {asked : List Script}
      (hasked : List.Forall₂ (Clause.Asks s false) cs asked) : Picks s cs none asked
  | content {before behind : List Clause} {c : Clause} {asked : List Script} {script : Script}
      (hasked : List.Forall₂ (Clause.Asks s false) before asked) (hc : c.Asks s true script) :
      Picks s (before ++ c :: behind) (some c.content) (asked ++ [script])

mutual

/-- What a block shows in a state, and the conditions that are run for it, in order. -/
inductive Shows (s : Interpreter W) : Block → List Char → List Script → Prop
  | text (t : TextBlock) : Shows s (.text t) t.text.toList []
  | set {name : String} {v : Value} (h : s.flags[name]? = some v) :
      Shows s (.flag name) v.toText.toList []
  | unset {name : String} (h : s.flags[name]? = none) : Shows s (.flag name) [] []
  | branch {first : Clause} {more : List Clause} {otherwise content : Option (List Block)}
      {shown : List (Block × List Char)} {asked ran : List Script}
      (hpicks : Picks s (first :: more) content asked)
      (hshown : ShowAll s ((content.or otherwise).getD []) shown ran) :
      Shows s (.branch first more otherwise) (joined shown) (asked ++ ran)

/-- What each of some blocks shows. -/
inductive ShowAll (s : Interpreter W) :
    List Block → List (Block × List Char) → List Script → Prop
  | nil : ShowAll s [] [] []
  | cons {b : Block} {bs : List Block} {shown : List Char} {behind : List (Block × List Char)}
      {ran more : List Script} (hb : Shows s b shown ran) (h : ShowAll s bs behind more) :
      ShowAll s (b :: bs) ((b, shown) :: behind) (ran ++ more)

end

/-- Blocks that stand in a row somewhere in a template: all of it, the content of a clause, or what
stands behind an ELSE. -/
inductive Row (t : List Block) : List Block → Prop
  | all : Row t t
  | content {bs : List Block} {first : Clause} {more : List Clause}
      {otherwise : Option (List Block)} {c : Clause} (h : Row t bs)
      (hb : .branch first more otherwise ∈ bs) (hc : c ∈ first :: more) : Row t c.content
  | otherwise {bs : List Block} {first : Clause} {more : List Clause} {blocks : List Block}
      (h : Row t bs) (hb : .branch first more (some blocks) ∈ bs) : Row t blocks

/-! ## Conditions and branches -/

variable {s : Interpreter W} {p : Position} {c : Condition} {clauses : List Clause}
  {content : Option (List Block)} {asked : List Script}

theorem harmless_of_reads {script : Script} (h : c.Reads script) (hc : c.Harmless false) :
    Expr.firstEffectOf script = none := by
  cases h with
  | parsed => exact hc
  | raw _ hharmless => exact hharmless

/-- Without clauses nothing is asked. -/
theorem picks_nil_iff : Picks s [] content asked ↔ content = none ∧ asked = [] := by
  constructor
  · generalize hnil : [] = clauses
    rintro (hasked | ⟨hasked, hc⟩)
    · cases hnil
      cases hasked
      exact ⟨rfl, rfl⟩
    · simp at hnil
  · rintro ⟨rfl, rfl⟩
    exact .nothing .nil

/-- The first clause is always asked, and the others if its condition is not true. -/
theorem picks_cons_iff {blocks : List Block} :
    Picks s (.mk p c blocks :: clauses) content asked ↔
      ∃ script, c.Reads script ∧
        ((s.exec script).1.truth = true ∧ content = some blocks ∧ asked = [script] ∨
          (s.exec script).1.truth = false ∧
            ∃ more, Picks s clauses content more ∧ asked = script :: more) := by
  constructor
  · generalize hcons : Clause.mk p c blocks :: clauses = clauses'
    rintro (hasked | @⟨before, behind, d, asked, script, hasked, hd⟩)
    -- no clause holds, the first one does, or one behind it
    · subst hcons
      obtain _ | ⟨hfirst, hmore⟩ := hasked
      exact ⟨_, hfirst.1, .inr ⟨hfirst.2, _, .nothing hmore, rfl⟩⟩
    · cases before with
      | nil =>
        cases hcons
        cases hasked
        exact ⟨script, hd.1, .inl ⟨hd.2, rfl, rfl⟩⟩
      | cons d' before =>
        cases hcons
        obtain _ | ⟨hfirst, hmore⟩ := hasked
        exact ⟨_, hfirst.1, .inr ⟨hfirst.2, _, .content hmore hd, rfl⟩⟩
  · rintro ⟨script, hread, ⟨htrue, rfl, rfl⟩ | ⟨hfalse, more, hpicks, rfl⟩⟩
    · have hnone : List.Forall₂ (Clause.Asks s false) [] [] := .nil
      exact .content hnone ⟨hread, htrue⟩
    · have hfirst : Clause.Asks s false (.mk p c blocks) script := ⟨hread, hfalse⟩
      cases hpicks with
      | nothing hasked => exact .nothing (.cons hfirst hasked)
      | content hasked hd => exact .content (.cons hfirst hasked) hd

theorem exists_of_picks {blocks : List Block} (h : Picks s clauses (some blocks) asked) :
    ∃ c ∈ clauses, c.content = blocks := by
  cases h with
  | @content before behind c => exact ⟨c, by simp, rfl⟩

theorem shows_flag_iff {name : String} {shown : List Char} {ran : List Script} :
    Shows s (.flag name) shown ran ↔
      shown = ((s.flags[name]?.map Value.toText).getD "").toList ∧ ran = [] := by
  constructor
  · intro h
    cases h with
    | set hv => rw [hv]; exact ⟨rfl, rfl⟩
    | unset hnone => rw [hnone]; exact ⟨rfl, rfl⟩
  · rintro ⟨rfl, rfl⟩
    cases h : s.flags[name]? with
    | some v => exact .set h
    | none => exact .unset h

theorem ShowAll.map_fst {bs : List Block} {shown : List (Block × List Char)} {ran : List Script}
    (h : ShowAll s bs shown ran) : shown.map Prod.fst = bs := by
  induction bs generalizing shown ran with
  | nil => cases h; rfl
  | cons b bs ih =>
    cases h with
    | cons _ h => rw [List.map_cons, ih h]

theorem joined_cons (b : Block) (shown : List Char) (behind : List (Block × List Char)) :
    joined ((b, shown) :: behind) =
      (if closesGap b behind then shown.dropLast else shown) ++ joined behind := rfl

theorem closesGap_nil (b : Block) : closesGap b [] = false := by
  cases b <;> rfl

/-! ## Blocks as they are read -/

/-- The texts, flags and conditions of blocks are as they are read, at every depth. -/
def AsRead (bs : List Block) : Prop := ∀ x ∈ parts bs, x.AsRead

/-- So is all of some clauses. -/
def ClausesAsRead (clauses : List Clause) : Prop :=
  ∀ c ∈ clauses, ∃ opens, ∀ x ∈ c.parts opens, x.AsRead

/-- What stands in a template stands in one piece between its directives. -/
theorem isInfix_parts_of_mem {b : Block} {bs : List Block} (hb : b ∈ bs) :
    b.parts <:+: parts bs := by
  obtain ⟨front, back, rfl⟩ := List.append_of_mem hb
  rw [parts_append, parts]
  exact List.infix_append' _ _ _

theorem isInfix_furtherParts {c : Clause} {cs : List Clause} (hc : c ∈ cs) :
    c.parts false <:+: Clause.furtherParts cs := by
  obtain ⟨front, back, rfl⟩ := List.append_of_mem hc
  rw [furtherParts_append, Clause.furtherParts]
  exact List.infix_append' _ _ _

theorem isInfix_parts_of_clause {first c : Clause} {more : List Clause}
    {otherwise : Option (List Block)} (hc : c ∈ first :: more) :
    ∃ opens, c.parts opens <:+: (Block.branch first more otherwise).parts := by
  rcases List.mem_cons.1 hc with rfl | hc
  · exact ⟨true, (List.prefix_append _ _).isInfix⟩
  · refine ⟨false, (isInfix_furtherParts hc).trans ?_⟩
    exact List.infix_append' _ _ _

theorem clausesAsRead_of_branch {first : Clause} {more : List Clause}
    {otherwise : Option (List Block)}
    (h : ∀ x ∈ (Block.branch first more otherwise).parts, x.AsRead) :
    ClausesAsRead (first :: more) := by
  intro c hc
  obtain ⟨opens, hparts⟩ := isInfix_parts_of_clause hc
  exact ⟨opens, fun x hx => h x (hparts.subset hx)⟩

theorem isInfix_parts_of_else {first : Clause} {more : List Clause} {blocks : List Block} :
    parts blocks <:+: (Block.branch first more (some blocks)).parts := by
  rw [Block.parts, elseParts, ← List.append_assoc, List.cons_append, List.append_cons]
  exact List.infix_append' _ _ _

theorem isInfix_parts_of_content {c : Clause} {opens : Bool} :
    parts c.content <:+: c.parts opens := by
  cases c
  exact (List.suffix_cons _ _).isInfix

theorem Row.isInfix_parts {t bs : List Block} (h : Row t bs) : parts bs <:+: parts t := by
  induction h with
  | all => exact List.infix_rfl
  | content _ hb hc ih =>
    obtain ⟨opens, hparts⟩ := isInfix_parts_of_clause hc
    exact ((isInfix_parts_of_content.trans hparts).trans (isInfix_parts_of_mem hb)).trans ih
  | otherwise _ hb ih => exact (isInfix_parts_of_else.trans (isInfix_parts_of_mem hb)).trans ih

theorem Row.parts_subset {t bs : List Block} (h : Row t bs) : parts bs ⊆ parts t :=
  h.isInfix_parts.subset

end Template

namespace Part

variable {P Q : Condition → Prop} {x y : Part}

theorem Regular.mono (h : x.Regular P) (hPQ : ∀ c, P c → Q c) : x.Regular Q := by
  cases h with
  | text hcs => exact .text hcs
  | flag hname => exact .flag hname
  | clause hc => exact .clause (hPQ _ hc)
  | otherwise => exact .otherwise
  | endIf => exact .endIf

theorem Regular.of_prepare (hx : x.Regular P) (h : x.prepare = .ok y)
    (hPQ : ∀ p c c', P c → Clause.prepare p c = .ok c' → Q c') : y.Regular Q := by
  cases hx with
  | clause hc =>
    obtain ⟨c', hc', rfl⟩ := prepare_clause_eq_ok_iff.1 h
    exact .clause (hPQ _ _ _ hc hc')
  | text hcs => cases h; exact .text hcs
  | flag hname => cases h; exact .flag hname
  | otherwise => cases h; exact .otherwise
  | endIf => cases h; exact .endIf

theorem regular_of_allPrepared {xs ys : List Part}
    (h : List.Forall₂ (fun x y => x.prepare = .ok y) xs ys) (hxs : ∀ x ∈ xs, x.Regular P)
    (hPQ : ∀ p c c', P c → Clause.prepare p c = .ok c' → Q c') : ∀ y ∈ ys, y.Regular Q := by
  induction h with
  | nil => simp
  | cons hprepare _ ih =>
    rw [List.forall_mem_cons] at hxs ⊢
    exact ⟨hxs.1.of_prepare hprepare hPQ, ih hxs.2⟩

end Part

namespace Template

theorem asRead_of_parseLazy {source : String} {l : Template} (h : parseLazy source = .ok l) :
    AsRead l := by
  intro x hx
  refine ((regular_of_parseLazy h).1 x hx).mono fun c hc => ?_
  cases c with
  | raw source => rfl
  | parsed script => exact hc.elim

theorem asRead_of_parse {source : String} {t : Template} (h : parse source = .ok t) :
    AsRead t := by
  obtain ⟨l, hl, hprepare⟩ := bind_eq_ok_iff.1 h
  have hprepared := prepareBlocks_eq_ok_iff.1 ⟨t, hprepare, rfl⟩
  refine Part.regular_of_allPrepared hprepared (asRead_of_parseLazy hl) fun p c c' hc hc' => ?_
  have hready := prepare_harmless hc hc'
  cases c' with
  | raw source => cases hready
  | parsed script => exact hready

end Template

end FlagScript
