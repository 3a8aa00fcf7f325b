import FlagScript.Error
import FlagScript.Template.Piece

/-!
# From pieces to blocks

The pieces are read once from left to right. A directive opens a branch, goes on to its next part or
closes it; what is open is kept in frames, innermost first.
-/

namespace FlagScript

namespace Template

/-- The part of a branch whose content is being read. -/
inductive BranchPart where
  | clause (position : Position) (condition : String)
  | otherwise

/-- An open branch: its clauses so far and the blocks in front of it, both last first, and the part
being read. -/
structure Frame where
  before : List Block
  clauses : List Clause
  part : BranchPart

/-- What was read so far: the open branches, and the blocks of the innermost part, last first. -/
structure Reading where
  frames : List Frame := []
  blocks : List Block := []

namespace Reading

/-- What could come next. -/
def expected (r : Reading) : List Expectation :=
  match r.frames with
  | [] => [.endOfInput, .ifDirective, .flag, .templateText]
  | ⟨_, _, .clause _ _⟩ :: _ =>
    [.ifDirective, .elseIfDirective, .elseDirective, .endIfDirective, .flag, .templateText]
  | ⟨_, _, .otherwise⟩ :: _ => [.ifDirective, .endIfDirective, .flag, .templateText]

def push (r : Reading) (b : Block) : Reading := { r with blocks := b :: r.blocks }

/-- Opens a branch. -/
def openBranch (r : Reading) (p : Position) (condition : String) : Reading :=
  ⟨⟨r.blocks, [], .clause p condition⟩ :: r.frames, []⟩

/-- Ends the clause being read and goes on to the next part of its branch. -/
def nextPart? (r : Reading) (next : BranchPart) : Option Reading :=
  match r.frames with
  | ⟨before, clauses, .clause p condition⟩ :: frames =>
    some ⟨⟨before, .mk p (.raw condition) r.blocks.reverse :: clauses, next⟩ :: frames, []⟩
  | _ => none

/-- The branch with these clauses, last first. -/
def branch? (clauses : List Clause) (otherwise : Option (List Block)) : Option Block :=
  match clauses.reverse with
  | [] => none
  | first :: more => some (.branch first more otherwise)

/-- Closes the innermost branch. -/
def close? (r : Reading) : Option Reading :=
  match r.frames with
  | [] => none
  | ⟨before, clauses, .clause p condition⟩ :: frames =>
    (branch? (.mk p (.raw condition) r.blocks.reverse :: clauses) none).map
      fun b => ⟨frames, b :: before⟩
  | ⟨before, clauses, .otherwise⟩ :: frames =>
    (branch? clauses (some r.blocks.reverse)).map fun b => ⟨frames, b :: before⟩

/-- Reads a directive, if it can stand here. -/
def directive? (r : Reading) (p : Position) : Directive → Option Reading
  | .openIf condition => some (r.openBranch p condition)
  | .elseIf condition => r.nextPart? (.clause p condition)
  | .otherwise => r.nextPart? .otherwise
  | .endIf => r.close?

end Reading

/-- Something stands at a place of a source that cannot stand there. At the start of a template
nothing in particular is missed. -/
def misplaced (source : List Char) (p : Position) (r : Reading) : Error :=
  .unexpected p (if p = .start then [.template] else r.expected) (sourceLine source p)

/-- Reads the pieces of a source that are left. -/
def readFrom (source : List Char) (r : Reading) : List Piece → Except Error Template
  | [] =>
    if r.frames.isEmpty then .ok r.blocks.reverse
    else .error (misplaced source (Position.start.advance source) r)
  | .text cs :: rest => readFrom source (r.push (.text (.ofText cs))) rest
  | .flag name :: rest => readFrom source (r.push (.flag name)) rest
  | .malformed p :: _ => .error (misplaced source p r)
  | .directive p d :: rest =>
    match r.directive? p d with
    | some r => readFrom source r rest
    | none => .error (misplaced source p r)

/-- Reads a template and leaves its conditions to be read later. -/
def parseLazy (source : String) : Except Error Template :=
  readFrom source.toList {} (cut source.toList)

end Template

end FlagScript
