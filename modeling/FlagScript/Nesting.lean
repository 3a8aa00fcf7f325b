import FlagScript.Error

/-!
# Nesting

Before a script is parsed its tokens are counted for nesting: groups, argument lists and prefix
operators around a token, and links of a chain of assignments. This bounds the depth of the
parser's calls.
-/

namespace FlagScript

/-- How deep groups, prefix operators and chained assignments may nest. -/
def maxNesting : Nat := 64

/-- What the tokens seen so far leave open. -/
structure Nesting where
  /-- For each open parenthesis, innermost first, the prefix operators right in front of it. -/
  pending : List Nat := []
  /-- Prefix operators at the end of what was seen. -/
  run : Nat := 0
  /-- Links of the chain of assignments in which the last assignment stands. -/
  links : Nat := 0
  /-- Classes of the last tokens, latest first. -/
  seen : List TokenClass := []

namespace Nesting

/-- How deep an operand would stand that comes next. -/
def depth (s : Nesting) : Nat := s.pending.length + s.pending.foldr (· + ·) 0 + s.run

/-- Whether a `-` or `!` that comes next stands in front of an operand. -/
def operandComes (s : Nesting) : Bool :=
  match s.seen with
  | [] => true
  | last :: _ => last.expectsOperand

/-- Whether an assignment that comes next is the value of another one. -/
def linksOn (s : Nesting) : Bool :=
  match s.seen with
  | .identifier :: before :: _ => before.assigns
  | _ => false

def step (s : Nesting) (kind : TokenClass) : Nesting :=
  let seen := kind :: s.seen.take 1
  if (kind = .not || kind = .minus) && s.operandComes then { s with run := s.run + 1, seen }
  else if kind = .leftParen then { s with pending := s.run :: s.pending, run := 0, seen }
  else if kind = .rightParen then { s with pending := s.pending.tail, run := 0, seen }
  else if kind.assigns then
    { s with run := 0, links := if s.linksOn then s.links + 1 else 1, seen }
  else { s with run := 0, seen }

def isTooDeep (s : Nesting) : Bool := maxNesting < s.depth || maxNesting < s.links

/-- The first token that nests too deep, if what was seen before leaves `s` open. -/
def findTooDeep (s : Nesting) : List Token → Option Token
  | [] => none
  | t :: ts => if (s.step t.kind).isTooDeep then some t else findTooDeep (s.step t.kind) ts

/-- The first token that nests too deep. -/
def tooDeep? (ts : List Token) : Option Token := findTooDeep ⟨[], 0, 0, []⟩ ts

end Nesting

end FlagScript
