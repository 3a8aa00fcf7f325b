/-!
# Positions in a source
-/

namespace FlagScript

/-- A place in a source, both numbers from 1: lines end with a line feed, and columns count
characters. -/
structure Position where
  line : Nat
  col : Nat
  deriving DecidableEq, Inhabited

namespace Position

def start : Position := ⟨1, 1⟩

/-- The place behind a character that stands here. -/
def after (p : Position) (c : Char) : Position :=
  if c == '\n' then ⟨p.line + 1, 1⟩ else ⟨p.line, p.col + 1⟩

/-- The place behind a text that begins here. -/
def advance (p : Position) (cs : List Char) : Position := cs.foldl after p

end Position

/-- The line of a source in which a place lies, without the characters of line ends. -/
def sourceLine (source : List Char) (p : Position) : List Char :=
  ((source.splitOn '\n').getD (p.line - 1) []).filter (· != '\r')

end FlagScript
