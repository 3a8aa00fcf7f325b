import FlagScript.Text.Blank
import FlagScript.Token

/-!
# From characters to tokens

At each place that is not layout the lexer takes the one token that begins there. `scan` looks at a
character and what follows it, and answers the class of the token and how many further characters
belong to it.
-/

namespace FlagScript

namespace Token

/-- Characters that end unquoted text, unless a backslash stands in front of them. -/
def isSpecial (c : Char) : Bool :=
  ['+', '-', '<', '>', '!', '=', '*', '/', '&', '|', '(', ')', ',', '@', '$', '\\'].contains c

/-- Characters of flag and function names. -/
def isNameChar (c : Char) : Bool := c.isAlphanum || c == '_'

/-- A character that stands for itself in unquoted text. -/
def isPlain (c : Char) : Bool := !isSpecial c && !Text.isLayout c

/-- How far unquoted text reaches, given how many characters of it were seen, and how many blanks
behind those. Blanks belong to it only if more text follows them on the line. -/
def textReach (blanks length : Nat) : List Char → Nat
  | [] => length
  | [c] => if isPlain c then length + blanks + 1 else length
  | c :: d :: cs =>
    if Text.isInlineBlank c then textReach (blanks + 1) length (d :: cs)
    else if c == '\\' then textReach 0 (length + blanks + 2) cs
    else if isPlain c then textReach 0 (length + blanks + 1) (d :: cs)
    else length

/-- Whether unquoted text goes on here, perhaps behind blanks. -/
def textFollows (cs : List Char) : Bool := textReach 0 0 cs != 0

/-- How far quoted text reaches, its closing `@` included, given how many characters were seen. -/
def quotedReach (length : Nat) : List Char → Option Nat
  | [] => none
  | '@' :: _ => some (length + 1)
  | ['\\'] => none
  | '\\' :: _ :: cs => quotedReach (length + 2) cs
  | _ :: cs => quotedReach (length + 1) cs

/-- Length of the run of digits in front. -/
def digitCount (cs : List Char) : Nat := (cs.takeWhile Char.isDigit).length

/-- Length of a decimal exponent, 0 if there is none: its digits may stand behind a minus sign. -/
def exponentLength : List Char → Nat
  | e :: cs =>
    if e == 'e' || e == 'E' then
      match cs with
      | '-' :: ds => if digitCount ds = 0 then 0 else digitCount ds + 2
      | ds => if digitCount ds = 0 then 0 else digitCount ds + 1
    else 0
  | [] => 0

/-- Length of the digits of a number and its point, 0 if there are no digits. -/
def mantissaLength (cs : List Char) : Nat :=
  let whole := digitCount cs
  match cs.drop whole with
  | '.' :: ds =>
    let fraction := digitCount ds
    if whole = 0 && fraction = 0 then 0 else whole + 1 + fraction
  | _ => whole

/-- Length of a number, 0 if there is none. -/
def numberLength (cs : List Char) : Nat :=
  match mantissaLength cs with
  | 0 => 0
  | n => n + exponentLength (cs.drop n)

/-- Words for truth values, in lower case. -/
def truthWords : List (List Char) :=
  [['t', 'r', 'u', 'e'], ['f', 'a', 'l', 's', 'e'], ['o', 'n'], ['o', 'f', 'f'],
    ['y', 'e', 's'], ['n', 'o']]

/-- Length of the truth word in front, in any letter case, 0 if there is none. -/
def truthWordLength (cs : List Char) : Nat :=
  match truthWords.find? fun w => (cs.take w.length).map Char.toLower == w with
  | some w => w.length
  | none => 0

/-- The literal in front: a number or a truth word if text does not go on behind it, or text. The
length is 0 if there is none. -/
def scanLiteral (cs : List Char) : TokenClass × Nat :=
  let n := numberLength cs
  if n != 0 && !textFollows (cs.drop n) then (.number, n)
  else
    let w := truthWordLength cs
    if w != 0 && !textFollows (cs.drop w) then (.boolean, w)
    else (.text, textReach 0 0 cs)

/-- The class of the token that begins with `c`, and how many characters of `cs` belong to it. -/
def scan (c : Char) (cs : List Char) : Option (TokenClass × Nat) :=
  match c, cs with
  | '+', '=' :: _ => some (.incrementBy, 1)
  | '+', '+' :: _ => some (.increment, 1)
  | '+', _ => some (.plus, 0)
  | '-', '=' :: _ => some (.decrementBy, 1)
  | '-', '-' :: _ => some (.decrement, 1)
  | '-', _ => some (.minus, 0)
  | '<', '=' :: _ => some (.lessOrEqual, 1)
  | '<', _ => some (.less, 0)
  | '>', '=' :: _ => some (.greaterOrEqual, 1)
  | '>', _ => some (.greater, 0)
  | '!', '=' :: _ => some (.notEqual, 1)
  | '!', _ => some (.not, 0)
  | '=', '=' :: _ => some (.equal, 1)
  | '=', _ => some (.set, 0)
  | '&', '&' :: _ => some (.and, 1)
  | '|', '|' :: _ => some (.or, 1)
  | '*', _ => some (.star, 0)
  | '/', _ => some (.slash, 0)
  | ',', _ => some (.comma, 0)
  | '(', _ => some (.leftParen, 0)
  | ')', _ => some (.rightParen, 0)
  | '$', _ =>
    match (cs.takeWhile isNameChar).length with
    | 0 => none
    | n => some (.identifier, n)
  | '@', _ => (quotedReach 0 cs).map (.quotedText, ·)
  | _, _ =>
    match scanLiteral (c :: cs) with
    | (_, 0) => none
    | (kind, n + 1) => some (kind, n)

/-- Adds the tokens of a text that begins at `p` to those in front of it, last first. If no token
begins at some place, the answer is that place. -/
def lexFrom (done : List Token) (p : Position) : List Char → Except Position (List Token)
  | [] => .ok done.reverse
  | c :: cs =>
    if Text.isLayout c then lexFrom done (p.after c) cs
    else
      match scan c cs with
      | none => .error p
      | some (kind, n) =>
        lexFrom (⟨kind, c :: cs.take n, p⟩ :: done) ((p.after c).advance (cs.take n)) (cs.drop n)
  termination_by cs => cs.length

/-- The tokens of a source, or the first place where none begins. -/
def lex (source : List Char) : Except Position (List Token) := lexFrom [] .start source

end Token

end FlagScript
