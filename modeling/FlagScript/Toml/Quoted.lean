import FlagScript.Text.Blank

/-!
# Quoted texts of TOML

A text stands on one line between single quote marks, or on several lines between three of them.
Between double quotes it may hold escapes; between apostrophes every character stands for itself.
-/

namespace FlagScript.Toml

/-- The four ways to write a text. -/
structure QuoteStyle where
  /-- Between double quotes, with escapes. -/
  escapes : Bool
  /-- Between three marks, over several lines. -/
  long : Bool
  deriving DecidableEq

/-- The quote mark of a style. -/
def QuoteStyle.mark (style : QuoteStyle) : Char := if style.escapes then '"' else '\x27'

/-- The marks on each side of a text. -/
def QuoteStyle.fence (style : QuoteStyle) : List Char :=
  List.replicate (if style.long then 3 else 1) style.mark

/-! ### Writing -/

/-- Control characters other than tab and line feed: they are written as escapes only. -/
def isControl (c : Char) : Bool :=
  c.toNat < 0x20 && c != '\t' && c != '\n' || c == '\x7f'

/-- Length of the longest run of a character. -/
def longestRun (c : Char) (cs : List Char) : Nat :=
  (cs.foldl (fun (longest, now) x =>
    let now := if x = c then now + 1 else 0
    (max longest now, now)) ((0 : Nat), (0 : Nat))).1

/-- Whether a text can be written without an escape: no line feed on a single line, and at most two
marks in a row within a long text. A backslash needs an escape wherever escapes are known. -/
def QuoteStyle.suits (style : QuoteStyle) (cs : List Char) : Bool :=
  !cs.any isControl && !(style.escapes && cs.contains '\\') &&
    if style.long then longestRun style.mark cs ≤ 2
    else !cs.contains '\n' && !cs.contains style.mark

/-- The styles in order of preference. -/
def QuoteStyle.preferred : List QuoteStyle :=
  [⟨true, false⟩, ⟨false, false⟩, ⟨true, true⟩, ⟨false, true⟩]

/-- The first style that suits a text; if none does, escapes over as many lines as it has. -/
def QuoteStyle.forText (cs : List Char) : QuoteStyle :=
  (preferred.find? (·.suits cs)).getD ⟨true, cs.contains '\n'⟩

/-- The first style of a single line that suits a key, or else escapes. -/
def QuoteStyle.forKey (cs : List Char) : QuoteStyle :=
  ((preferred.filter (!·.long)).find? (·.suits cs)).getD ⟨true, false⟩

/-- A hexadecimal digit in upper case. -/
def hexDigit (n : Nat) : Char := (Nat.digitChar n).toUpper

/-- An escape for a character: a letter where there is one, or else its number. -/
def escapeChar (c : Char) : List Char :=
  match c with
  | '\x08' => ['\\', 'b']
  | '\t' => ['\\', 't']
  | '\n' => ['\\', 'n']
  | '\x0c' => ['\\', 'f']
  | '\r' => ['\\', 'r']
  | '"' => ['\\', '"']
  | '\\' => ['\\', '\\']
  | c => ['\\', 'u', '0', '0', hexDigit (c.toNat / 16), hexDigit (c.toNat % 16)]

/-- A text with the escapes that it needs, after `quotes` double quotes. In a long text line feeds
and up to two double quotes in a row stand as they are. -/
def escapeText (long : Bool) (quotes : Nat) : List Char → List Char
  | [] => []
  | c :: cs =>
    if c = '"' then
      if long && quotes < 2 then c :: escapeText long (quotes + 1) cs
      else escapeChar c ++ escapeText long 0 cs
    else if c = '\n' && long then c :: escapeText long 0 cs
    else if isControl c || c = '\t' || c = '\n' || c = '\\' then
      escapeChar c ++ escapeText long 0 cs
    else c :: escapeText long 0 cs

/-- A text in a style. A text of several lines starts on a line of its own. -/
def QuoteStyle.write (style : QuoteStyle) (cs : List Char) : List Char :=
  style.fence ++ (if style.long && cs.contains '\n' then ['\n'] else []) ++
    (if style.escapes then escapeText style.long 0 cs else cs) ++ style.fence

/-! ### Reading -/

/-- Characters that a document may hold within a line. -/
def isPrintable (c : Char) : Bool := c == '\t' || 0x20 ≤ c.toNat && c != '\x7f'

def isHexDigit (c : Char) : Bool :=
  c.isDigit || 'a' ≤ c && c ≤ 'f' || 'A' ≤ c && c ≤ 'F'

def hexValue (c : Char) : Nat :=
  if c.isDigit then c.toNat - '0'.toNat
  else if c.isLower then c.toNat - 'a'.toNat + 10
  else c.toNat - 'A'.toNat + 10

/-- The character whose number is given in hexadecimal digits. -/
def charOfHex? (ds : List Char) : Option Char :=
  let n := ds.foldl (fun n d => 16 * n + hexValue d) 0
  if ds.all isHexDigit && n.isValidChar then some (Char.ofNat n) else none

/-- The character that a letter stands for after a backslash. -/
def charOfLetter? : Char → Option Char
  | 'b' => some '\x08'
  | 't' => some '\t'
  | 'n' => some '\n'
  | 'f' => some '\x0c'
  | 'r' => some '\r'
  | '"' => some '"'
  | '\\' => some '\\'
  | _ => none

/-- Where a long text ends: three marks, of up to five in a row. The first two of five, or the first
of four, belong to the text. -/
def closeLong? (mark : Char) (cs : List Char) : Option (List Char × List Char) :=
  let run := (cs.takeWhile (· == mark)).length
  let own := min (run - 3) 2
  if run < 3 then none else some (List.replicate own mark, cs.drop (own + 3))

/-- Whether nothing but blanks stands before the end of the line. -/
def endsLine (cs : List Char) : Bool :=
  match cs.dropWhile Text.isInlineBlank with
  | '\n' :: _ => true
  | '\r' :: '\n' :: _ => true
  | _ => false

/-- Reads a text with escapes up to and with its closing marks; `done` is what was read, last
character first. In a long text a backslash at the end of a line drops all blanks and line ends up
to the next character, and `skipping` says that this goes on. -/
def readEscaped? (long skipping : Bool) (done : List Char) :
    List Char → Option (List Char × List Char)
  | [] => none
  | '"' :: cs =>
    if long then
      match closeLong? '"' ('"' :: cs) with
      | some (own, rest) => some (done.reverse ++ own, rest)
      | none => readEscaped? long false ('"' :: done) cs
    else some (done.reverse, cs)
  | '\\' :: cs =>
    if long && endsLine cs then readEscaped? long true done cs
    else
      match cs with
      | 'u' :: a :: b :: c :: d :: cs =>
        match charOfHex? [a, b, c, d] with
        | some x => readEscaped? long false (x :: done) cs
        | none => none
      | 'U' :: a :: b :: c :: d :: e :: f :: g :: h :: cs =>
        match charOfHex? [a, b, c, d, e, f, g, h] with
        | some x => readEscaped? long false (x :: done) cs
        | none => none
      | c :: cs =>
        match charOfLetter? c with
        | some x => readEscaped? long false (x :: done) cs
        | none => none
      | [] => none
  | '\r' :: '\n' :: cs =>
    if long then readEscaped? long skipping (if skipping then done else '\n' :: done) cs else none
  | '\n' :: cs =>
    if long then readEscaped? long skipping (if skipping then done else '\n' :: done) cs else none
  | c :: cs =>
    if skipping && Text.isInlineBlank c then readEscaped? long true done cs
    else if isPrintable c then readEscaped? long false (c :: done) cs
    else none

/-- Reads a text without escapes up to and with its closing marks. -/
def readLiteral? (long : Bool) (done : List Char) : List Char → Option (List Char × List Char)
  | [] => none
  | '\x27' :: cs =>
    if long then
      match closeLong? '\x27' ('\x27' :: cs) with
      | some (own, rest) => some (done.reverse ++ own, rest)
      | none => readLiteral? long ('\x27' :: done) cs
    else some (done.reverse, cs)
  | '\r' :: '\n' :: cs => if long then readLiteral? long ('\n' :: done) cs else none
  | '\n' :: cs => if long then readLiteral? long ('\n' :: done) cs else none
  | c :: cs => if isPrintable c then readLiteral? long (c :: done) cs else none

/-- A text without the line end that it starts with. -/
def dropLineEnd : List Char → List Char
  | '\n' :: cs => cs
  | '\r' :: '\n' :: cs => cs
  | cs => cs

/-- Reads what stands after the opening marks of a style. A line end right after them is not part of
a long text. -/
def QuoteStyle.read? (style : QuoteStyle) (cs : List Char) : Option (List Char × List Char) :=
  let cs := if style.long then dropLineEnd cs else cs
  if style.escapes then readEscaped? style.long false [] cs else readLiteral? style.long [] cs

/-- Reads a quoted text of one line. -/
def readLine? : List Char → Option (List Char × List Char)
  | '"' :: cs => QuoteStyle.read? ⟨true, false⟩ cs
  | '\x27' :: cs => QuoteStyle.read? ⟨false, false⟩ cs
  | _ => none

/-- Reads a quoted text of any style. -/
def readText? : List Char → Option (List Char × List Char)
  | '"' :: '"' :: '"' :: cs => QuoteStyle.read? ⟨true, true⟩ cs
  | '\x27' :: '\x27' :: '\x27' :: cs => QuoteStyle.read? ⟨false, true⟩ cs
  | cs => readLine? cs

end FlagScript.Toml
