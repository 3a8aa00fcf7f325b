import FlagScript.Text.Width
import FlagScript.Text.WordChar
import FlagScript.Text.LineBreak

/-!
# Filling paragraphs

A long line is cut into words, and the words are laid out on lines of a given width so that the
total cost is least. Each line costs something, and so do the square of the room left at its end
and each column by which it is too long; the room at the end of the last line costs nothing. Of
several layouts with the least cost, the one whose last line begins earliest is taken, and so on
towards the front.
-/

namespace FlagScript.Text

/-- A piece of a line that stays together, and the spaces after it. -/
structure Word where
  text : List Char
  spaces : Nat
  width : Nat

namespace Word

/-- A piece of text with the spaces at its end told apart. -/
def ofText (cs : List Char) : Word :=
  let text := (cs.reverse.dropWhile (· == ' ')).reverse
  ⟨text, cs.length - text.length, Text.width text⟩

end Word

/-- Cuts a text at the given counts of characters from its start. -/
def cutAt (start : Nat) (cs : List Char) : List Nat → List (List Char)
  | [] => if cs.isEmpty then [] else [cs]
  | n :: ns => cs.take (n - start) :: cutAt n (cs.drop (n - start)) ns

/-- Where the characters of `visible cs` stand in `cs`: the place of the next visible character or
of the escape sequences in front of it, counted from `start`. -/
def visiblePlaces (start : Nat) (pending : Option Nat) : List Char → List Nat
  | [] => [pending.getD start]
  | c :: cs =>
    have := length_afterEscape_le cs
    if c == '\x1b' then
      let rest := afterEscape cs
      visiblePlaces (start + (cs.length + 1 - rest.length)) (some (pending.getD start)) rest
    else pending.getD start :: visiblePlaces (start + 1) none cs
  termination_by cs => cs.length

/-- Places at which a line is cut into words. A place behind a hyphen is no such place, whether the
hyphen shows or not. The last place left, which is the end of the line unless the line ends with a
hyphen, is dropped. -/
def wordPlaces (line : List Char) : List Nat :=
  let shown := (visible line).toArray
  let placesInLine := (visiblePlaces 0 none line).toArray
  let afterHyphen (n : Nat) : Bool :=
    let c := shown.getD (n - 1) ' '
    c == '-' || c == '\u00ad'
  let places := (LineBreak.places shown.toList ++ [shown.size]).filter (!afterHyphen ·)
  places.dropLast.map (placesInLine.getD · 0)

/-- Letter or digit of any script. -/
def isWordChar (c : Char) : Bool := if c.toNat < 128 then c.isAlphanum else wordChars.contains c

/-- Cuts a word behind each hyphen that stands between two letters or digits. -/
def hyphenParts (taken : List Char) : List Char → List (List Char)
  | a :: '-' :: b :: cs =>
    if isWordChar a && isWordChar b then
      ('-' :: a :: taken).reverse :: hyphenParts [] (b :: cs)
    else hyphenParts (a :: taken) ('-' :: b :: cs)
  | a :: cs => hyphenParts (a :: taken) cs
  | [] => [taken.reverse]

/-- Gives the spaces after a word to the last of its parts. -/
def partsWithSpaces (spaces : Nat) : List (List Char) → List Word
  | [] => []
  | [last] => [⟨last, spaces, width last⟩]
  | part :: parts => ⟨part, 0, width part⟩ :: partsWithSpaces spaces parts

def Word.splitAtHyphens (w : Word) : List Word :=
  partsWithSpaces w.spaces (hyphenParts [] w.text)

/-- Cuts a text into pieces of at most `limit` columns. An escape sequence belongs to the piece of
the character in front of it. -/
def pieces (limit used : Nat) (taken : List Char) : List Char → List (List Char)
  | [] => if taken.isEmpty then [] else [taken.reverse]
  | c :: cs =>
    have := length_afterEscape_le cs
    if c == '\x1b' then
      let rest := afterEscape cs
      pieces limit used ((cs.take (cs.length - rest.length)).reverse ++ c :: taken) rest
    else if 0 < used && limit < used + charWidth c then
      taken.reverse :: pieces limit (charWidth c) [c] cs
    else pieces limit (used + charWidth c) (c :: taken) cs
  termination_by cs => cs.length

/-- Cuts a word that is wider than a line. -/
def Word.breakApart (limit : Nat) (w : Word) : List Word :=
  if limit < w.width then partsWithSpaces w.spaces (pieces limit 0 [] w.text) else [w]

/-- The words of a line. -/
def words (limit : Nat) (line : List Char) : List Word :=
  (((cutAt 0 line (wordPlaces line)).map Word.ofText).flatMap Word.splitAtHyphens).flatMap
    (·.breakApart limit)

/-! ### Layout -/

/-- What a line of the given width costs. A last line with a single short word costs a little. -/
def lineCost (limit width : Nat) (isLast isSingle : Bool) : Nat :=
  1000 +
    if limit < width then (width - limit) * 2500
    else if !isLast then (limit - width) * (limit - width)
    else if isSingle && width * 4 < limit then 25
    else 0

/-- The best layout of the words up to some place: its cost, and where its last line begins. -/
structure Layout where
  cost : Nat
  start : Nat
  deriving Inhabited

/-- The best way to end a line before word `stop`, from the best layouts of fewer words and the
places of the words in columns. Lines beyond twice the limit are never worth their cost. -/
def bestLine (limit : Nat) (layouts : Array Layout) (columns : Array Nat) (stop ending : Nat)
    (isLast : Bool) : Option Layout → Nat → Option Layout
  | best, 0 => best
  | best, start + 1 =>
    let width := ending - columns.getD start 0
    let cost := (layouts.getD start default).cost +
      lineCost limit width isLast (start + 1 = stop)
    let better : Layout := ⟨cost, start⟩
    match best with
    | none => bestLine limit layouts columns stop ending isLast (some better) start
    | some b =>
      if 2 * limit < width then some b
      else bestLine limit layouts columns stop ending isLast
        (some (if cost ≤ b.cost then better else b)) start

/-- The best layouts of the first words, for every count of them. -/
def layouts (limit : Nat) (words : Array Word) : Array Layout :=
  let columns := words.foldl (fun cols w => cols.push (cols.back?.getD 0 + w.width + w.spaces)) #[0]
  (List.range words.size).foldl (fun done k =>
    let ending := columns.getD (k + 1) 0 - (words[k]?.map Word.spaces).getD 0
    done.push ((bestLine limit done columns (k + 1) ending (k + 1 = words.size) none (k + 1)).getD
      default)) #[⟨0, 0⟩]

/-- Where the lines of the best layout begin, given where the last line ends. -/
def lineStarts (layouts : Array Layout) : Nat → Nat → List Nat → List Nat
  | 0, _, starts => starts
  | lines + 1, stop, starts =>
    if stop = 0 then starts
    else
      let start := (layouts.getD stop default).start
      lineStarts layouts lines start (start :: starts)

/-- The words of a line one after the other, without the spaces after the last. -/
def joinWords : List Word → List Char
  | [] => []
  | [w] => w.text
  | w :: ws => w.text ++ List.replicate w.spaces ' ' ++ joinWords ws

/-- A line on as many lines as its best layout takes. -/
def wrapLine (limit : Nat) (line : List Char) : List (List Char) :=
  if (String.ofList line).utf8ByteSize < limit then [(line.reverse.dropWhile (· == ' ')).reverse]
  else
    let ws := (words limit line).toArray
    if ws.isEmpty then [[]]
    else
      let starts := lineStarts (layouts limit ws) ws.size ws.size []
      let stops := starts.drop 1 ++ [ws.size]
      List.zipWith (fun a b => joinWords (ws.extract a b).toList) starts stops

/-- Cuts a text at its line ends. -/
def lines (cs : List Char) : List (List Char) := cs.splitOn '\n'

/-- A text with every line of it laid out on lines of the given width. -/
def fill (limit : Nat) (s : String) : String :=
  String.ofList (['\n'].intercalate ((lines s.toList).flatMap (wrapLine limit)))

end FlagScript.Text
