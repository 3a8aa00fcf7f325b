import FlagScript.Text.LineBreak.Table
import FlagScript.Text.Width.Table

/-!
# Places where a line may be broken

The rules speak of *clusters*: a character with the marks that attach to it. Whether a line may end
between two clusters is decided by the first rule that applies, from the clusters before the place,
nearest first, and the clusters after it.
-/

namespace FlagScript.Text.LineBreak

/-- How a character takes part in breaking lines. -/
inductive BreakClass where
  | mandatory | space | zeroSpace | wordJoiner | glue | mark | joiner
  | opening | closing | closingParen | quote | exclamation | slash | infixSeparator | nonStarter
  | breakAfter | breakBefore | breakBoth | hyphen | contingent | inseparable
  | digit | numberPrefix | numberSuffix
  | letter | hebrewLetter | ideograph
  | leadingJamo | vowelJamo | trailingJamo | openSyllable | closedSyllable
  | regional | emojiBase | emojiModifier
  deriving DecidableEq, Inhabited

/-- The sets of characters with their classes. -/
def classSets : List (CharSet × BreakClass) := [
  (mandatoryChars, .mandatory), (spaceChars, .space), (zeroSpaceChars, .zeroSpace),
  (wordJoinerChars, .wordJoiner), (glueChars, .glue), (markChars, .mark), (joinerChars, .joiner),
  (openingChars, .opening), (closingChars, .closing), (closingParenChars, .closingParen),
  (quoteChars, .quote), (exclamationChars, .exclamation), (slashChars, .slash),
  (infixSeparatorChars, .infixSeparator), (nonStarterChars, .nonStarter),
  (breakAfterChars, .breakAfter), (breakBeforeChars, .breakBefore), (breakBothChars, .breakBoth),
  (hyphenChars, .hyphen), (contingentChars, .contingent), (inseparableChars, .inseparable),
  (digitChars, .digit), (numberPrefixChars, .numberPrefix), (numberSuffixChars, .numberSuffix),
  (hebrewLetterChars, .hebrewLetter), (ideographChars, .ideograph),
  (leadingJamoChars, .leadingJamo), (vowelJamoChars, .vowelJamo),
  (trailingJamoChars, .trailingJamo), (syllableChars, .closedSyllable), (regionalChars, .regional),
  (emojiBaseChars, .emojiBase), (emojiModifierChars, .emojiModifier)]

/-- The class of a character. Of the composed syllables every twenty-eighth has no final
consonant. -/
def classOf (c : Char) : BreakClass :=
  match classSets.find? (·.1.contains c) with
  | none => .letter
  | some (_, .closedSyllable) =>
    if (c.toNat - 0xAC00) % 28 = 0 then .openSyllable else .closedSyllable
  | some (_, k) => k

/-- A character with the marks that attach to it. -/
structure Cluster where
  kind : BreakClass
  first : Char
  /-- Count of the characters. -/
  size : Nat
  /-- Whether the last mark joins the cluster to the next one. -/
  joined : Bool

namespace Cluster

/-- A cluster that takes no marks. -/
def isBare (c : Cluster) : Bool :=
  c.kind = .mandatory || c.kind = .space || c.kind = .zeroSpace

/-- Clusters of a text, last first, added to those in front of it. A mark with nothing to attach to
counts as a letter. -/
def collect : List Cluster → List Char → List Cluster
  | done, [] => done
  | done, c :: cs =>
    let kind := classOf c
    if kind = .mark || kind = .joiner then
      match done with
      | last :: earlier =>
        if last.isBare then collect (⟨.letter, c, 1, kind = .joiner⟩ :: done) cs
        else collect ({ last with size := last.size + 1, joined := kind = .joiner } :: earlier) cs
      | [] => collect [⟨.letter, c, 1, kind = .joiner⟩] cs
    else collect (⟨kind, c, 1, false⟩ :: done) cs

def ofText (cs : List Char) : List Cluster := (collect [] cs).reverse

/-- Whether the character is fullwidth, wide or halfwidth. -/
def isEastAsian (c : Cluster) : Bool := doubleWidth.contains c.first || halfWidth.contains c.first

def isInitialQuote (c : Cluster) : Bool := c.kind = .quote && initialQuotes.contains c.first

def isFinalQuote (c : Cluster) : Bool := c.kind = .quote && finalQuotes.contains c.first

def isAlphabetic (c : Cluster) : Bool := c.kind = .letter || c.kind = .hebrewLetter

def isPictograph (c : Cluster) : Bool :=
  c.kind = .ideograph || c.kind = .emojiBase || c.kind = .emojiModifier

def isJamo (c : Cluster) : Bool :=
  c.kind = .leadingJamo || c.kind = .vowelJamo || c.kind = .trailingJamo ||
    c.kind = .openSyllable || c.kind = .closedSyllable

def isCloser (c : Cluster) : Bool := c.kind = .closing || c.kind = .closingParen

def isHyphen (c : Cluster) : Bool := c.kind = .hyphen || c.first == '\u2010'

end Cluster

/-- Whether some cluster stands first and has the property. -/
def headIs (p : Cluster → Bool) : List Cluster → Bool
  | c :: _ => p c
  | [] => false

/-- Whether no cluster stands first, or one with the property. -/
def endOr (p : Cluster → Bool) : List Cluster → Bool
  | c :: _ => p c
  | [] => true

/-- The clusters behind a number, nearest first: digits with separators among them. -/
def followsNumber (before : List Cluster) : Bool :=
  headIs (·.kind = .digit)
    (before.dropWhile fun c => c.kind = .slash || c.kind = .infixSeparator)

/-- The clusters behind a number that may end with one closing mark. -/
def followsClosedNumber : List Cluster → Bool
  | c :: cs => if c.isCloser then followsNumber cs else followsNumber (c :: cs)
  | [] => false

/-- A number in front, perhaps with a separator before its first digit. -/
def startsNumber : List Cluster → Bool
  | c :: cs => c.kind = .digit || c.kind = .infixSeparator && headIs (·.kind = .digit) cs
  | [] => false

/-- Rules for numbers: no break between `l`, which `ls` precede, and `r`, which `rs` follow. -/
def keepsNumber (l : Cluster) (ls : List Cluster) (r : Cluster) (rs : List Cluster) : Bool :=
  let affix (c : Cluster) : Bool := c.kind = .numberPrefix || c.kind = .numberSuffix
  affix r && followsClosedNumber (l :: ls) ||
    affix l && (r.kind = .digit || r.kind = .opening && startsNumber rs) ||
    r.kind = .digit &&
      (l.kind = .hyphen || l.kind = .infixSeparator || followsNumber (l :: ls))

/-- Rules for letters, ideographs, syllables and pictographs side by side. -/
def keepsWord (l : Cluster) (ls : List Cluster) (r : Cluster) : Bool :=
  l.isAlphabetic && (r.isAlphabetic || r.kind = .digit) || l.kind = .digit && r.isAlphabetic ||
    l.kind = .numberPrefix && (r.isPictograph || r.isJamo || r.isAlphabetic) ||
    r.kind = .numberSuffix && (l.isPictograph || l.isJamo || l.isAlphabetic) ||
    l.kind = .numberSuffix && r.isAlphabetic || l.isAlphabetic && r.kind = .numberPrefix ||
    l.kind = .leadingJamo && r.isJamo && r.kind != .trailingJamo ||
    (l.kind = .vowelJamo || l.kind = .openSyllable) &&
      (r.kind = .vowelJamo || r.kind = .trailingJamo) ||
    (l.kind = .trailingJamo || l.kind = .closedSyllable) && r.kind = .trailingJamo ||
    l.kind = .infixSeparator && r.isAlphabetic ||
    (l.isAlphabetic || l.kind = .digit) && r.kind = .opening && !r.isEastAsian ||
    l.kind = .closingParen && !l.isEastAsian && (r.isAlphabetic || r.kind = .digit) ||
    l.kind = .regional && r.kind = .regional &&
      ((l :: ls).takeWhile (·.kind = .regional)).length % 2 == 1 ||
    r.kind = .emojiModifier && (l.kind = .emojiBase || futurePictographs.contains l.first)

/-- Rules for quotation marks other than the opening ones before and the closing ones behind a
text. -/
def keepsQuote (l : Cluster) (ls : List Cluster) (r : Cluster) (rs : List Cluster) : Bool :=
  r.kind = .quote &&
      (!r.isInitialQuote || !l.isEastAsian || endOr (!·.isEastAsian) rs) ||
    l.kind = .quote &&
      (!l.isFinalQuote || !r.isEastAsian || endOr (!·.isEastAsian) ls)

/-- Rules for two clusters without a space between them. -/
def keepsTight (l : Cluster) (ls : List Cluster) (r : Cluster) (rs : List Cluster) : Bool :=
  keepsQuote l ls r rs ||
  if l.kind = .contingent || r.kind = .contingent then false
  else
    l.isHyphen && r.kind = .letter &&
        endOr (fun c => c.isBare || c.kind = .contingent || c.kind = .glue) ls ||
      r.kind = .breakAfter || r.kind = .hyphen || r.kind = .nonStarter || l.kind = .breakBefore ||
      headIs (·.kind = .hebrewLetter) ls && r.kind != .hebrewLetter &&
        (l.kind = .hyphen || l.kind = .breakAfter && !l.isEastAsian) ||
      l.kind = .slash && r.kind = .hebrewLetter || r.kind = .inseparable ||
      keepsNumber l ls r rs || keepsWord l ls r

/-- An opening quotation mark, nearest first, that begins what it quotes. -/
def opensQuotation : List Cluster → Bool
  | q :: ls => q.isInitialQuote &&
      endOr (fun c => c.isBare || c.kind = .opening || c.kind = .quote || c.kind = .glue) ls
  | [] => false

/-- A closing quotation mark that ends what it quotes. -/
def closesQuotation (r : Cluster) (rs : List Cluster) : Bool :=
  r.isFinalQuote &&
    endOr (fun c => c.isBare || c.isCloser || c.kind = .glue || c.kind = .wordJoiner ||
      c.kind = .quote || c.kind = .exclamation || c.kind = .infixSeparator || c.kind = .slash) rs

/-- Whether a line may end between the clusters before and those after. -/
def allows (before after : List Cluster) : Bool :=
  match before, after with
  | l :: ls, r :: rs =>
    let tight := before.dropWhile (·.kind = .space)
    if l.kind = .mandatory then true
    else if r.isBare then false
    else if headIs (·.kind = .zeroSpace) tight then true
    else if l.joined || l.kind = .wordJoiner || r.kind = .wordJoiner || l.kind = .glue then false
    else if r.kind = .glue && l.kind != .space && l.kind != .breakAfter && l.kind != .hyphen then
      false
    else if r.isCloser || r.kind = .exclamation || r.kind = .slash then false
    else if headIs (·.kind = .opening) tight || opensQuotation tight || closesQuotation r rs then
      false
    else if r.kind = .infixSeparator then l.kind = .space && headIs (·.kind = .digit) rs
    else if r.kind = .nonStarter && headIs Cluster.isCloser tight then false
    else if r.kind = .breakBoth && headIs (·.kind = .breakBoth) tight then false
    else if l.kind = .space then true
    else !keepsTight l ls r rs
  | _, _ => false

/-- Counts of characters in front of each place where a line may end, given the clusters before,
nearest first, and how many characters they have. -/
def placesFrom (before : List Cluster) (count : Nat) : List Cluster → List Nat
  | [] => []
  | r :: rs =>
    let later := placesFrom (r :: before) (count + r.size) rs
    if allows before (r :: rs) then count :: later else later

/-- Counts of characters in front of each place within the text where a line may end. -/
def places (cs : List Char) : List Nat := placesFrom [] 0 (Cluster.ofText cs)

end FlagScript.Text.LineBreak
