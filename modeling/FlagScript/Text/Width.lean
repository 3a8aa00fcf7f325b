import FlagScript.Text.Width.Table

/-!
# Columns

How many columns a text takes on a screen with fixed columns. Escape sequences of terminals take
none.
-/

namespace FlagScript.Text

/-- Columns of a character; control characters take none. -/
def charWidth (c : Char) : Nat :=
  let n := c.toNat
  if n < 0x7F then if n < 0x20 then 0 else 1
  else if n < 0xA0 || zeroWidth.contains c then 0
  else if n == 0x17D8 then 3
  else if n == 0x17A4 || doubleWidth.contains c then 2
  else 1

/-- What follows the first final character of a control sequence. -/
def afterControl : List Char → List Char
  | [] => []
  | c :: cs => if 0x40 ≤ c.toNat && c.toNat ≤ 0x7E then cs else afterControl cs

/-- What follows a command of the operating system, which a bell or an escaped backslash ends. -/
def afterCommand (last : Char) : List Char → List Char
  | [] => []
  | c :: cs => if c == '\x07' || c == '\\' && last == '\x1b' then cs else afterCommand c cs

/-- What follows a terminal's escape sequence, given what stands behind its escape character. -/
def afterEscape : List Char → List Char
  | '[' :: cs => afterControl cs
  | ']' :: cs => afterCommand ']' cs
  | _ :: cs => cs
  | [] => []

theorem length_afterControl_le (cs : List Char) : (afterControl cs).length ≤ cs.length := by
  induction cs with
  | nil => simp [afterControl]
  | cons c cs ih =>
    simp only [afterControl]
    split
    · simp
    · simp; omega

theorem length_afterCommand_le (last : Char) (cs : List Char) :
    (afterCommand last cs).length ≤ cs.length := by
  induction cs generalizing last with
  | nil => simp [afterCommand]
  | cons c cs ih =>
    simp only [afterCommand]
    split
    · simp
    · have := ih c
      simp; omega

theorem length_afterEscape_le (cs : List Char) : (afterEscape cs).length ≤ cs.length := by
  unfold afterEscape
  split
  · next cs => have := length_afterControl_le cs; simp; omega
  · next cs => have := length_afterCommand_le ']' cs; simp; omega
  · simp
  · simp

/-- A text without its escape sequences. -/
def visible : List Char → List Char
  | [] => []
  | c :: cs =>
    have := length_afterEscape_le cs
    if c == '\x1b' then visible (afterEscape cs) else c :: visible cs
  termination_by cs => cs.length

/-- Columns of a text. -/
def width (cs : List Char) : Nat := (visible cs).foldl (fun n c => n + charWidth c) 0

end FlagScript.Text
