import FlagScript.Text.Upper.Table

/-!
# Upper case

Names are compared in upper case. Every character is mapped by itself, in full: some characters
have an upper-case form of two or three, such as `ß`, which becomes `SS`.
-/

namespace FlagScript.Text

/-- Whether the run maps the character with this number. -/
def CaseRun.covers (r : CaseRun) (n : Nat) : Bool :=
  r.first ≤ n && n ≤ r.last && (n - r.first) % r.step == 0

/-- The upper-case form of a character beyond ASCII. -/
def upperBeyondAscii (c : Char) : List Char :=
  match longUpper.lookup c with
  | some s => s.toList
  | none =>
    match caseRuns.find? (·.covers c.toNat) with
    | some r => [Char.ofNat ((c.toNat : Int) + r.shift).toNat]
    | none => [c]

def upperChar (c : Char) : List Char :=
  if c.toNat < 128 then [c.toUpper] else upperBeyondAscii c

def upper (s : String) : String := String.ofList (s.toList.flatMap upperChar)

end FlagScript.Text
