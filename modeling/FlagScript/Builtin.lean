import FlagScript.Text.Upper

/-!
# Built-in functions
-/

namespace FlagScript

/-- The functions that scripts can call. -/
inductive Builtin where
  | add | sub | mult | div | neg
  | or | and | not
  | flagEnabled | flagDisabled | flagIs | flagLessThan | flagGreaterThan
  | enable | disable | toggle | inc | dec | set
  | inInven | move | output
  deriving DecidableEq, Inhabited

namespace Builtin

/-- All of them, in the order in which they are listed. -/
def all : List Builtin := [
  add, sub, mult, div, neg, or, and, not,
  flagEnabled, flagDisabled, flagIs, flagLessThan, flagGreaterThan,
  enable, disable, toggle, inc, dec, set, inInven, move, output]

def name : Builtin → String
  | add => "ADD"
  | sub => "SUB"
  | mult => "MULT"
  | div => "DIV"
  | neg => "NEG"
  | or => "OR"
  | and => "AND"
  | not => "NOT"
  | flagEnabled => "FLAG_ENABLED"
  | flagDisabled => "FLAG_DISABLED"
  | flagIs => "FLAG_IS"
  | flagLessThan => "FLAG_LESS_THAN"
  | flagGreaterThan => "FLAG_GREATER_THAN"
  | enable => "ENABLE"
  | disable => "DISABLE"
  | toggle => "TOGGLE"
  | inc => "INC"
  | dec => "DEC"
  | set => "SET"
  | inInven => "IN_INVEN"
  | move => "MOVE"
  | output => "OUTPUT"

/-- How many arguments a call must have. -/
def required : Builtin → Nat
  | neg | not | flagEnabled | flagDisabled | enable | disable | toggle | inc | dec | inInven
  | output => 1
  | _ => 2

/-- How many arguments a call may have beyond those. -/
def optional : Builtin → Nat
  | inc | dec => 1
  | _ => 0

/-- Whether a call changes flags or the world. -/
def hasEffect : Builtin → Bool
  | enable | disable | toggle | inc | dec | set | move | output => true
  | _ => false

/-- The greatest count of arguments. -/
def most (b : Builtin) : Nat := b.required + b.optional

def accepts (b : Builtin) (count : Nat) : Bool := b.required ≤ count && count ≤ b.most

/-- The function of this name in any letter case, perhaps with a `$` in front. -/
def find? (name : String) : Option Builtin :=
  let bare := match name.toList with
    | '$' :: cs => String.ofList cs
    | _ => name
  all.find? (·.name == Text.upper bare)

/-- Says which counts of arguments a function takes, and that this is none of them. -/
def countMessage (b : Builtin) (count : Nat) : String :=
  let expected :=
    if b.most = 0 then "takes no arguments"
    else if b.required = b.most then
      if b.most = 1 then "requires exactly 1 argument"
      else "requires exactly " ++ toString b.most ++ " arguments"
    else "requires between " ++ toString b.required ++ " and " ++ toString b.most ++ " arguments"
  "$" ++ b.name ++ "() " ++ expected ++ ", but " ++ toString count ++ " given"

end Builtin

end FlagScript
