import FlagScript.Expr.Source
import FlagScript.Script
import FlagScript.Template.Parser

/-!
# Conditions of templates

A condition may only ask: it is refused if running it could change flags or the world.
-/

namespace FlagScript

namespace Clause

/-- How a message names something that changes things. -/
def effectText : Expr → String
  | .call name _ => "$" ++ name ++ "()"
  | .assign name _ _ => "assigning to $" ++ name
  | .step name _ => "assigning to $" ++ name
  | e => e.source

/-- Reads a condition whose directive stands at a place, and checks that it changes nothing. -/
def readCondition (p : Position) (source : String) : Except Error Script :=
  match Script.parseCondition source with
  | .error e => .error (.condition p e)
  | .ok script =>
    match Expr.firstEffectOf script with
    | some e => .error (.changes p (effectText e))
    | none => .ok script

/-- Reads a condition that was not read yet. -/
def prepare (p : Position) : Condition → Except Error Condition
  | .raw source => (readCondition p source).map .parsed
  | .parsed script => .ok (.parsed script)

end Clause

namespace Template

mutual

/-- Reads the conditions of a block. -/
def prepareBlock : Block → Except Error Block
  | .text t => .ok (.text t)
  | .flag name => .ok (.flag name)
  | .branch first more otherwise => do
    let first ← prepareClause first
    let more ← prepareClauses more
    match otherwise with
    | none => return .branch first more none
    | some blocks => return .branch first more (some (← prepareBlocks blocks))

/-- Reads the condition of a clause, and then those within its content. -/
def prepareClause : Clause → Except Error Clause
  | .mk p condition content => do
    let condition ← Clause.prepare p condition
    return .mk p condition (← prepareBlocks content)

def prepareClauses : List Clause → Except Error (List Clause)
  | [] => .ok []
  | c :: cs => do
    let c ← prepareClause c
    return c :: (← prepareClauses cs)

def prepareBlocks : List Block → Except Error (List Block)
  | [] => .ok []
  | b :: bs => do
    let b ← prepareBlock b
    return b :: (← prepareBlocks bs)

end

/-- Reads a template and all of its conditions, in the order of the source. -/
def parse (source : String) : Except Error Template := do
  prepareBlocks (← parseLazy source)

/-- Reads a template from the bytes of a source. -/
def parseBytes (bytes : ByteArray) : Except Error Template :=
  match String.fromUTF8? bytes with
  | some source => parse source
  | none => .error .unreadable

end Template

end FlagScript
