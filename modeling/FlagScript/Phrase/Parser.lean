import FlagScript.Phrase

/-!
# From tokens to phrases

The grammar, from the loosest form to the tightest:

    expression := name (= | += | -=) expression  |  level 5
    level n+1  := level n (operator of level n+1, level n)*
    level 0    := (! | -) level 0  |  operand
    operand    := ( expression )  |  name ( arguments )  |  name ++  |  name --  |  name  |  literal

One token, or two behind a name, tells which form comes next, so no choice is ever taken back. Where
no form fits, the parser is stuck there. Every function takes a bound on the depth of its calls;
`depthBound` never runs out.
-/

namespace FlagScript

namespace Phrase

/-- Where a parser got stuck: what is left of the tokens, and what could stand there instead. -/
structure Stuck where
  rest : List Token
  expected : List Expectation

/-- A parser's answer, with the tokens behind what it took. -/
abbrev Parsed (α : Type) := Except Stuck (α × List Token)

/-- The operator in front of the tokens, if it binds as tightly as the level says. -/
def operatorAt? (level : Nat) : List Token → Option (BinaryOp × Position × List Token)
  | t :: ts =>
    match t.kind.binaryOp? with
    | some op => if op.level = level then some (op, t.position, ts) else none
    | none => none
  | [] => none

/-- The name and the assignment in front of the tokens. -/
def assignmentAt? : List Token → Option (Token × AssignOp × Position × List Token)
  | id :: t :: ts =>
    if id.kind = .identifier then t.kind.assignOp?.map (id, ·, t.position, ts) else none
  | _ => none

/-- Whether the first token is of this class. -/
def startsWith (kind : TokenClass) : List Token → Bool
  | t :: _ => t.kind = kind
  | [] => false

/-- Whether an expression can begin here. -/
def startsExpression : List Token → Bool
  | t :: _ => t.kind.startsExpression
  | [] => false

mutual

def expression : Nat → List Token → Parsed Phrase
  | 0, ts => .error ⟨ts, []⟩
  | bound + 1, ts =>
    match assignmentAt? ts with
    | some (id, op, opAt, rest) =>
      match expression bound rest with
      | .error e => .error e
      | .ok (value, rest) => .ok (.assign id op opAt value, rest)
    | none => level bound 5 ts

/-- Operands of the next tighter level with operators of this level between them. -/
def level : Nat → Nat → List Token → Parsed Phrase
  | 0, _, ts => .error ⟨ts, []⟩
  | bound + 1, 0, ts => prefixed bound ts
  | bound + 1, n + 1, ts =>
    match level bound n ts with
    | .error e => .error e
    | .ok (left, rest) => chain bound n left rest

/-- The further operands of a level, given what stands in front of them. -/
def chain : Nat → Nat → Phrase → List Token → Parsed Phrase
  | 0, _, _, ts => .error ⟨ts, []⟩
  | bound + 1, n, left, ts =>
    match operatorAt? (n + 1) ts with
    | none => .ok (left, ts)
    | some (op, opAt, rest) =>
      match level bound n rest with
      | .error e => .error e
      | .ok (right, rest) => chain bound n (.binary op opAt left right) rest

/-- An operand with the operators in front of it. -/
def prefixed : Nat → List Token → Parsed Phrase
  | 0, ts => .error ⟨ts, []⟩
  | _ + 1, [] => .error ⟨[], [.expression]⟩
  | bound + 1, t :: ts =>
    match t.kind.unaryOp? with
    | none => operand bound t ts
    | some op =>
      match prefixed bound ts with
      | .error e => .error e
      | .ok (x, rest) => .ok (.unary op t.position x, rest)

/-- An operand that begins with the token `t`. -/
def operand : Nat → Token → List Token → Parsed Phrase
  | 0, t, ts => .error ⟨t :: ts, []⟩
  | bound + 1, t, ts =>
    if t.kind = .leftParen then
      match expression bound ts with
      | .error e => .error e
      | .ok (inner, rest) =>
        if startsWith .rightParen rest then .ok (.group t.position inner, rest.tail)
        else .error ⟨rest, .token .rightParen :: inner.tails⟩
    else if t.kind = .identifier then
      match ts with
      | [] => .ok (.flag t, [])
      | u :: rest =>
        if u.kind = .leftParen then arguments bound t u.position rest
        else
          match u.kind.stepOp? with
          | some op => .ok (.step t op, rest)
          | none => .ok (.flag t, u :: rest)
    else if t.kind.isLiteral then .ok (.literal t, ts)
    else .error ⟨t :: ts, [.expression]⟩

/-- The arguments of a call and the parenthesis that ends them. -/
def arguments : Nat → Token → Position → List Token → Parsed Phrase
  | 0, _, _, ts => .error ⟨ts, []⟩
  | bound + 1, id, parenAt, ts =>
    if startsWith .rightParen ts then .ok (.call id parenAt [], ts.tail)
    else if startsExpression ts then furtherArguments bound id parenAt [] ts
    else .error ⟨ts, [.expression, .token .rightParen]⟩

/-- The arguments of a call behind those in `done`, which stand last first. -/
def furtherArguments : Nat → Token → Position → List Phrase → List Token → Parsed Phrase
  | 0, _, _, _, ts => .error ⟨ts, []⟩
  | bound + 1, id, parenAt, done, ts =>
    match expression bound ts with
    | .error e => .error e
    | .ok (arg, rest) =>
      if startsWith .comma rest then furtherArguments bound id parenAt (arg :: done) rest.tail
      else if startsWith .rightParen rest then
        .ok (.call id parenAt (arg :: done).reverse, rest.tail)
      else .error ⟨rest, .token .comma :: .token .rightParen :: arg.tails⟩

end

/-- Enough depth for any tokens of this count: at most ten calls lie between two tokens. -/
def depthBound (count : Nat) : Nat := 10 * count + 10

/-- The statements behind those in `done`, which stand last first. The bound counts tokens: it is
never below their number. -/
def furtherStatements : Nat → List Phrase → List Token → Except Stuck (List Phrase)
  | 0, _, ts => .error ⟨ts, []⟩
  | bound + 1, done, ts =>
    if ts.isEmpty && !done.isEmpty then .ok done.reverse
    else if startsExpression ts then
      match expression (depthBound bound) ts with
      | .error e => .error e
      | .ok (p, rest) => furtherStatements bound (p :: done) rest
    else
      match done with
      | [] => .error ⟨ts, [.expression]⟩
      | p :: _ => .error ⟨ts, .endOfInput :: .expression :: p.tails⟩

/-- The statements of a script, at least one. -/
def statements (ts : List Token) : Except Stuck (List Phrase) :=
  furtherStatements (ts.length + 1) [] ts

end Phrase

end FlagScript
