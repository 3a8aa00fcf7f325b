import FlagScript.Expr

/-!
# Operators as calls

Every operator and assignment can be written as a call of a built-in function: `$X += $Y * 2` is
`$INC(X, $MULT($Y, 2))`. Groups stay, so that the calls read like what they stand for.
-/

namespace FlagScript

/-- The function that a binary operator calls, and whether its answer is negated. -/
def BinaryOp.call : BinaryOp → Builtin × Bool
  | add => (.add, false)
  | sub => (.sub, false)
  | mul => (.mult, false)
  | div => (.div, false)
  | and => (.and, false)
  | or => (.or, false)
  | equal => (.flagIs, false)
  | notEqual => (.flagIs, true)
  | less => (.flagLessThan, false)
  | greaterOrEqual => (.flagLessThan, true)
  | greater => (.flagGreaterThan, false)
  | lessOrEqual => (.flagGreaterThan, true)

def UnaryOp.call : UnaryOp → Builtin
  | neg => .neg
  | not => .not

def AssignOp.call : AssignOp → Builtin
  | set => .set
  | increment | incrementBy => .inc
  | decrement | decrementBy => .dec

namespace Expr

/-- A call of a built-in function. -/
def callOf (b : Builtin) (args : List Expr) : Expr := .call b.name args

mutual

/-- The expression without operators and assignments. -/
def toCalls : Expr → Expr
  | literal v quoted => literal v quoted
  | flag name => flag name
  | group inner => group (toCalls inner)
  | call name args => call name (allToCalls args)
  | unary op operand => callOf op.call [toCalls operand]
  | binary op left right =>
    let inner := callOf op.call.1 [toCalls left, toCalls right]
    if op.call.2 then callOf .not [inner] else inner
  | step name op => callOf op.call [literal (.text name) false]
  | assign name op value => callOf op.call [literal (.text name) false, toCalls value]

def allToCalls : List Expr → List Expr
  | [] => []
  | e :: es => toCalls e :: allToCalls es

end

end Expr

end FlagScript
