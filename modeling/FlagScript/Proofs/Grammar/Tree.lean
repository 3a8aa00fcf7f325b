import FlagScript.Phrase.Meaning

/-!
# Parse trees

A parse tree has tokens at its leaves and a production at every other node, which says what the
children of the node are. Here an expression is built from such a tree without trusting it: whatever
is missing or out of place is a failure of its own, `Failure.shape`.
-/

namespace FlagScript

/-- The productions that stand at nodes of parse trees. -/
inductive Rule where
  | expr | assign
  | boolOp | equality | comparison | sum | product | negation
  | group | call | argList | incr | decr
  deriving DecidableEq

inductive ParseTree where
  | leaf (t : Token)
  | node (rule : Rule) (children : List ParseTree)

/-- What a child is, apart from its own children. -/
inductive Label where
  | token (kind : TokenClass)
  | rule (rule : Rule)
  deriving DecidableEq

/-! ## The grammar -/

namespace Rule

/-- What stands between the operators of a chain. -/
def operand? : Rule → Option Rule
  | boolOp => some equality
  | equality => some comparison
  | comparison => some sum
  | sum => some product
  | product => some negation
  | _ => none

/-- The operators of a chain. -/
def operators : Rule → List TokenClass
  | boolOp => [.or, .and]
  | equality => [.equal, .notEqual]
  | comparison => [.lessOrEqual, .greaterOrEqual, .less, .greater]
  | sum => [.plus, .minus]
  | product => [.star, .slash]
  | _ => []

/-- Chains, and the operands of the tightest ones. -/
def isChain (r : Rule) : Bool := r.operand?.isSome || r = negation

theorem isChain_of_operand? {r operand : Rule} (h : r.operand? = some operand) :
    operand.isChain = true := by
  cases r <;> cases h <;> rfl

/-- Operators of a chain, each with an operand behind it. -/
inductive Operations (r operand : Rule) : List Label → Prop where
  | nil : Operations r operand []
  | cons {k : TokenClass} {ls : List Label} (hk : k ∈ r.operators)
      (hls : Operations r operand ls) :
      Operations r operand (.token k :: .rule operand :: ls)

/-- Expressions with commas between them, at least one. -/
inductive Arguments : List Label → Prop where
  | last : Arguments [.rule .expr]
  | more {ls : List Label} (h : Arguments ls) : Arguments (.rule .expr :: .token .comma :: ls)

/-- What stands behind the prefix operators of an operand. -/
def isTerm : Label → Bool
  | .rule .group | .rule .call | .rule .incr | .rule .decr => true
  | .rule _ => false
  | .token k => k = .identifier || k.isLiteral

/-- The children that a production gives a node, first to last. -/
def Production : Rule → List Label → Prop
  | expr, ls => ls = [.rule assign] ∨ ls = [.rule boolOp]
  | assign, ls => ∃ k ∈ [TokenClass.set, .incrementBy, .decrementBy],
    ls = [.token .identifier, .token k, .rule expr]
  | negation, ls => (∃ k ∈ [TokenClass.not, .minus], ls = [.token k, .rule negation]) ∨
    ∃ l, isTerm l = true ∧ ls = [l]
  | group, ls => ls = [.token .leftParen, .rule expr, .token .rightParen]
  | call, ls => ls = [.token .identifier, .rule argList]
  | argList, ls => ls = [.token .leftParen, .token .rightParen] ∨
    ∃ args, Arguments args ∧ ls = .token .leftParen :: (args ++ [.token .rightParen])
  | incr, ls => ls = [.token .identifier, .token .increment]
  | decr, ls => ls = [.token .identifier, .token .decrement]
  | r, ls => ∃ operand more, r.operand? = some operand ∧ Operations r operand more ∧
    ls = .rule operand :: more

end Rule

namespace ParseTree

def label : ParseTree → Label
  | leaf t => .token t.kind
  | node r _ => .rule r

@[simp] theorem label_leaf (t : Token) : (leaf t).label = .token t.kind := rfl

@[simp] theorem label_node (r : Rule) (cs : List ParseTree) : (node r cs).label = .rule r := rfl

/-- Every node has the children that its production gives it. -/
inductive Valid : ParseTree → Prop where
  | leaf (t : Token) : Valid (leaf t)
  | node {r : Rule} {cs : List ParseTree} (h : r.Production (cs.map label))
      (hcs : ∀ c ∈ cs, Valid c) : Valid (node r cs)

mutual

/-- The tokens at the leaves of a tree, first to last. -/
def leaves : ParseTree → List Token
  | leaf t => [t]
  | node _ cs => leavesOf cs

def leavesOf : List ParseTree → List Token
  | [] => []
  | c :: cs => leaves c ++ leavesOf cs

end

/-- The place of the first leaf. -/
def position : ParseTree → Position
  | leaf t => t.position
  | node _ (c :: _) => c.position
  | node _ [] => .start

/-- The operator or assignment at a leaf, if it is one. -/
def operator? {α : Type} (op? : TokenClass → Option α) : ParseTree → Option α
  | leaf t => op? t.kind
  | node _ _ => none

end ParseTree

/-! ## Building expressions -/

/-- Why no expression can be built from a tree: the source is refused, or a child is missing or out
of place. -/
inductive Failure where
  | refused (e : Error)
  | shape (p : Position) (what : String)

namespace Failure

/-- Answers an error of the source as a failure. -/
def lift {α : Type} : Except Error α → Except Failure α
  | .ok a => .ok a
  | .error e => .error (.refused e)

end Failure

namespace ParseTree

open Failure (lift)

/-- The token at a leaf. -/
def token (what : String) : ParseTree → Except Failure Token
  | leaf t => .ok t
  | node r cs => .error (.shape (node r cs).position what)

/-- The assignment of a flag that stands in front of `++` or `--`. -/
def buildStep (p : Position) (op : AssignOp) : List ParseTree → Except Failure Expr
  | [] => .error (.shape p "postfix target")
  | id :: _ => do return .step (← id.token "postfix target").name op

mutual

/-- The expression that a tree stands for, if its root stands at the given depth. -/
def buildExpr (depth : Nat) : ParseTree → Except Failure Expr
  | leaf t => .error (.shape t.position "empty expression")
  | node r [] => .error (.shape (node r []).position "empty expression")
  | node _ (inner :: _) =>
    match inner.label with
    | .rule .assign => buildAssign depth inner
    | .rule .boolOp => buildChain depth inner
    | _ => .error (.shape inner.position "expected assignment or operator chain")
  termination_by structural t => t

def buildAssign (depth : Nat) : ParseTree → Except Failure Expr
  | leaf t => .error (.shape t.position "assignment target")
  | node r [] => .error (.shape (node r []).position "assignment target")
  | node _ [id] => .error (.shape id.position "assignment operator")
  | node _ [id, op] =>
    match op.operator? TokenClass.assignOp? with
    | none => .error (.shape op.position "unknown assignment operator")
    | some _ => .error (.shape id.position "assigned value")
  | node _ (id :: op :: value :: _) => do
    let id ← id.token "assignment target"
    match op.operator? TokenClass.assignOp? with
    | none => .error (.shape op.position "unknown assignment operator")
    | some assignOp =>
      lift (Phrase.checkDepth depth op.position)
      return .assign id.name assignOp (← buildExpr (depth + 1) value)
  termination_by structural t => t

/-- An operand, or operands with operators between them: the first operand stands below all
operators. -/
def buildChain (depth : Nat) : ParseTree → Except Failure Expr
  | leaf t => .error (.shape t.position "left operand")
  | node .negation cs => buildNegated depth (node .negation cs).position cs
  | node r [] => .error (.shape (node r []).position "left operand")
  | node r (first :: rest) =>
    let count := (first :: rest).length / 2
    if count = 0 then buildChain depth first
    else if maxDepth < depth + count then
      let beyond := ((first :: rest)[2 * (maxDepth - depth) + 1]?).getD (node r (first :: rest))
      .error (.refused (.tooDeep beyond.position maxDepth))
    else do
      let left ← buildChain (depth + count) first
      buildFurther (depth + count) first.position left rest
  termination_by structural t => t

/-- Puts the operators behind an operand and their operands together with it, each of them one level
less deep than the one before. -/
def buildFurther (level : Nat) (p : Position) (left : Expr) : List ParseTree → Except Failure Expr
  | [] => .ok left
  | [op] =>
    match op.operator? TokenClass.binaryOp? with
    | none => .error (.shape op.position "unknown binary operator")
    | some _ => .error (.shape p "right operand")
  | op :: right :: rest =>
    match op.operator? TokenClass.binaryOp? with
    | none => .error (.shape op.position "unknown binary operator")
    | some binaryOp => do
      let right ← buildChain level right
      buildFurther (level - 1) p (.binary binaryOp left right) rest
  termination_by structural ts => ts

def buildNegation (depth : Nat) : ParseTree → Except Failure Expr
  | leaf t => .error (.shape t.position "negation operand")
  | node r cs => buildNegated depth (node r cs).position cs
  termination_by structural t => t

/-- An operand, perhaps behind a prefix operator, from the children of its node. -/
def buildNegated (depth : Nat) (p : Position) : List ParseTree → Except Failure Expr
  | [] => .error (.shape p "negation operand")
  | [first] =>
    match first.operator? TokenClass.unaryOp? with
    | none => buildTerm depth first
    | some _ => .error (.shape p "prefix operand")
  | first :: operand :: _ =>
    match first.operator? TokenClass.unaryOp? with
    | none => buildTerm depth first
    | some op => do
      lift (Phrase.checkDepth depth first.position)
      return .unary op (← buildNegation (depth + 1) operand)
  termination_by structural ts => ts

def buildTerm (depth : Nat) : ParseTree → Except Failure Expr
  | leaf t =>
    if t.kind = .identifier then .ok (.flag t.name)
    else if t.kind.isLiteral then lift (Phrase.faultAt t.position t.literal)
    else .error (.shape t.position "expected a value")
  | node .group cs => buildGroup depth (node .group cs).position cs
  | node .call cs => buildCall depth (node .call cs).position cs
  | node .incr cs => buildStep (node .incr cs).position .increment cs
  | node .decr cs => buildStep (node .decr cs).position .decrement cs
  | node r cs => .error (.shape (node r cs).position "expected a value")
  termination_by structural t => t

/-- The first expression among the children of a group. -/
def buildGroup (depth : Nat) (p : Position) : List ParseTree → Except Failure Expr
  | [] => .error (.shape p "empty group")
  | c :: cs =>
    if c.label = .rule .expr then do
      lift (Phrase.checkDepth depth p)
      return .group (← buildExpr (depth + 1) c)
    else buildGroup depth p cs
  termination_by structural ts => ts

def buildCall (depth : Nat) (p : Position) : List ParseTree → Except Failure Expr
  | [] => .error (.shape p "function name")
  | [_] => .error (.shape p "argument list")
  | id :: argList :: _ => do
    let id ← id.token "function name"
    lift (Phrase.checkDepth depth argList.position)
    let args ← buildArgList (depth + 1) argList
    lift (Phrase.faultAt id.position (Phrase.checkCall id args.length))
    return .call id.name args
  termination_by structural ts => ts

def buildArgList (depth : Nat) : ParseTree → Except Failure (List Expr)
  | leaf _ => .ok []
  | node _ cs => buildArguments depth cs
  termination_by structural t => t

/-- All expressions among the children of a list of arguments. -/
def buildArguments (depth : Nat) : List ParseTree → Except Failure (List Expr)
  | [] => .ok []
  | c :: cs =>
    if c.label = .rule .expr then do
      let e ← buildExpr depth c
      return e :: (← buildArguments depth cs)
    else buildArguments depth cs
  termination_by structural ts => ts

end

/-- The script that trees stand for, one statement each. -/
def buildScript (trees : List ParseTree) : Except Failure Script := trees.mapM (buildExpr 1)

end ParseTree

end FlagScript
