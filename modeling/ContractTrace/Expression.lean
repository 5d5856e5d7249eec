import ContractTrace.Value

/-! Expressions of the contract language and their source text. -/

namespace ContractTrace

/-- The identity of a node inside one source unit. -/
abbrev NodeId := UInt32

/-- A node id as messages show it. -/
def NodeId.text (id : NodeId) : String := "#" ++ Decimal.ofNat id.toNat

inductive BinaryOperator
  | add
  | sub
  | mul
  | div
  | mod
  | exp
  | eq
  | ne
  | lt
  | le
  | gt
  | ge
  | and
  | or
  | bitAnd
  | bitOr
  | bitXor
  | shl
  | shr
deriving DecidableEq, Repr

namespace BinaryOperator

def symbol : BinaryOperator → String
  | add => "+"
  | sub => "-"
  | mul => "*"
  | div => "/"
  | mod => "%"
  | exp => "**"
  | eq => "=="
  | ne => "!="
  | lt => "<"
  | le => "<="
  | gt => ">"
  | ge => ">="
  | and => "&&"
  | or => "||"
  | bitAnd => "&"
  | bitOr => "|"
  | bitXor => "^"
  | shl => "<<"
  | shr => ">>"

def all : List BinaryOperator :=
  [add, sub, mul, div, mod, exp, eq, ne, lt, le, gt, ge, and, or, bitAnd, bitOr, bitXor, shl, shr]

end BinaryOperator

inductive UnaryOperator
  | neg
  | not
  | bitNot
deriving DecidableEq, Repr

namespace UnaryOperator

def symbol : UnaryOperator → String
  | neg => "-"
  | not => "!"
  | bitNot => "~"

def all : List UnaryOperator := [neg, not, bitNot]

end UnaryOperator

inductive Expression
  | literal (id : NodeId) (value : Value)
  | identifier (id : NodeId) (name : String) (declaration : Option NodeId)
  | binary (id : NodeId) (operator : BinaryOperator) (left right : Expression)
  | unary (id : NodeId) (operator : UnaryOperator) (operand : Expression)
  | conditional (id : NodeId) (condition whenTrue whenFalse : Expression)
  | tuple (id : NodeId) (components : List Expression)
  | call (id : NodeId) (callee : Expression) (arguments : List Expression)
  | member (id : NodeId) (base : Expression) (name : String)
  | index (id : NodeId) (base position : Expression)
  | assignment (id : NodeId) (operator : String) (target source : Expression)
deriving Repr, Inhabited

/-- The expression kinds, in the order of their ordinals. -/
inductive ExpressionKind
  | literal
  | identifier
  | binaryOperation
  | unaryOperation
  | conditional
  | tupleExpression
  | functionCall
  | memberAccess
  | indexAccess
  | assignment
deriving DecidableEq, Repr

namespace ExpressionKind

def name : ExpressionKind → String
  | literal => "Literal"
  | identifier => "Identifier"
  | binaryOperation => "BinaryOperation"
  | unaryOperation => "UnaryOperation"
  | conditional => "Conditional"
  | tupleExpression => "TupleExpression"
  | functionCall => "FunctionCall"
  | memberAccess => "MemberAccess"
  | indexAccess => "IndexAccess"
  | assignment => "Assignment"

def all : List ExpressionKind :=
  [literal, identifier, binaryOperation, unaryOperation, conditional, tupleExpression,
    functionCall, memberAccess, indexAccess, assignment]

end ExpressionKind

namespace Expression

def id : Expression → NodeId
  | .literal id _ => id
  | .identifier id _ _ => id
  | .binary id _ _ _ => id
  | .unary id _ _ => id
  | .conditional id _ _ _ => id
  | .tuple id _ => id
  | .call id _ _ => id
  | .member id _ _ => id
  | .index id _ _ => id
  | .assignment id _ _ _ => id

def kind : Expression → ExpressionKind
  | .literal .. => .literal
  | .identifier .. => .identifier
  | .binary .. => .binaryOperation
  | .unary .. => .unaryOperation
  | .conditional .. => .conditional
  | .tuple .. => .tupleExpression
  | .call .. => .functionCall
  | .member .. => .memberAccess
  | .index .. => .indexAccess
  | .assignment .. => .assignment

mutual

/-- The expression as source code. -/
def source : Expression → String
  | .literal _ value => value.text
  | .identifier _ name _ => name
  | .binary _ operator left right =>
    "(" ++ left.source ++ " " ++ operator.symbol ++ " " ++ right.source ++ ")"
  | .unary _ operator operand => operator.symbol ++ operand.source
  | .conditional _ condition whenTrue whenFalse =>
    "(" ++ condition.source ++ " ? " ++ whenTrue.source ++ " : " ++ whenFalse.source ++ ")"
  | .tuple _ components => "(" ++ ", ".intercalate (sources components) ++ ")"
  | .call _ callee arguments =>
    callee.source ++ "(" ++ ", ".intercalate (sources arguments) ++ ")"
  | .member _ base name => base.source ++ "." ++ name
  | .index _ base position => base.source ++ "[" ++ position.source ++ "]"
  | .assignment _ operator target source =>
    target.source ++ " " ++ operator ++ " " ++ source.source

def sources : List Expression → List String
  | [] => []
  | e :: es => e.source :: sources es

end

/-- The name that a called expression gives: `f` for both `f(..)` and `lib.f(..)`. -/
def calleeName? : Expression → Option String
  | .identifier _ name _ => some name
  | .member _ _ name => some name
  | _ => none

end Expression

/-- A call as emit and revert statements hold it. -/
structure Call where
  id : NodeId
  callee : Expression
  arguments : List Expression
deriving Repr, Inhabited

end ContractTrace
