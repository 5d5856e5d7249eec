import ContractTrace.Expression

/-! Statements of the contract language. Blocks, emits and returns have rules of
interpretation; the other kinds are here to be named when they are refused. -/

namespace ContractTrace

/-- A declared parameter or local variable. -/
structure Parameter where
  id : NodeId
  name : String
  typeName : TypeName
deriving DecidableEq, Repr, Inhabited

inductive Statement
  | block (id : NodeId) (statements : List Statement)
  | emit (id : NodeId) (call : Call)
  | ret (id : NodeId) (expression : Option Expression)
  | effect (id : NodeId) (expression : Expression)
  | declaration (id : NodeId) (declared : List Parameter) (initial : Option Expression)
  | conditional (id : NodeId) (condition : Expression) (whenTrue : Statement)
      (whenFalse : Option Statement)
  | whileLoop (id : NodeId) (condition : Expression) (body : Statement)
  | doWhileLoop (id : NodeId) (condition : Expression) (body : Statement)
  | forLoop (id : NodeId) (initial : Option Statement) (condition : Option Expression)
      (advance : Option Statement) (body : Statement)
  | breakLoop (id : NodeId)
  | continueLoop (id : NodeId)
  | placeholder (id : NodeId)
  | revert (id : NodeId) (call : Call)
deriving Repr, Inhabited

/-- The statement kinds, in the order of their ordinals. -/
inductive StatementKind
  | block
  | emitStatement
  | return
  | expressionStatement
  | variableDeclarationStatement
  | ifStatement
  | whileStatement
  | doWhileStatement
  | forStatement
  | break
  | continue
  | placeholderStatement
  | revertStatement
deriving DecidableEq, Repr

namespace StatementKind

def name : StatementKind → String
  | .block => "Block"
  | .emitStatement => "EmitStatement"
  | .return => "Return"
  | .expressionStatement => "ExpressionStatement"
  | .variableDeclarationStatement => "VariableDeclarationStatement"
  | .ifStatement => "IfStatement"
  | .whileStatement => "WhileStatement"
  | .doWhileStatement => "DoWhileStatement"
  | .forStatement => "ForStatement"
  | .break => "Break"
  | .continue => "Continue"
  | .placeholderStatement => "PlaceholderStatement"
  | .revertStatement => "RevertStatement"

def all : List StatementKind :=
  [.block, .emitStatement, .return, .expressionStatement, .variableDeclarationStatement,
    .ifStatement, .whileStatement, .doWhileStatement, .forStatement, .break, .continue,
    .placeholderStatement, .revertStatement]

end StatementKind

namespace Statement

def id : Statement → NodeId
  | .block id _ => id
  | .emit id _ => id
  | .ret id _ => id
  | .effect id _ => id
  | .declaration id _ _ => id
  | .conditional id _ _ _ => id
  | .whileLoop id _ _ => id
  | .doWhileLoop id _ _ => id
  | .forLoop id _ _ _ _ => id
  | .breakLoop id => id
  | .continueLoop id => id
  | .placeholder id => id
  | .revert id _ => id

def kind : Statement → StatementKind
  | .block .. => .block
  | .emit .. => .emitStatement
  | .ret .. => .return
  | .effect .. => .expressionStatement
  | .declaration .. => .variableDeclarationStatement
  | .conditional .. => .ifStatement
  | .whileLoop .. => .whileStatement
  | .doWhileLoop .. => .doWhileStatement
  | .forLoop .. => .forStatement
  | .breakLoop .. => .break
  | .continueLoop .. => .continue
  | .placeholder .. => .placeholderStatement
  | .revert .. => .revertStatement

end Statement

/-- The body of a function. -/
structure Block where
  id : NodeId
  statements : List Statement
deriving Repr, Inhabited

end ContractTrace
