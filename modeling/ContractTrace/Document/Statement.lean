import ContractTrace.Document.Expression
import ContractTrace.Statement

/-! Statements in documents. -/

namespace ContractTrace

namespace Document

def parameter : Reader Parameter :=
  record (Parameter.mk <$> field "id" nodeId <*> field "name" string <*>
    field "typeName" typeName)

def statementKinds : List (String × StatementKind) :=
  StatementKind.all.map fun kind => (kind.name, kind)

/-- The fields of each kind, given readers of the expressions and statements inside. -/
def statementFields (expression : Reader Expression) (statement : Reader Statement) :
    StatementKind → Fields Statement
  | .block => Statement.block <$> field "id" nodeId <*> listField "statements" statement
  | .emitStatement =>
    Statement.emit <$> field "id" nodeId <*> field "eventCall" (record (callFields expression))
  | .return => Statement.ret <$> field "id" nodeId <*> optionField "expression" expression
  | .expressionStatement =>
    Statement.effect <$> field "id" nodeId <*> field "expression" expression
  | .variableDeclarationStatement =>
    Statement.declaration <$> field "id" nodeId <*> field "declarations" (list parameter) <*>
      optionField "initialValue" expression
  | .ifStatement =>
    Statement.conditional <$> field "id" nodeId <*> field "condition" expression <*>
      field "trueBody" statement <*> optionField "falseBody" statement
  | .whileStatement =>
    Statement.whileLoop <$> field "id" nodeId <*> field "condition" expression <*>
      field "body" statement
  | .doWhileStatement =>
    Statement.doWhileLoop <$> field "id" nodeId <*> field "condition" expression <*>
      field "body" statement
  | .forStatement =>
    Statement.forLoop <$> field "id" nodeId <*>
      optionField "initializationExpression" statement <*> optionField "condition" expression <*>
      optionField "loopExpression" statement <*> field "body" statement
  | .break => Statement.breakLoop <$> field "id" nodeId
  | .continue => Statement.continueLoop <$> field "id" nodeId
  | .placeholderStatement => Statement.placeholder <$> field "id" nodeId
  | .revertStatement =>
    Statement.revert <$> field "id" nodeId <*> field "errorCall" (record (callFields expression))

/-- A statement inside a complete tree, of the given number of levels at most. -/
def innerStatement : Nat → Json → Except ReadError Statement
  | 0, _ => .error .malformed
  | levels + 1, j =>
    node true statementKinds
      (statementFields (innerExpression Json.depthLimit) (innerStatement levels)) j

def statement (j : Json) : Except ReadError Statement :=
  if j.isWhole then
    node false statementKinds
      (statementFields (innerExpression Json.depthLimit) (innerStatement Json.depthLimit)) j
  else .error .malformed

end Document

open Document

def Parameter.toJson (p : Parameter) : Json :=
  .object [("id", idJson p.id), ("name", .string p.name), ("typeName", .string p.typeName.text)]

namespace Statement

mutual

def toJson : Statement → Json
  | .block id statements =>
    .object (nodeMembers "Block" id ++ [("statements", .array (toJsons statements))])
  | .emit id call => .object (nodeMembers "EmitStatement" id ++ [("eventCall", call.toJson)])
  | .ret id expression =>
    .object (nodeMembers "Return" id ++
      [("expression", optionJson Expression.toJson expression)])
  | .effect id expression =>
    .object (nodeMembers "ExpressionStatement" id ++ [("expression", expression.toJson)])
  | .declaration id declared initial =>
    .object (nodeMembers "VariableDeclarationStatement" id ++
      [("declarations", .array (declared.map Parameter.toJson)),
        ("initialValue", optionJson Expression.toJson initial)])
  | .conditional id condition whenTrue whenFalse =>
    .object (nodeMembers "IfStatement" id ++
      [("condition", condition.toJson), ("trueBody", whenTrue.toJson),
        ("falseBody", optionToJson whenFalse)])
  | .whileLoop id condition body =>
    .object (nodeMembers "WhileStatement" id ++
      [("condition", condition.toJson), ("body", body.toJson)])
  | .doWhileLoop id condition body =>
    .object (nodeMembers "DoWhileStatement" id ++
      [("condition", condition.toJson), ("body", body.toJson)])
  | .forLoop id initial condition advance body =>
    .object (nodeMembers "ForStatement" id ++
      [("initializationExpression", optionToJson initial),
        ("condition", optionJson Expression.toJson condition),
        ("loopExpression", optionToJson advance), ("body", body.toJson)])
  | .breakLoop id => .object (nodeMembers "Break" id)
  | .continueLoop id => .object (nodeMembers "Continue" id)
  | .placeholder id => .object (nodeMembers "PlaceholderStatement" id)
  | .revert id call => .object (nodeMembers "RevertStatement" id ++ [("errorCall", call.toJson)])

def toJsons : List Statement → List Json
  | [] => []
  | s :: ss => s.toJson :: toJsons ss

def optionToJson : Option Statement → Json
  | none => .null
  | some s => s.toJson

end

end Statement

end ContractTrace
