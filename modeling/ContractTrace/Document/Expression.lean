import ContractTrace.Document.Value
import ContractTrace.Expression

/-! Expressions in documents. A node is read once its whole tree is there, so a fault in
the text comes before any fault in the tree. -/

namespace ContractTrace

namespace Document

def nodeId (j : Json) : Except ReadError NodeId := (natural (twoPow 32) j).map UInt32.ofNat

def binaryOperator (complete : Bool) : Reader BinaryOperator :=
  choice complete (BinaryOperator.all.map fun operator => (operator.symbol, operator))

def unaryOperator (complete : Bool) : Reader UnaryOperator :=
  choice complete (UnaryOperator.all.map fun operator => (operator.symbol, operator))

def expressionKinds : List (String × ExpressionKind) :=
  ExpressionKind.all.map fun kind => (kind.name, kind)

/-- A call: its id, what is called, and the arguments. -/
def callFields (expression : Reader Expression) : Fields Call :=
  Call.mk <$> field "id" nodeId <*> field "expression" expression <*>
    listField "arguments" expression

/-- The fields of each kind, given a reader of the expressions inside. -/
def expressionFields (expression : Reader Expression) : ExpressionKind → Fields Expression
  | .literal => Expression.literal <$> field "id" nodeId <*> field "value" (value true)
  | .identifier =>
    Expression.identifier <$> field "id" nodeId <*> field "name" string <*>
      optionField "referencedDeclaration" nodeId
  | .binaryOperation =>
    Expression.binary <$> field "id" nodeId <*> field "operator" (binaryOperator true) <*>
      field "leftExpression" expression <*> field "rightExpression" expression
  | .unaryOperation =>
    Expression.unary <$> field "id" nodeId <*> field "operator" (unaryOperator true) <*>
      field "subExpression" expression
  | .conditional =>
    Expression.conditional <$> field "id" nodeId <*> field "condition" expression <*>
      field "trueExpression" expression <*> field "falseExpression" expression
  | .tupleExpression =>
    Expression.tuple <$> field "id" nodeId <*> field "components" (list expression)
  | .functionCall =>
    (fun call => Expression.call call.id call.callee call.arguments) <$> callFields expression
  | .memberAccess =>
    Expression.member <$> field "id" nodeId <*> field "expression" expression <*>
      field "memberName" string
  | .indexAccess =>
    Expression.index <$> field "id" nodeId <*> field "baseExpression" expression <*>
      field "indexExpression" expression
  | .assignment =>
    Expression.assignment <$> field "id" nodeId <*> field "operator" string <*>
      field "leftHandSide" expression <*> field "rightHandSide" expression

/-- An expression inside a complete tree, of the given number of levels at most. -/
def innerExpression : Nat → Json → Except ReadError Expression
  | 0, _ => .error .malformed
  | levels + 1, j => node true expressionKinds (expressionFields (innerExpression levels)) j

def expression (j : Json) : Except ReadError Expression :=
  if j.isWhole then
    node false expressionKinds (expressionFields (innerExpression Json.depthLimit)) j
  else .error .malformed

def idJson (id : NodeId) : Json := .integer id.toNat

def optionJson (toJson : α → Json) : Option α → Json
  | none => .null
  | some a => toJson a

end Document

open Document

/-- The members that every node starts with. -/
def nodeMembers (kind : String) (id : NodeId) : List (String × Json) :=
  [(tagName, .string kind), ("id", idJson id)]

namespace Expression

mutual

def toJson : Expression → Json
  | .literal id value => .object (nodeMembers "Literal" id ++ [("value", value.toJson)])
  | .identifier id name declaration =>
    .object (nodeMembers "Identifier" id ++
      [("name", .string name), ("referencedDeclaration", optionJson idJson declaration)])
  | .binary id operator left right =>
    .object (nodeMembers "BinaryOperation" id ++
      [("operator", .string operator.symbol), ("leftExpression", left.toJson),
        ("rightExpression", right.toJson)])
  | .unary id operator operand =>
    .object (nodeMembers "UnaryOperation" id ++
      [("operator", .string operator.symbol), ("subExpression", operand.toJson)])
  | .conditional id condition whenTrue whenFalse =>
    .object (nodeMembers "Conditional" id ++
      [("condition", condition.toJson), ("trueExpression", whenTrue.toJson),
        ("falseExpression", whenFalse.toJson)])
  | .tuple id components =>
    .object (nodeMembers "TupleExpression" id ++ [("components", .array (toJsons components))])
  | .call id callee arguments =>
    .object (nodeMembers "FunctionCall" id ++
      [("expression", callee.toJson), ("arguments", .array (toJsons arguments))])
  | .member id base name =>
    .object (nodeMembers "MemberAccess" id ++
      [("expression", base.toJson), ("memberName", .string name)])
  | .index id base position =>
    .object (nodeMembers "IndexAccess" id ++
      [("baseExpression", base.toJson), ("indexExpression", position.toJson)])
  | .assignment id operator target source =>
    .object (nodeMembers "Assignment" id ++
      [("operator", .string operator), ("leftHandSide", target.toJson),
        ("rightHandSide", source.toJson)])

def toJsons : List Expression → List Json
  | [] => []
  | e :: es => e.toJson :: toJsons es

end

end Expression

def Call.toJson (call : Call) : Json :=
  .object [("id", idJson call.id), ("expression", call.callee.toJson),
    ("arguments", .array (Expression.toJsons call.arguments))]

end ContractTrace
