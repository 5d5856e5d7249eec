import ContractTrace.Expression

/-! Failures of evaluation and their texts. -/

namespace ContractTrace

inductive EvaluationError
  | undeclaredIdentifier (name : String)
  | uninitializedVariable (name : String)
  | unsupportedExpression (kind : ExpressionKind) (id : NodeId)
  | unsupportedOperator (operator : BinaryOperator)
  | typeMismatch (operator : BinaryOperator) (left right : String)
  | invalidUnaryOperand (operator : UnaryOperator) (operand : String)
  | invalidBinaryOperand (operator : BinaryOperator) (operand : String)
  | nonBooleanCondition (value : String)
  | overflow (operator : String) (ty : IntegerType)
  | divisionByZero (operator : BinaryOperator)
  | unrepresentable (operator : String) (ty : IntegerType)
  | outOfRange (value : Int) (ty : IntegerType)
  | emptyResult
deriving DecidableEq, Repr

def EvaluationError.message : EvaluationError → String
  | .undeclaredIdentifier name => "Undeclared identifier: " ++ name
  | .uninitializedVariable name => "Variable " ++ name ++ " read before initialization"
  | .unsupportedExpression kind id =>
    "Unsupported expression " ++ kind.name ++ " at " ++ NodeId.text id
  | .unsupportedOperator operator => "Unsupported operator " ++ operator.symbol
  | .typeMismatch operator left right =>
    "Type mismatch for " ++ operator.symbol ++ ": " ++ left ++ " and " ++ right
  | .invalidUnaryOperand operator operand =>
    "Invalid operand for " ++ operator.symbol ++ ": " ++ operand
  | .invalidBinaryOperand operator operand =>
    "Invalid operand for " ++ operator.symbol ++ ": " ++ operand
  | .nonBooleanCondition value => "Condition evaluated to non-boolean " ++ value
  | .overflow operator ty => "Arithmetic overflow in " ++ operator ++ " for " ++ ty.text
  | .divisionByZero operator => "Division by zero in " ++ operator.symbol
  | .unrepresentable operator ty =>
    "Result of " ++ operator ++ " for " ++ ty.text ++ " is not representable"
  | .outOfRange value ty => "Value " ++ Decimal.ofInt value ++ " out of range for " ++ ty.text
  | .emptyResult => "Evaluation produced no value"

end ContractTrace
