import ContractTrace.Environment
import ContractTrace.ErrorPolicy
import ContractTrace.Evaluation.Error
import ContractTrace.Generator
import ContractTrace.Log
import ContractTrace.Task

/-! Evaluation of expressions. Arithmetic is checked: a result outside the range of its type
is a fault, as is a division by zero, and the policy says what becomes of it. A result that
the carrier does not hold, of a type that is wider than the carrier, is a failure of its own
under either policy. -/

namespace ContractTrace

/-- The state that evaluations share. -/
structure EvaluationState where
  generator : Generator
  log : Log

abbrev Evaluation := Task EvaluationState EvaluationError

namespace Evaluation

/-! ### Faults -/

/-- A drawn value of the given type. -/
def substitute (operator : String) (ty : IntegerType) : Evaluation Value := fun state =>
  let (v, generator) := state.generator.between ty.min ty.max
  let line :=
    "substituting " ++ Decimal.ofInt v ++ " for faulting " ++ operator ++ " on " ++ ty.text
  let result :=
    match Value.make? v ty with
    | some value => .ok value
    | none => .error (.outOfRange v ty)
  (result, ⟨generator, state.log.push ⟨.debug, line⟩⟩)

def resolve (policy : ErrorPolicy) (error : EvaluationError) (operator : String)
    (ty : IntegerType) : Evaluation Value :=
  match policy with
  | .fail => Task.fail error
  | .substitute => substitute operator ty

/-- The value of a carrier result. -/
def settle (policy : ErrorPolicy) (operator : String) (raw : Option Int) (ty : IntegerType) :
    Evaluation Value :=
  match raw with
  | some v =>
    if ty.contains v then pure (.integer v ty)
    else resolve policy (.overflow operator ty) operator ty
  | none =>
    if ty.representable then resolve policy (.overflow operator ty) operator ty
    else Task.fail (.unrepresentable operator ty)

/-! ### Operators -/

/-- Operands have the same type; an exponent has any unsigned type. -/
def typesAgree (operator : BinaryOperator) (left right : IntegerType) : Bool :=
  if operator = .exp then !right.signed else right = left

def integerBinary (policy : ErrorPolicy) (operator : BinaryOperator) (a : Int)
    (ty : IntegerType) (b : Int) (tyRight : IntegerType) : Evaluation Value :=
  if typesAgree operator ty tyRight then
    match operator with
    | .eq => pure (.bool (a = b))
    | .ne => pure (.bool (a ≠ b))
    | .lt => pure (.bool (a < b))
    | .le => pure (.bool (a ≤ b))
    | .gt => pure (.bool (a > b))
    | .ge => pure (.bool (a ≥ b))
    | .add => settle policy operator.symbol (Carrier.add a b) ty
    | .sub => settle policy operator.symbol (Carrier.sub a b) ty
    | .mul => settle policy operator.symbol (Carrier.mul a b) ty
    | .div =>
      if b = 0 then resolve policy (.divisionByZero operator) operator.symbol ty
      else settle policy operator.symbol (Carrier.quotient a b) ty
    | .mod =>
      if b = 0 then resolve policy (.divisionByZero operator) operator.symbol ty
      else settle policy operator.symbol (Carrier.remainder a b) ty
    | .exp => settle policy operator.symbol (Carrier.power a b) ty
    | .bitAnd => settle policy operator.symbol (some (Carrier.bitAnd a b)) ty
    | .bitOr => settle policy operator.symbol (some (Carrier.bitOr a b)) ty
    | .bitXor => settle policy operator.symbol (some (Carrier.bitXor a b)) ty
    | .shl => Task.fail (.unsupportedOperator operator)
    | .shr => Task.fail (.unsupportedOperator operator)
    | .and => Task.fail (.invalidBinaryOperand operator ty.text)
    | .or => Task.fail (.invalidBinaryOperand operator ty.text)
  else Task.fail (.typeMismatch operator ty.text tyRight.text)

def binary (policy : ErrorPolicy) (operator : BinaryOperator) :
    Value → Value → Evaluation Value
  | .integer a ty, .integer b tyRight => integerBinary policy operator a ty b tyRight
  | .bool a, .bool b =>
    match operator with
    | .eq => pure (.bool (a == b))
    | .ne => pure (.bool (a != b))
    | _ => Task.fail (.invalidBinaryOperand operator "bool")
  | left, right => Task.fail (.typeMismatch operator left.label right.label)

def unary (policy : ErrorPolicy) (operator : UnaryOperator) (operand : Value) :
    Evaluation Value :=
  match operator, operand with
  | .not, .bool b => pure (.bool !b)
  | .neg, .integer v ty =>
    if ty.signed then settle policy "-" (Carrier.neg v) ty
    else Task.fail (.invalidUnaryOperand operator operand.label)
  | .bitNot, .integer v ty =>
    if ty.signed then settle policy "~" (some (Carrier.complement v)) ty
    else if ty.representable then settle policy "~" (some (ty.max - v)) ty
    else Task.fail (.unrepresentable "~" ty)
  | _, _ => Task.fail (.invalidUnaryOperand operator operand.label)

/-- The truth of a condition's value. -/
def truth : Value → Evaluation Bool
  | .bool b => pure b
  | v => Task.fail (.nonBooleanCondition v.text)

/-! ### Expressions -/

def readVariable (name : String) : Option Binding → Evaluation Value
  | none => Task.fail (.undeclaredIdentifier name)
  | some b =>
    match b.current? with
    | some v => pure v
    | none => Task.fail (.uninitializedVariable name)

end Evaluation

open Evaluation

mutual

/-- The value of an expression. A conjunction or disjunction evaluates its right side only
where the left side leaves the answer open, and a tuple of one component is that component. -/
def evaluate (policy : ErrorPolicy) (view : View) : Expression → Evaluation Value
  | .literal _ value => pure value
  | .identifier _ name declaration => readVariable name (view.lookup name declaration)
  | .binary _ .and left right => do
    if ← truth (← evaluate policy view left) then
      return .bool (← truth (← evaluate policy view right))
    else return .bool false
  | .binary _ .or left right => do
    if ← truth (← evaluate policy view left) then return .bool true
    else return .bool (← truth (← evaluate policy view right))
  | .binary _ operator left right => do
    let a ← evaluate policy view left
    let b ← evaluate policy view right
    binary policy operator a b
  | .unary _ operator operand => do unary policy operator (← evaluate policy view operand)
  | .conditional _ condition whenTrue whenFalse => do
    if ← truth (← evaluate policy view condition) then evaluate policy view whenTrue
    else evaluate policy view whenFalse
  | .tuple _ [component] => evaluate policy view component
  | .tuple _ components => do return .tuple (← evaluateEach policy view components)
  | .call id _ _ => Task.fail (.unsupportedExpression .functionCall id)
  | .member id _ _ => Task.fail (.unsupportedExpression .memberAccess id)
  | .index id _ _ => Task.fail (.unsupportedExpression .indexAccess id)
  | .assignment id _ _ _ => Task.fail (.unsupportedExpression .assignment id)

/-- The values of expressions, from left to right. -/
def evaluateEach (policy : ErrorPolicy) (view : View) :
    List Expression → Evaluation (List Value)
  | [] => pure []
  | e :: es => do
    let v ← evaluate policy view e
    let vs ← evaluateEach policy view es
    return v :: vs

end

/-- The values of one expression in several views, in order. -/
def evaluateForAll (policy : ErrorPolicy) (expression : Expression) :
    List View → Evaluation (List Value)
  | [] => pure []
  | view :: views => do
    let v ← evaluate policy view expression
    let vs ← evaluateForAll policy expression views
    return v :: vs

/-- The first of the values. -/
def firstValue (values : List Value) : Except EvaluationError Value :=
  match values with
  | v :: _ => .ok v
  | [] => .error .emptyResult

end ContractTrace
