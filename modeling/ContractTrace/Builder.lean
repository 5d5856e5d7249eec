import ContractTrace.Program

/-! Construction of syntax trees with fresh node ids. Ids are handed out in ascending order,
to a node after the nodes inside it. -/

namespace ContractTrace

structure Builder where
  next : NodeId := 1
deriving DecidableEq, Repr

abbrev Build := StateM Builder

namespace Builder

def freshId : Build NodeId := fun b => (b.next, ⟨b.next + 1⟩)

/-! ### Expressions -/

def literal (value : Value) : Build Expression := return .literal (← freshId) value

/-- An identifier that is resolved by its name. -/
def identifier (name : String) : Build Expression := return .identifier (← freshId) name none

/-- An identifier bound to a declaration. -/
def reference (name : String) (declaration : NodeId) : Build Expression :=
  return .identifier (← freshId) name (some declaration)

def binary (operator : BinaryOperator) (left right : Expression) : Build Expression :=
  return .binary (← freshId) operator left right

def unary (operator : UnaryOperator) (operand : Expression) : Build Expression :=
  return .unary (← freshId) operator operand

def conditional (condition whenTrue whenFalse : Expression) : Build Expression :=
  return .conditional (← freshId) condition whenTrue whenFalse

def namedCall (name : String) (arguments : List Expression) : Build Call := do
  let callee ← identifier name
  return ⟨← freshId, callee, arguments⟩

def call (name : String) (arguments : List Expression) : Build Expression := do
  let c ← namedCall name arguments
  return .call c.id c.callee c.arguments

/-! ### Statements -/

def emit (event : String) (arguments : List Expression) : Build Statement := do
  let c ← namedCall event arguments
  return .emit (← freshId) c

def ret (expression : Option Expression) : Build Statement := return .ret (← freshId) expression

def effect (expression : Expression) : Build Statement := return .effect (← freshId) expression

def ifThen (condition : Expression) (whenTrue : Statement) (whenFalse : Option Statement) :
    Build Statement :=
  return .conditional (← freshId) condition whenTrue whenFalse

def block (statements : List Statement) : Build Block := return ⟨← freshId, statements⟩

def nestedBlock (statements : List Statement) : Build Statement := do
  let b ← block statements
  return .block b.id b.statements

/-! ### Declarations -/

def parameter (name typeName : String) : Build Parameter :=
  return ⟨← freshId, name, .ofText typeName⟩

def storageVariable (name typeName : String) (initial : Option Value) : Build StorageVariable :=
  return ⟨← freshId, name, .ofText typeName, initial⟩

def event (name : String) (parameters : List Parameter) : Build EventDeclaration :=
  return ⟨← freshId, name, parameters⟩

def function (name : String) (parameters : List Parameter) (statements : List Statement) :
    Build Function := do
  let body ← block statements
  return ⟨← freshId, name, parameters, body⟩

def contract (name : String) (storage : List StorageVariable) (events : List EventDeclaration)
    (functions : List Function) : Build Contract :=
  return ⟨← freshId, name, storage, events, functions⟩

end Builder

end ContractTrace
