import ContractTrace.Statement

/-! Contracts with their declarations, and programs: a source unit and the transactions to
run against it. Names are resolved to the first declaration that has them. -/

namespace ContractTrace

/-- A storage variable and the value that it starts with. -/
structure StorageVariable where
  id : NodeId
  name : String
  typeName : TypeName
  initial : Option Value
deriving Repr, Inhabited

structure EventDeclaration where
  id : NodeId
  name : String
  parameters : List Parameter
deriving DecidableEq, Repr, Inhabited

structure Function where
  id : NodeId
  name : String
  parameters : List Parameter
  body : Block
deriving Repr, Inhabited

structure Contract where
  id : NodeId
  name : String
  storage : List StorageVariable
  events : List EventDeclaration
  functions : List Function
deriving Repr, Inhabited

structure SourceUnit where
  contracts : List Contract
deriving Repr, Inhabited

/-- One call into a contract, with its arguments already evaluated. -/
structure Transaction where
  contract : String
  function : String
  arguments : List Value
deriving Repr, Inhabited

structure Program where
  source : SourceUnit
  transactions : List Transaction
deriving Repr, Inhabited

def SourceUnit.contract? (unit : SourceUnit) (name : String) : Option Contract :=
  unit.contracts.find? (·.name = name)

def Contract.function? (contract : Contract) (name : String) : Option Function :=
  contract.functions.find? (·.name = name)

def Contract.event? (contract : Contract) (name : String) : Option EventDeclaration :=
  contract.events.find? (·.name = name)

end ContractTrace
