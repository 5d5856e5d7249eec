import ContractTrace.Document.Statement
import ContractTrace.Program

/-! Declarations, contracts, transactions and programs in documents. -/

namespace ContractTrace

namespace Document

def block : Reader Block :=
  record (Block.mk <$> field "id" nodeId <*> listField "statements" statement)

def storageVariable : Reader StorageVariable :=
  record (StorageVariable.mk <$> field "id" nodeId <*> field "name" string <*>
    field "typeName" typeName <*> optionField "initializerValue" (value false))

def eventDeclaration : Reader EventDeclaration :=
  record (EventDeclaration.mk <$> field "id" nodeId <*> field "name" string <*>
    listField "parameters" parameter)

def function : Reader Function :=
  record (Function.mk <$> field "id" nodeId <*> field "name" string <*>
    listField "parameters" parameter <*> field "body" block)

def contract : Reader Contract :=
  record (Contract.mk <$> field "id" nodeId <*> field "name" string <*>
    listField "variables" storageVariable <*> listField "events" eventDeclaration <*>
    listField "functions" function)

def sourceUnit : Reader SourceUnit :=
  record (SourceUnit.mk <$> field "contracts" (list contract))

def transaction : Reader Transaction :=
  record (Transaction.mk <$> field "contract" string <*> field "function" string <*>
    listField "arguments" (value false))

def program : Reader Program :=
  record (Program.mk <$> field "ast" sourceUnit <*> listField "transactions" transaction)

end Document

open Document

def Block.toJson (b : Block) : Json :=
  .object [("id", idJson b.id), ("statements", .array (Statement.toJsons b.statements))]

def StorageVariable.toJson (v : StorageVariable) : Json :=
  .object [("id", idJson v.id), ("name", .string v.name), ("typeName", .string v.typeName.text),
    ("initializerValue", optionJson Value.toJson v.initial)]

def EventDeclaration.toJson (e : EventDeclaration) : Json :=
  .object [("id", idJson e.id), ("name", .string e.name),
    ("parameters", .array (e.parameters.map Parameter.toJson))]

def Function.toJson (f : Function) : Json :=
  .object [("id", idJson f.id), ("name", .string f.name),
    ("parameters", .array (f.parameters.map Parameter.toJson)), ("body", f.body.toJson)]

def Contract.toJson (c : Contract) : Json :=
  .object [("id", idJson c.id), ("name", .string c.name),
    ("variables", .array (c.storage.map StorageVariable.toJson)),
    ("events", .array (c.events.map EventDeclaration.toJson)),
    ("functions", .array (c.functions.map Function.toJson))]

def SourceUnit.toJson (u : SourceUnit) : Json :=
  .object [("contracts", .array (u.contracts.map Contract.toJson))]

def Transaction.toJson (t : Transaction) : Json :=
  .object [("contract", .string t.contract), ("function", .string t.function),
    ("arguments", .array (Value.toJsons t.arguments))]

def Program.toJson (p : Program) : Json :=
  .object [("ast", p.source.toJson),
    ("transactions", .array (p.transactions.map Transaction.toJson))]

/-- The program that a text describes. -/
def Program.ofText (text : String) : Except ReadError Program := Document.ofText program text

end ContractTrace
