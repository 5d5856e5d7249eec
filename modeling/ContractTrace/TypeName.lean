import ContractTrace.IntegerType

/-! The declared type of a variable or parameter. Values exist for integers and booleans;
any other type is kept by its spelling. -/

namespace ContractTrace

inductive TypeName
  | integer (ty : IntegerType)
  | bool
  | other (spelling : String)
deriving DecidableEq, Repr, Inhabited

namespace TypeName

def ofText (text : String) : TypeName :=
  if text = "bool" then .bool
  else
    match IntegerType.parse text with
    | .ok ty => .integer ty
    | .error _ => .other text

def text : TypeName → String
  | .integer ty => ty.text
  | .bool => "bool"
  | .other spelling => spelling

end TypeName

end ContractTrace
