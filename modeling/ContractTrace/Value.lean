import ContractTrace.TypeName

/-! Values of evaluation: typed integers, booleans and tuples of values. -/

namespace ContractTrace

inductive Value
  | integer (v : Int) (ty : IntegerType)
  | bool (b : Bool)
  | tuple (items : List Value)
deriving BEq, Repr, Inhabited

namespace Value

/-- The result of a bare return. -/
def unit : Value := .tuple []

def integer? : Value → Option Int
  | .integer v _ => some v
  | _ => none

def bool? : Value → Option Bool
  | .bool b => some b
  | _ => none

/-- The integer of the given type, if it lies in the type's range. -/
def make? (v : Int) (ty : IntegerType) : Option Value :=
  if ty.contains v then some (.integer v ty) else none

/-- Whether a variable of the given type can hold the value. -/
def fits : Value → TypeName → Bool
  | .integer v own, .integer ty => decide (own = ty) && ty.contains v
  | .bool _, .bool => true
  | _, _ => false

mutual

/-- The value as it is shown. -/
def text : Value → String
  | .integer v _ => Decimal.ofInt v
  | .bool true => "true"
  | .bool false => "false"
  | .tuple items => "(" ++ ", ".intercalate (texts items) ++ ")"

def texts : List Value → List String
  | [] => []
  | v :: vs => v.text :: texts vs

end

mutual

/-- The name of the value's type. -/
def label : Value → String
  | .integer _ ty => ty.text
  | .bool _ => "bool"
  | .tuple items => "tuple(" ++ ",".intercalate (labels items) ++ ")"

def labels : List Value → List String
  | [] => []
  | v :: vs => v.label :: labels vs

end

mutual

/-- Every integer in the value has a valid type and lies in its range. -/
def InRange : Value → Prop
  | .integer v ty => ty.Valid ∧ ty.contains v = true
  | .bool _ => True
  | .tuple items => AllInRange items

def AllInRange : List Value → Prop
  | [] => True
  | v :: vs => v.InRange ∧ AllInRange vs

end

end Value

end ContractTrace
