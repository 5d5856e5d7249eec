import ContractTrace.Document.Record
import ContractTrace.Value

/-! Values in documents. An integer is a number where 64 bits hold it with its sign, and
decimal text otherwise; both forms are read for any integer. -/

namespace ContractTrace

namespace Document

def integerType : Reader IntegerType
  | .string s =>
    match IntegerType.parse s with
    | .ok ty => .ok ty
    | .error cause => .error (.integerType cause)
  | _ => .error .malformed

def typeName (j : Json) : Except ReadError TypeName := (string j).map TypeName.ofText

/-- The integer of a text, if the carrier holds it. -/
def literal? (text : String) : Option Int :=
  (Decimal.signed? text.toList).bind Carrier.hold

def integerLiteral : Reader Int
  | .integer n => if Json.isShort n then .ok n else .error .malformed
  | .string s =>
    match literal? s with
    | some v => .ok v
    | none => .error (.integerLiteral s)
  | _ => .error .malformed

def integerFields : Fields (Int × IntegerType) :=
  Prod.mk <$> field "value" integerLiteral <*> field "type" integerType

/-- An integer with its type; its range is checked behind the whole record. -/
def integer (j : Json) : Except ReadError Value := do
  let (v, ty) ← record integerFields j
  match Value.make? v ty with
  | some value => .ok value
  | none => .error (.outOfRange v ty)

mutual

/-- A value: an object with one member, named for the kind. A reader of complete trees
counts the members first, a reader of running text last. -/
def value (complete : Bool) : Json → Except ReadError Value
  | .object ((kind, j) :: more) => do
    if complete && !more.isEmpty then .error .malformed
    let v ← content complete kind j
    if more.isEmpty then .ok v else .error .malformed
  | _ => .error .malformed

/-- What stands under the kind of a value. -/
def content (complete : Bool) (kind : String) : Json → Except ReadError Value
  | .array items =>
    if kind = "tuple" then (values complete items).map Value.tuple
    else if kind = "integer" then integer (.array items)
    else .error .malformed
  | .bool b => if kind = "bool" then .ok (.bool b) else .error .malformed
  | j => if kind = "integer" then integer j else .error .malformed

def values (complete : Bool) : List Json → Except ReadError (List Value)
  | [] => .ok []
  | j :: js => do
    let v ← value complete j
    let vs ← values complete js
    .ok (v :: vs)

end

end Document

namespace Value

/-- The integers that documents hold as numbers. -/
def isNumber (v : Int) : Bool := -twoPow 63 ≤ v && v < twoPow 63

def literalJson (v : Int) : Json :=
  if isNumber v then .integer v else .string (Decimal.ofInt v)

mutual

def toJson : Value → Json
  | .integer v ty =>
    .object [("integer", .object [("value", literalJson v), ("type", .string ty.text)])]
  | .bool b => .object [("bool", .bool b)]
  | .tuple items => .object [("tuple", .array (toJsons items))]

def toJsons : List Value → List Json
  | [] => []
  | v :: vs => v.toJson :: toJsons vs

end

end Value

end ContractTrace
