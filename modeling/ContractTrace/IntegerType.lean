import ContractTrace.Carrier
import ContractTrace.Text.Decimal

/-! Fixed-width integer types such as `uint256` and `int8`. The range of a type is cut to
the carrier: the types whose whole range the carrier holds are the representable ones. -/

namespace ContractTrace

structure IntegerType where
  signed : Bool
  bits : Nat
deriving DecidableEq, Repr, Inhabited

namespace IntegerType

/-- The widths that a program can name. -/
def Valid (ty : IntegerType) : Prop := 8 ≤ ty.bits ∧ ty.bits ≤ 256 ∧ ty.bits % 8 = 0

instance (ty : IntegerType) : Decidable ty.Valid := by unfold Valid; infer_instance

/-- Whether the carrier holds the whole range of the type. -/
def representable (ty : IntegerType) : Bool :=
  if ty.signed then ty.bits ≤ 128 else ty.bits ≤ 120

/-- The least value of the type, cut to the carrier. -/
def min (ty : IntegerType) : Int :=
  if ty.signed then
    if 128 ≤ ty.bits then Carrier.least else -twoPow (ty.bits - 1)
  else 0

/-- The greatest value of the type, cut to the carrier. -/
def max (ty : IntegerType) : Int :=
  if ty.signed then
    if 128 ≤ ty.bits then Carrier.greatest else twoPow (ty.bits - 1) - 1
  else
    if 127 ≤ ty.bits then Carrier.greatest else twoPow ty.bits - 1

def contains (ty : IntegerType) (v : Int) : Bool := ty.min ≤ v && v ≤ ty.max

/-- The canonical spelling. -/
def text (ty : IntegerType) : String :=
  (if ty.signed then "int" else "uint") ++ Decimal.ofNat ty.bits

/-- Why a text names no integer type. -/
inductive ParseError
  | notIntegerType (text : String)
  | invalidWidth (bits : Nat)
deriving DecidableEq, Repr

def ParseError.message : ParseError → String
  | .notIntegerType text => "not an integer type: " ++ text
  | .invalidWidth bits => "invalid integer width " ++ Decimal.ofNat bits

/-- The type of the given width, if there is one. -/
def make (signed : Bool) (bits : Nat) : Except ParseError IntegerType :=
  if bits = 0 ∨ 256 < bits ∨ bits % 8 ≠ 0 then .error (.invalidWidth bits)
  else .ok ⟨signed, bits⟩

/-- The signedness and the width part of a spelling. -/
def split? : List Char → Option (Bool × List Char)
  | 'u' :: 'i' :: 'n' :: 't' :: width => some (false, width)
  | 'i' :: 'n' :: 't' :: width => some (true, width)
  | _ => none

/-- A width in a spelling: none means 256, and it has sixteen bits at most. -/
def width? (cs : List Char) : Option Nat :=
  if cs.isEmpty then some 256
  else (Decimal.unsigned? cs).bind fun n => if n < twoPow 16 then some n else none

def parse (text : String) : Except ParseError IntegerType :=
  match split? text.toList with
  | none => .error (.notIntegerType text)
  | some (signed, width) =>
    match width? width with
    | none => .error (.notIntegerType text)
    | some bits => make signed bits

def uint256 : IntegerType := ⟨false, 256⟩

end IntegerType

end ContractTrace
