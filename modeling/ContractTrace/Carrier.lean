import ContractTrace.Power

/-! The integers that evaluation computes with: 128-bit two's complement. An operation
whose exact result the carrier does not hold has no result. -/

namespace ContractTrace.Carrier

def least : Int := -twoPow 127

def greatest : Int := twoPow 127 - 1

/-- `v`, if the carrier holds it. -/
def hold (v : Int) : Option Int :=
  if least ≤ v ∧ v ≤ greatest then some v else none

def add (a b : Int) : Option Int := hold (a + b)

def sub (a b : Int) : Option Int := hold (a - b)

def mul (a b : Int) : Option Int := hold (a * b)

def neg (a : Int) : Option Int := hold (-a)

/-- The quotient, rounded toward zero; the divisor is not zero. -/
def quotient (a b : Int) : Option Int := hold (a.tdiv b)

/-- The remainder belonging to `quotient`. It is formed together with the quotient, so it
is lost when the carrier does not hold the quotient. -/
def remainder (a b : Int) : Option Int := (quotient a b).map fun _ => a.tmod b

/-- The power. Bases of magnitude at most one have all powers; any other base leaves the
carrier beyond the exponent 127. -/
def power (a b : Int) : Option Int :=
  if b = 0 then some 1
  else if a = 0 ∨ a = 1 then some a
  else if a = -1 then some (if b % 2 = 0 then 1 else -1)
  else if 0 ≤ b ∧ b ≤ 127 then hold (Int.pow a b.toNat)
  else none

/-- The two's complement pattern of `v`. -/
def bits (v : Int) : BitVec 128 := BitVec.ofInt 128 v

def bitAnd (a b : Int) : Int := (bits a &&& bits b).toInt

def bitOr (a b : Int) : Int := (bits a ||| bits b).toInt

def bitXor (a b : Int) : Int := (bits a ^^^ bits b).toInt

/-- Every bit inverted. -/
def complement (a : Int) : Int := -a - 1

end ContractTrace.Carrier
