import ContractTrace.Json
import ContractTrace.Power
import ContractTrace.Text.Decimal

/-! JSON numbers. A plain integer of 64 bits, signed or unsigned, is kept exactly; every
other number is a real and is kept by its literal, unless it exceeds all doubles. -/

namespace ContractTrace.Json

/-- The parts of a number literal. -/
structure NumberLiteral where
  negative : Bool
  whole : List Char
  fraction : Option (List Char)
  exponent : Option Int

/-- An exponent: a sign at most, then digits. -/
def exponent? : List Char → Option Int
  | '-' :: cs => (Decimal.digits? cs).map fun n => -(n : Int)
  | '+' :: cs => (Decimal.digits? cs).map fun n => (n : Int)
  | cs => (Decimal.digits? cs).map fun n => (n : Int)

/-- What may follow the whole part. -/
def tail? (cs : List Char) : Option (Option (List Char) × Option Int) :=
  match cs with
  | [] => some (none, none)
  | '.' :: rest =>
    let fraction := rest.takeWhile Char.isDigit
    if fraction.isEmpty then none
    else
      match rest.dropWhile Char.isDigit with
      | [] => some (some fraction, none)
      | mark :: e =>
        if mark == 'e' || mark == 'E' then (exponent? e).map fun x => (some fraction, some x)
        else none
  | mark :: e =>
    if mark == 'e' || mark == 'E' then (exponent? e).map fun x => (none, some x) else none

/-- A literal after its sign: no digit follows a leading zero. -/
def magnitude? (negative : Bool) (cs : List Char) : Option NumberLiteral :=
  let whole := cs.takeWhile Char.isDigit
  match whole with
  | [] => none
  | '0' :: _ :: _ => none
  | _ =>
    (tail? (cs.dropWhile Char.isDigit)).map fun (fraction, exponent) =>
      ⟨negative, whole, fraction, exponent⟩

def numberLiteral? : List Char → Option NumberLiteral
  | '-' :: cs => magnitude? true cs
  | cs => magnitude? false cs

/-- Whether rounding `digits * 10 ^ exponent` to a double overflows. The bound lies half a
unit above the greatest double and has 309 digits, so the number of digits decides all
other cases. -/
def exceedsDoubles (digits : List Char) (exponent : Int) : Bool :=
  let significant := digits.dropWhile (· == '0')
  let places := (significant.length : Int) + exponent
  if significant.isEmpty || places < 309 then false
  else if 309 < places then true
  else
    let m := Nat.ofDigitChars 10 significant 0
    let bound := twoPow 1024 - twoPow 970
    if 0 ≤ exponent then bound ≤ m * Nat.pow 10 exponent.toNat
    else bound * Nat.pow 10 (-exponent).toNat ≤ m

/-- Integers that JSON numbers are read to. -/
def isShort (n : Int) : Bool := -twoPow 63 ≤ n && n < twoPow 64

/-- The tree of a literal. Negative zero is a real. -/
def ofLiteral (text : List Char) (literal : NumberLiteral) : Json :=
  let magnitude := Nat.ofDigitChars 10 literal.whole 0
  let n : Int := if literal.negative then -magnitude else magnitude
  if literal.fraction.isNone && literal.exponent.isNone && isShort n &&
      !(literal.negative && magnitude == 0) then .integer n
  else
    let fraction := literal.fraction.getD []
    if exceedsDoubles (literal.whole ++ fraction) (literal.exponent.getD 0 - fraction.length) then
      .invalid
    else .real (String.ofList text)

end ContractTrace.Json
