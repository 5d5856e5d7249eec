/-! Decimal text. Numbers are written with the fewest digits and a minus sign where they
need one. They are read from one or more ASCII digits with any number of leading zeros;
a sign may stand in front where the reader allows it. -/

namespace ContractTrace.Decimal

/-- The number that a nonempty run of ASCII digits stands for. -/
def digits? (cs : List Char) : Option Nat :=
  if cs.isEmpty then none
  else if cs.all Char.isDigit then some (Nat.ofDigitChars 10 cs 0)
  else none

/-- Digits after at most one plus sign. -/
def unsigned? : List Char → Option Nat
  | '+' :: cs => digits? cs
  | cs => digits? cs

/-- Digits after at most one sign. -/
def signed? : List Char → Option Int
  | '-' :: cs => (digits? cs).map fun n => -(n : Int)
  | '+' :: cs => (digits? cs).map fun n => (n : Int)
  | cs => (digits? cs).map fun n => (n : Int)

def natChars (n : Nat) : List Char := Nat.toDigits 10 n

def intChars : Int → List Char
  | .ofNat n => natChars n
  | .negSucc n => '-' :: natChars (n + 1)

def ofNat (n : Nat) : String := String.ofList (natChars n)

def ofInt (v : Int) : String := String.ofList (intChars v)

end ContractTrace.Decimal
