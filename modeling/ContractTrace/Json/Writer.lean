import ContractTrace.Json.Token

/-! Writing JSON text: compact, as the bare tokens, or indented by two blanks a level with
one item to a line. -/

namespace ContractTrace.Json

def hexChar (d : Nat) : Char := Char.ofNat (if d < 10 then 48 + d else 87 + d)

/-- A character inside a string. Quote, backslash and the characters below the blank are
escaped, five of these by a letter; all others stand for themselves. -/
def escape (c : Char) : List Char :=
  if c = '"' then ['\\', '"']
  else if c = '\\' then ['\\', '\\']
  else if c = '\x08' then ['\\', 'b']
  else if c = '\x0c' then ['\\', 'f']
  else if c = '\n' then ['\\', 'n']
  else if c = '\r' then ['\\', 'r']
  else if c = '\t' then ['\\', 't']
  else if c.toNat < 0x20 then
    ['\\', 'u', '0', '0', hexChar (c.toNat / 16), hexChar (c.toNat % 16)]
  else [c]

def quote (s : String) : List Char := '"' :: (s.toList.flatMap escape ++ ['"'])

/-- The text of a scalar. -/
def scalarChars : Json → List Char
  | .null => ['n', 'u', 'l', 'l']
  | .bool true => ['t', 'r', 'u', 'e']
  | .bool false => ['f', 'a', 'l', 's', 'e']
  | .integer n => Decimal.intChars n
  | .real literal => literal.toList
  | .string s => quote s
  | _ => []

mutual

def compactChars : Json → List Char
  | .array items => '[' :: compactItems true items
  | .object members => '\x7b' :: compactMembers true members
  | j => scalarChars j

/-- The items of an array and its closing bracket. -/
def compactItems (first : Bool) : List Json → List Char
  | [] => [']']
  | j :: js => (if first then [] else [',']) ++ (compactChars j ++ compactItems false js)

/-- The members of an object and its closing brace. -/
def compactMembers (first : Bool) : List (String × Json) → List Char
  | [] => ['\x7d']
  | (key, j) :: ms =>
    (if first then [] else [',']) ++
      (quote key ++ (':' :: (compactChars j ++ compactMembers false ms)))

end

def compact (j : Json) : String := String.ofList (compactChars j)

/-- A line break and the indentation of a level. -/
def newLine (level : Nat) : List Char := '\n' :: List.replicate (2 * level) ' '

mutual

def prettyChars (level : Nat) : Json → List Char
  | .array [] => ['[', ']']
  | .array (j :: js) =>
    '[' :: (newLine (level + 1) ++ (prettyChars (level + 1) j ++ prettyItems level js))
  | .object [] => ['\x7b', '\x7d']
  | .object ((key, j) :: ms) =>
    '\x7b' :: (newLine (level + 1) ++ (quote key ++ (':' :: ' ' ::
      (prettyChars (level + 1) j ++ prettyMembers level ms))))
  | j => scalarChars j

/-- The further items of an array and its closing bracket. -/
def prettyItems (level : Nat) : List Json → List Char
  | [] => newLine level ++ [']']
  | j :: js =>
    ',' :: (newLine (level + 1) ++ (prettyChars (level + 1) j ++ prettyItems level js))

/-- The further members of an object and its closing brace. -/
def prettyMembers (level : Nat) : List (String × Json) → List Char
  | [] => newLine level ++ ['\x7d']
  | (key, j) :: ms =>
    ',' :: (newLine (level + 1) ++ (quote key ++ (':' :: ' ' ::
      (prettyChars (level + 1) j ++ prettyMembers level ms))))

end

def pretty (j : Json) : String := String.ofList (prettyChars 0 j)

end ContractTrace.Json
