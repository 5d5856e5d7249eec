import ContractTrace.Json.Number

/-! The tokens of JSON text. Reading goes character by character through five modes; the
first character that no token can have ends the tokens with `broken`. -/

namespace ContractTrace.Json

inductive Token
  | arrayOpen
  | arrayClose
  | objectOpen
  | objectClose
  | comma
  | colon
  | scalar (j : Json)
  | broken
deriving BEq, Repr, Inhabited

/-- A piece of a string: a character, or the code unit of a numeric escape. -/
inductive Piece
  | char (c : Char)
  | unit (code : Nat)
deriving BEq, Repr

def isHighSurrogate (code : Nat) : Bool := 0xD800 ≤ code && code < 0xDC00

def isLowSurrogate (code : Nat) : Bool := 0xDC00 ≤ code && code < 0xE000

/-- The text of a string. A high surrogate needs a low one right behind it. -/
def assemble : List Piece → Option (List Char)
  | [] => some []
  | .char c :: rest => (assemble rest).map (c :: ·)
  | .unit high :: .unit low :: rest =>
    if isHighSurrogate high then
      if isLowSurrogate low then
        (assemble rest).map
          (Char.ofNat (0x10000 + (high - 0xD800) * 0x400 + (low - 0xDC00)) :: ·)
      else none
    else if isLowSurrogate high then none
    else (assemble (.unit low :: rest)).map (Char.ofNat high :: ·)
  | .unit code :: rest =>
    if isHighSurrogate code || isLowSurrogate code then none
    else (assemble rest).map (Char.ofNat code :: ·)

/-- What the reader is in the middle of. Strings and words are kept last part first. -/
inductive Mode
  | between
  | word (cs : List Char)
  | text (pieces : List Piece)
  | escape (pieces : List Piece)
  | code (pieces : List Piece) (digits : Nat) (value : Nat)

/-- JSON's white space. -/
def isSpace (c : Char) : Bool := c == ' ' || c == '\t' || c == '\n' || c == '\r'

def startsWord (c : Char) : Bool := c == '-' || c.isDigit || c.isLower

/-- Characters of numbers, `true`, `false` and `null`. -/
def isWordChar (c : Char) : Bool := c.isAlphanum || c == '+' || c == '-' || c == '.'

/-- The token of a complete word. -/
def wordToken (cs : List Char) : Token :=
  if cs = ['n', 'u', 'l', 'l'] then .scalar .null
  else if cs = ['t', 'r', 'u', 'e'] then .scalar (.bool true)
  else if cs = ['f', 'a', 'l', 's', 'e'] then .scalar (.bool false)
  else
    match numberLiteral? cs with
    | some literal => .scalar (ofLiteral cs literal)
    | none => .broken

def textToken (pieces : List Piece) : Token :=
  match assemble pieces.reverse with
  | some cs => .scalar (.string (String.ofList cs))
  | none => .scalar .invalid

/-- The character that a backslash and a letter stand for. -/
def escaped? : Char → Option Char
  | '"' => some '"'
  | '\\' => some '\\'
  | '/' => some '/'
  | 'b' => some '\x08'
  | 'f' => some '\x0c'
  | 'n' => some '\n'
  | 'r' => some '\r'
  | 't' => some '\t'
  | _ => none

def hexDigit? (c : Char) : Option Nat :=
  if c.isDigit then some (c.toNat - 48)
  else if 'a' ≤ c ∧ c ≤ 'f' then some (c.toNat - 87)
  else if 'A' ≤ c ∧ c ≤ 'F' then some (c.toNat - 55)
  else none

/-- The token of a character that stands for itself. -/
def mark? : Char → Option Token
  | '[' => some .arrayOpen
  | ']' => some .arrayClose
  | '\x7b' => some .objectOpen
  | '\x7d' => some .objectClose
  | ',' => some .comma
  | ':' => some .colon
  | _ => none

/-- Between tokens: the token that `c` is, if any, and the mode behind it. Nothing is read
behind a broken token. -/
def start (c : Char) : List Token × Option Mode :=
  if isSpace c then ([], some .between)
  else
    match mark? c with
    | some token => ([token], some .between)
    | none =>
      if c == '"' then ([], some (.text []))
      else if startsWord c then ([], some (.word [c]))
      else ([.broken], none)

def tokensFrom : Mode → List Char → List Token
  | .between, [] => []
  | .word w, [] => [wordToken w.reverse]
  | _, [] => [.broken]
  | .between, c :: cs =>
    match start c with
    | (tokens, some mode) => tokens ++ tokensFrom mode cs
    | (tokens, none) => tokens
  | .word w, c :: cs =>
    if isWordChar c then tokensFrom (.word (c :: w)) cs
    else
      match start c with
      | (tokens, some mode) => wordToken w.reverse :: (tokens ++ tokensFrom mode cs)
      | (tokens, none) => wordToken w.reverse :: tokens
  | .text pieces, c :: cs =>
    if c == '"' then textToken pieces :: tokensFrom .between cs
    else if c == '\\' then tokensFrom (.escape pieces) cs
    else if c.toNat < 0x20 then [.broken]
    else tokensFrom (.text (.char c :: pieces)) cs
  | .escape pieces, c :: cs =>
    if c == 'u' then tokensFrom (.code pieces 0 0) cs
    else
      match escaped? c with
      | some e => tokensFrom (.text (.char e :: pieces)) cs
      | none => [.broken]
  | .code pieces digits value, c :: cs =>
    match hexDigit? c with
    | none => [.broken]
    | some d =>
      if digits = 3 then tokensFrom (.text (.unit (value * 16 + d) :: pieces)) cs
      else tokensFrom (.code pieces (digits + 1) (value * 16 + d)) cs

/-- The tokens of a text. -/
def tokens (cs : List Char) : List Token := tokensFrom .between cs

end ContractTrace.Json
