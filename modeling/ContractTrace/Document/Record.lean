import ContractTrace.IntegerType
import ContractTrace.Json.Reader

/-! Reading records from JSON. A record is an object whose members may come in any order and
may have strangers among them, or an array of its fields in the order of declaration. Of
several faults, the one that stands first in the document is reported, so the readers of
single fields say at which member they met theirs. -/

namespace ContractTrace

/-- Why a document is rejected: its form is wrong, or an integer in it is. -/
inductive ReadError
  | malformed
  | integerType (cause : IntegerType.ParseError)
  | integerLiteral (text : String)
  | outOfRange (v : Int) (ty : IntegerType)
deriving DecidableEq, Repr

/-- The text of the faults that have one. -/
def ReadError.message? : ReadError → Option String
  | .malformed => none
  | .integerType cause => some cause.message
  | .integerLiteral text => some ("invalid integer literal: " ++ text)
  | .outOfRange v ty =>
    some ("value " ++ Decimal.ofInt v ++ " out of range for " ++ ty.text)

namespace Document

abbrev Reader (α : Type) := Json → Except ReadError α

/-! ### Single values -/

def string : Reader String
  | .string s => .ok s
  | _ => .error .malformed

def bool : Reader Bool
  | .bool b => .ok b
  | _ => .error .malformed

/-- A natural number below `bound`. -/
def natural (bound : Nat) : Reader Nat
  | .integer n => if 0 ≤ n ∧ n < bound then .ok n.toNat else .error .malformed
  | _ => .error .malformed

/-- A value or null. -/
def optional (reader : Reader α) : Reader (Option α)
  | .null => .ok none
  | j => (reader j).map some

def list (reader : Reader α) : Reader (List α)
  | .array items => items.mapM reader
  | _ => .error .malformed

/-- One of several names. It may also be the key of an object around null, which a reader
of complete trees takes for the empty object too. -/
def choice (complete : Bool) (options : List (String × α)) (j : Json) : Except ReadError α :=
  let name? :=
    match j with
    | .string s => some s
    | .object [(s, .null)] => some s
    | .object [(s, .object [])] => if complete then some s else none
    | _ => none
  match name?.bind fun s => options.lookup s with
  | some a => .ok a
  | none => .error .malformed

/-! ### Fields -/

abbrev Members := List (String × Json)

/-- A fault and the number of the member at which it is met. -/
structure Misread where
  place : Nat
  error : ReadError
deriving DecidableEq, Repr

/-- A reader of some fields of a record. -/
structure Fields (α : Type) where
  names : List String
  read : Members → Except Misread α

/-- The values under a key and their places. -/
def occurrences (key : String) (members : Members) : List (Nat × Json) :=
  members.zipIdx.filterMap fun ((k, j), place) => if k = key then some (place, j) else none

/-- A field that must not occur twice. A missing one is met at the end of the record. -/
def fieldOr (name : String) (reader : Reader α) (missing : Option α) : Fields α where
  names := [name]
  read members :=
    match occurrences name members with
    | [] =>
      match missing with
      | some a => .ok a
      | none => .error ⟨members.length, .malformed⟩
    | (place, j) :: more =>
      match reader j with
      | .error e => .error ⟨place, e⟩
      | .ok a =>
        match more with
        | [] => .ok a
        | (again, _) :: _ => .error ⟨again, .malformed⟩

def field (name : String) (reader : Reader α) : Fields α := fieldOr name reader none

/-- A list that may be left out. -/
def listField (name : String) (reader : Reader α) : Fields (List α) :=
  fieldOr name (list reader) (some [])

/-- A value that may be null or left out. -/
def optionField (name : String) (reader : Reader α) : Fields (Option α) :=
  fieldOr name (optional reader) (some none)

/-- Of two faults, the one that is met first. -/
def Misread.first (a b : Misread) : Misread := if b.place < a.place then b else a

/-- Both results, or the fault that is met first. -/
def both (x : Except Misread (α → β)) (y : Except Misread α) : Except Misread β :=
  match x, y with
  | .ok f, .ok a => .ok (f a)
  | .error e, .ok _ => .error e
  | .ok _, .error e => .error e
  | .error e, .error e' => .error (e.first e')

instance : Functor Fields where
  map f fields := { names := fields.names, read := fun members => (fields.read members).map f }

instance : Seq Fields where
  seq f x :=
    { names := f.names ++ (x ()).names
      read := fun members => both (f.read members) ((x ()).read members) }

/-- The first member that is no field and in which the text stops. -/
def strangerFault (names : List String) (members : Members) : Except Misread Unit :=
  match members.zipIdx.find? fun ((k, j), _) => !names.contains k && !j.isUncut with
  | some (_, place) => .error ⟨place, .malformed⟩
  | none => .ok ()

def Fields.ofMembers (fields : Fields α) (members : Members) : Except ReadError α :=
  match both ((strangerFault fields.names members).map fun _ => id) (fields.read members) with
  | .ok a => .ok a
  | .error e => .error e.error

/-- An array gives the fields in order; those with a default may be missing at its end. -/
def Fields.ofItems (fields : Fields α) (items : List Json) : Except ReadError α :=
  match fields.ofMembers (fields.names.zip items) with
  | .ok a => if items.length ≤ fields.names.length then .ok a else .error .malformed
  | .error e => .error e

def record (fields : Fields α) : Reader α
  | .object members => fields.ofMembers members
  | .array items => fields.ofItems items
  | _ => .error .malformed

/-! ### Tagged nodes -/

def tagName : String := "nodeType"

/-- The kind that a tag names, or counts where ordinals are taken. -/
def kindOf (ordinals : Bool) (kinds : List (String × κ)) (tag : Json) : Except ReadError κ :=
  let kind? :=
    match tag with
    | .string s => kinds.lookup s
    | .integer n => if ordinals && 0 ≤ n then (kinds[n.toNat]?).map (·.2) else none
    | _ => none
  match kind? with
  | some kind => .ok kind
  | none => .error .malformed

/-- A node is a record with a tag that says which fields it has: a member anywhere in an
object, the first item of an array. -/
def node (ordinals : Bool) (kinds : List (String × κ)) (fields : κ → Fields α) : Reader α
  | .object members =>
    match occurrences tagName members with
    | [(_, tag)] => do
      let kind ← kindOf ordinals kinds tag
      (fields kind).ofMembers (members.filter (·.1 ≠ tagName))
    | _ => .error .malformed
  | .array (tag :: items) => do
    let kind ← kindOf ordinals kinds tag
    (fields kind).ofItems items
  | _ => .error .malformed

/-! ### Texts -/

/-- Reads a whole text; only white space may follow the document. -/
def ofText (reader : Reader α) (text : String) : Except ReadError α := do
  let document := Json.parse text
  let a ← reader document.root
  if document.trailing then .error .malformed else .ok a

end Document

end ContractTrace
