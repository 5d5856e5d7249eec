import ContractTrace.Program

/-! Variables and their values. An environment binds declarations to value histories; one
holds contract storage, and every call has one for its parameters. A view is what an
expression can see: one environment, or a call's variables over storage. -/

namespace ContractTrace

structure Variable where
  declaration : NodeId
  name : String
  typeName : TypeName
deriving DecidableEq, Repr

/-- A variable, the depth of the scope that it belongs to, and its values, oldest first. -/
structure Binding where
  subject : Variable
  depth : Nat
  values : List Value
deriving Repr

namespace Binding

def id (b : Binding) : NodeId := b.subject.declaration

def name (b : Binding) : String := b.subject.name

def current? (b : Binding) : Option Value := b.values.getLast?

end Binding

def StorageVariable.asVariable (v : StorageVariable) : Variable := ⟨v.id, v.name, v.typeName⟩

def Parameter.asVariable (p : Parameter) : Variable := ⟨p.id, p.name, p.typeName⟩

/-- Bindings by ascending declaration id, and the declaration last added under each name. -/
structure Environment where
  isStorage : Bool
  bindings : List Binding
  names : List (String × NodeId)
deriving Repr

namespace Environment

def storage : Environment := ⟨true, [], []⟩

def locals : Environment := ⟨false, [], []⟩

/-- The binding of a declaration. -/
def get? (env : Environment) (id : NodeId) : Option Binding := env.bindings.find? (·.id = id)

/-- The binding of the declaration last added under a name. -/
def named? (env : Environment) (name : String) : Option Binding :=
  (env.names.lookup name).bind env.get?

/-- Finds a variable by its declaration, or by name where no declaration is known. -/
def lookup (env : Environment) (name : String) : Option NodeId → Option Binding
  | some id => env.get? id
  | none => env.named? name

/-- Puts a binding in its place, in place of the one with the same id. -/
def insert (b : Binding) : List Binding → List Binding
  | [] => [b]
  | c :: cs =>
    if b.id < c.id then b :: c :: cs
    else if b.id = c.id then b :: cs
    else c :: insert b cs

def add (env : Environment) (b : Binding) : Environment :=
  { env with
    bindings := insert b env.bindings
    names := (b.name, b.id) :: env.names.filter (·.1 ≠ b.name) }

/-- Adds a value to the history of a declaration, and says whether there is one. -/
def assign (env : Environment) (id : NodeId) (value : Value) : Bool × Environment :=
  if env.bindings.any (·.id = id) then
    (true, { env with
      bindings := env.bindings.map fun b =>
        if b.id = id then { b with values := b.values ++ [value] } else b })
  else (false, env)

def text (env : Environment) : String :=
  let label := if env.isStorage then "Storage: " else "Locals: "
  if env.bindings.isEmpty then label ++ "\x7b\x7d"
  else
    let line (b : Binding) :=
      "  " ++ b.name ++ ": " ++ (b.current?.map Value.text).getD "<uninitialized>" ++ "\n"
    label ++ "\x7b\n" ++ String.join (env.bindings.map line) ++ "\x7d"

end Environment

inductive View
  | single (env : Environment)
  | layered (locals storage : Environment)

/-- Finds a variable; the locals hide storage. -/
def View.lookup (name : String) (declaration : Option NodeId) : View → Option Binding
  | .single env => env.lookup name declaration
  | .layered locals storage =>
    match locals.lookup name declaration with
    | some b => some b
    | none => storage.lookup name declaration

end ContractTrace
