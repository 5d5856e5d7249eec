import ContractTrace.Session
import ContractTrace.Proofs.Simulation

/-! A second account of a run, without call stack, scope, coverage and buffered events. The
body of a called function is a flat list, every nested block spliced in its place, and is
walked from left to right: an emit appends an event, a return ends the walk, and any other
statement fails. One generator goes through all transactions. -/

namespace ContractTrace.Flat

open ContractTrace.Task (Raises)

/-! ### Flat bodies -/

mutual

/-- A statement, with the statements of every block in place of the block. -/
def splice : Statement → List Statement
  | .block _ statements => spliceAll statements
  | s => [s]

def spliceAll : List Statement → List Statement
  | [] => []
  | s :: ss => splice s ++ spliceAll ss

end

/-! ### The walk -/

/-- What the statements of a call see. -/
structure Context where
  policy : ErrorPolicy
  contract : Contract
  locals : Environment
  storage : Environment

/-- The generator, and the events of the call so far. -/
structure Progress where
  generator : Generator
  events : List Event

/-- The event with the given arguments in the slots from 0 on. -/
def event (name : String) (values : List Value) : Event :=
  ⟨name, values.zipIdx.map fun (v, slot) => (slot, v)⟩

namespace Context

/-- The value of an expression, locals over storage. -/
def value (c : Context) (e : Expression) : Task Progress RunError Value := fun p =>
  match evaluate c.policy (.layered c.locals c.storage) e ⟨p.generator, #[]⟩ with
  | (result, state) => (result.mapError .evaluation, { p with generator := state.generator })

/-- The values of expressions, from left to right. -/
def values (c : Context) : List Expression → Task Progress RunError (List Value)
  | [] => pure []
  | e :: es => do
    let v ← c.value e
    let vs ← c.values es
    return v :: vs

/-- The number of arguments is that of the declared event, if there is one. -/
def checkArity (c : Context) (name : String) (found : Nat) : Task Progress RunError Unit :=
  match c.contract.event? name with
  | none => pure ()
  | some declared =>
    if declared.parameters.length = found then pure ()
    else Task.fail (.eventArityMismatch name declared.parameters.length found)

/-- Appends the event of an emit statement. -/
def emit (c : Context) (id : NodeId) (call : Call) : Task Progress RunError Unit := do
  let name ← Task.require (.invalidEmitTarget id) call.callee.calleeName?
  c.checkArity name call.arguments.length
  let values ← c.values call.arguments
  Task.modify fun p => { p with events := p.events ++ [event name values] }

def returned (c : Context) : Option Expression → Task Progress RunError Value
  | some e => c.value e
  | none => pure .unit

/-- Walks a flat body. A return evaluates its expression, if it has one, and nothing behind it
is reached. -/
def walk (c : Context) : List Statement → Task Progress RunError (Option Value)
  | [] => pure none
  | .emit id call :: rest => do
    c.emit id call
    c.walk rest
  | .ret _ expression :: _ => do return some (← c.returned expression)
  | s :: _ => Task.fail (.unsupportedNode (.statement s.kind) s.id)

/-- What follows a walk: nothing, if it ended with a return. -/
def andThen (next : Task Progress RunError (Option Value)) :
    Option Value → Task Progress RunError (Option Value)
  | some v => pure (some v)
  | none => next

theorem walk_append (c : Context) (ss ts : List Statement) :
    c.walk (ss ++ ts) = c.walk ss >>= andThen (c.walk ts) := by
  induction ss with
  | nil => rfl
  | cons s ss ih =>
    cases s with
    | emit id call =>
      simp only [List.cons_append, walk, ih]
      rw [Task.bind_bind]
    | ret id expression =>
      simp only [List.cons_append, walk]
      rw [Task.bind_bind]
      rfl
    | _ => rfl

/-! ### Failures of a walk -/

/-- The failures that statements have in a context. -/
inductive Fails (c : Context) : RunError → Prop
  | unsupported (kind : NodeKind) (id : NodeId) : c.Fails (.unsupportedNode kind id)
  | target (id : NodeId) : c.Fails (.invalidEmitTarget id)
  | arity (name : String) (expected found : Nat) : c.Fails (.eventArityMismatch name expected found)
  | evaluation {e : Expression} {state : EvaluationState} {error : EvaluationError}
      (h : (evaluate c.policy (.layered c.locals c.storage) e state).1 = .error error) :
      c.Fails (.evaluation error)

variable (c : Context)

theorem value_fails (e : Expression) : Raises c.Fails (c.value e) := by
  intro p fault h
  simp only [value] at h
  cases hv : (evaluate c.policy (.layered c.locals c.storage) e ⟨p.generator, #[]⟩).1 with
  | error error =>
    rw [hv] at h
    cases h
    exact .evaluation hv
  | ok v =>
    rw [hv] at h
    cases h

theorem values_fails (es : List Expression) : Raises c.Fails (c.values es) := by
  induction es with
  | nil => exact .pure []
  | cons e es ih => exact (c.value_fails e).bind fun v => ih.bind fun vs => .pure (v :: vs)

theorem checkArity_fails (name : String) (found : Nat) :
    Raises c.Fails (c.checkArity name found) := by
  rw [checkArity]
  split
  · exact .pure ()
  · split
    · exact .pure ()
    · exact .fail (.arity _ _ _)

theorem emit_fails (id : NodeId) (call : Call) : Raises c.Fails (c.emit id call) :=
  (Raises.require (.target id) _).bind fun name => (c.checkArity_fails name _).bind fun _ =>
    (c.values_fails call.arguments).bind fun _ => .modify _

theorem returned_fails (expression : Option Expression) :
    Raises c.Fails (c.returned expression) := by
  cases expression with
  | none => exact .pure Value.unit
  | some e => exact c.value_fails e

theorem walk_fails (ss : List Statement) : Raises c.Fails (c.walk ss) := by
  induction ss with
  | nil => exact .pure none
  | cons s ss ih =>
    cases s with
    | emit id call => exact (c.emit_fails id call).bind fun _ => ih
    | ret id expression => exact (c.returned_fails expression).bind fun v => .pure (some v)
    | _ => exact .fail (.unsupported _ _)

/-! ### Calls -/

/-- The events of a call. -/
def call (c : Context) (body : List Statement) : Task Generator RunError (List Event) :=
  fun g =>
    match c.walk (spliceAll body) ⟨g, []⟩ with
    | (result, p) => (result.map fun _ => p.events, p.generator)

end Context

/-! ### Transactions -/

/-- Why a function does not take the given arguments. -/
def fault? (function : Function) (arguments : List Value) : Option ArgumentFault :=
  if function.parameters.length ≠ arguments.length then
    some (.count function.parameters.length arguments.length)
  else
    ((function.parameters.zip arguments).find? fun (p, v) => !v.fits p.typeName).map
      fun (p, v) => .misfit v.text v.label p.typeName.text p.name

/-- Parameters bound to arguments. -/
def locals (parameters : List Parameter) (arguments : List Value) : Environment :=
  (parameters.zip arguments).foldl (fun env (p, v) => env.add ⟨p.asVariable, 1, [v]⟩) .locals

/-- Storage with the declared initial values. -/
def seed (declared : List StorageVariable) : Except RunError Environment :=
  declared.foldlM (fun env v => return env.add (← Session.initialBinding v).2) .storage

/-- The events of a transaction against a contract and its storage. -/
def transaction (policy : ErrorPolicy) (contract : Contract) (storage : Environment)
    (t : Transaction) : Task Generator RunError (List Event) := do
  let function ← Task.require (.unknownFunction contract.name t.function)
    (contract.function? t.function)
  match fault? function t.arguments with
  | some fault => Task.fail (.argumentMismatch function.name fault)
  | none =>
    let context : Context := ⟨policy, contract, locals function.parameters t.arguments, storage⟩
    context.call function.body.statements

/-- The events of each of several transactions. -/
def transactions (policy : ErrorPolicy) (contract : Contract) (storage : Environment) :
    List Transaction → Task Generator RunError (List (List Event))
  | [] => pure []
  | t :: ts => do
    let events ← transaction policy contract storage t
    let rest ← transactions policy contract storage ts
    return events :: rest

/-- The events of each transaction of a run against the contract of the given name, or the
first failure. -/
def run (source : SourceUnit) (policy : ErrorPolicy) (name : String) (ts : List Transaction) :
    Task Generator RunError (List (List Event)) := do
  let contract ← Task.require (.unknownContract name) (source.contract? name)
  match seed contract.storage with
  | .error e => Task.fail e
  | .ok storage => transactions policy contract storage ts

end ContractTrace.Flat
