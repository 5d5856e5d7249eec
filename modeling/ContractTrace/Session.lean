import ContractTrace.CallStack
import ContractTrace.Configuration
import ContractTrace.Evaluation
import ContractTrace.FileSystem
import ContractTrace.Trace

/-! A session interprets the transactions of a program. Storage is seeded from the declared
initial values, each transaction is a call that walks the function's body, and the emitted
events make the trace. A run gives the whole trace or, at the first failure, none. -/

namespace ContractTrace

structure Session where
  program : Program
  configuration : Configuration
  generator : Generator
  stack : CallStack
  storage : Environment
  /-- The contract whose variables storage holds. -/
  active : Option Contract
  coverage : Coverage
  trace : Trace
  failed : Bool
  log : Log

abbrev Action := Task Session RunError

namespace Session

def start (program : Program) (configuration : Configuration) : Session where
  program
  configuration
  generator := .ofSeed configuration.seed
  stack := .empty
  storage := .storage
  active := none
  coverage := .empty
  trace := .empty
  failed := false
  log := #[]

def note (level : LogLevel) (text : String) : Action Unit :=
  Task.modify fun s => { s with log := s.log.push ⟨level, text⟩ }

/-- The current call. -/
def frame (operation : String) : Action Frame := fun s => (s.stack.current operation, s)

/-! ### Storage and arguments -/

def contract (name : String) : Action Contract := do
  Task.require (.unknownContract name) (← Task.view (·.program.source.contract? name))

/-- The binding that a storage variable starts with. -/
def initialBinding (v : StorageVariable) : Except RunError (Value × Binding) :=
  match v.initial with
  | none => .error (.environmentInitialization v.name .missing)
  | some value =>
    if value.fits v.typeName then .ok (value, ⟨v.asVariable, 0, [value]⟩)
    else
      .error (.environmentInitialization v.name
        (.misfit value.text value.label v.typeName.text))

/-- Adds the bindings of storage variables, in the order of declaration. -/
def seedFrom (env : Environment) : List StorageVariable → Action Environment
  | [] => pure env
  | v :: vs =>
    match initialBinding v with
    | .error e => Task.fail e
    | .ok (value, b) => do
      note .trace ("storage " ++ v.name ++ " = " ++ value.text)
      seedFrom (env.add b) vs

/-- Seeds storage for a contract; it stays as it is where that fails. -/
def seedStorage (contract : Contract) : Action Unit := do
  let env ← seedFrom .storage contract.storage
  note .debug ("Initialized storage of " ++ contract.name ++ "\n" ++ env.text)
  Task.modify fun s => { s with storage := env, active := some contract }

/-- The first argument that does not fit its parameter. -/
def misfit? : List Parameter → List Value → Option ArgumentFault
  | p :: ps, v :: vs =>
    if v.fits p.typeName then misfit? ps vs
    else some (.misfit v.text v.label p.typeName.text p.name)
  | _, _ => none

def argumentFault? (function : Function) (arguments : List Value) : Option ArgumentFault :=
  if function.parameters.length ≠ arguments.length then
    some (.count function.parameters.length arguments.length)
  else misfit? function.parameters arguments

/-- Parameters bound to arguments at a scope depth. -/
def bindArguments (depth : Nat) (env : Environment) : List Parameter → List Value → Environment
  | p :: ps, v :: vs => bindArguments depth (env.add ⟨p.asVariable, depth, [v]⟩) ps vs
  | _, _ => env

/-! ### Statements -/

/-- The value of an expression in the current call, over storage. -/
def evaluateHere (expression : Expression) : Action Value := do
  let frame ← frame "evaluate"
  let policy ← Task.view (·.configuration.errorPolicy)
  let storage ← Task.view (·.storage)
  let values ← Task.mapError .evaluation
    (Task.zoom (fun s : Session => (⟨s.generator, s.log⟩ : EvaluationState))
      (fun e s => { s with generator := e.generator, log := e.log })
      (evaluateForAll policy expression [.layered frame.locals storage]))
  match firstValue values with
  | .ok v => pure v
  | .error e => Task.fail (.evaluation e)

/-- Gives an event its remaining arguments, the first of which has number `i`. -/
def emitArguments (event : Event) (i : Nat) : List Expression → Action Event
  | [] => pure event
  | e :: es => do
    note .debug ("  arg " ++ Decimal.ofNat i ++ " " ++ e.source)
    let v ← evaluateHere e
    emitArguments (event.push v) (i + 1) es

/-- Records the event of an emit statement. -/
def emit (id : NodeId) (call : Call) : Action Unit := do
  let name ← Task.require (.invalidEmitTarget id) call.callee.calleeName?
  let frame ← frame "current_contract"
  match frame.contract.event? name with
  | none => pure ()
  | some event =>
    if event.parameters.length ≠ call.arguments.length then
      Task.fail (.eventArityMismatch name event.parameters.length call.arguments.length)
  note .debug ("emit " ++ name)
  let event ← emitArguments (.named name) 0 call.arguments
  Task.modify fun s => { s with trace := s.trace.record event }

def mark (id : NodeId) : Action Unit :=
  Task.modify fun s => { s with coverage := (s.coverage.mark id).2 }

/-- Enters a node, interprets what it holds, and leaves it unless that fails. -/
def within (kind : NodeKind) (id : NodeId) (body : Action (Option Value)) :
    Action (Option Value) := do
  mark id
  let _ ← frame "do_interpret"
  Task.modify fun s => { s with stack := s.stack.mapScope (·.enter id) }
  note .trace ("enter " ++ kind.name ++ " " ++ NodeId.text id)
  let result ← body
  let _ ← frame "do_interpret"
  Task.modify fun s => { s with stack := s.stack.mapScope (·.leave id) }
  return result

def returned : Option Expression → Action Value
  | some e => evaluateHere e
  | none => pure .unit

mutual

/-- Interprets a statement. A return gives a value. -/
def interpretStatement : Statement → Action (Option Value)
  | .block id statements => within (.statement .block) id (interpretStatements statements)
  | .emit id call =>
    within (.statement .emitStatement) id do
      emit id call
      return none
  | .ret id expression =>
    within (.statement .return) id do return some (← returned expression)
  | s => within (.statement s.kind) s.id (Task.fail (.unsupportedNode (.statement s.kind) s.id))

/-- Interprets statements in order, up to the first that gives a value. -/
def interpretStatements : List Statement → Action (Option Value)
  | [] => pure none
  | s :: ss => do
    match ← interpretStatement s with
    | some v => return some v
    | none => interpretStatements ss

end

/-- Interprets a node in the current call. -/
def interpret : Node → Action (Option Value)
  | .function f =>
    within .function f.id do
      mark f.body.id
      interpretStatements f.body.statements
  | .block b => within (.statement .block) b.id (interpretStatements b.statements)
  | .statement s => interpretStatement s

/-- Interprets nodes in order, up to the first that gives a value. -/
def interpretEach : List Node → Action (Option Value)
  | [] => pure none
  | n :: ns => do
    match ← interpret n with
    | some v => return some v
    | none => interpretEach ns

def interpretChildren (n : Node) : Action (Option Value) := interpretEach n.children

/-! ### Transactions -/

/-- Makes the contract the active one. -/
def activate (contract : Contract) : Action Unit := do
  match ← Task.view (·.active) with
  | none => seedStorage contract
  | some current =>
    if current.name ≠ contract.name then
      Task.fail (.multipleContracts current.name contract.name)

/-- Runs a call that has its frame, and takes the frame off again. Its events are committed
if it completes and dropped if it fails. -/
def call (contract : Contract) (function : Function) : Action (Option Value) := fun s =>
  let s := { s with trace := s.trace.start }
  match interpret (.function function) s with
  | (result, s) =>
    match s.stack.pop "interpret_transaction" with
    | .error e => (.error e, s)
    | .ok (_, stack) =>
      let s := { s with stack }
      match result with
      | .ok value => (.ok value, { s with trace := s.trace.commit })
      | .error e =>
        let (dropped, trace) := s.trace.rollback
        let line := contract.name ++ "." ++ function.name ++ " failed, dropping " ++
          Decimal.ofNat dropped ++ " events"
        (.error e, { s with trace, log := s.log.push ⟨.debug, line⟩ })

/-- Interprets one transaction and gives the result of the function. -/
def interpretTransaction (transaction : Transaction) : Action (Option Value) := do
  let contract ← contract transaction.contract
  let function ← Task.require (.unknownFunction contract.name transaction.function)
    (contract.function? transaction.function)
  match argumentFault? function transaction.arguments with
  | some fault => Task.fail (.argumentMismatch function.name fault)
  | none => pure ()
  activate contract
  let depth ← Task.view (·.stack.depth)
  let locals := bindArguments (depth + 1) .locals function.parameters transaction.arguments
  Task.modify fun s =>
    { s with stack := s.stack.push (.call contract function transaction.arguments locals) }
  note .debug (← Task.view (·.stack.text))
  call contract function

/-- Interprets transactions in order; the first of them has number `i`. -/
def interpretTransactions (i : Nat) : List Transaction → Action Unit
  | [] => pure ()
  | t :: ts => do
    let result ← interpretTransaction t
    let shown :=
      match result with
      | some v => v.text
      | none => "nothing"
    note .debug ("Transaction " ++ Decimal.ofNat i ++ " " ++ t.contract ++ "." ++ t.function ++
      " returned " ++ shown)
    interpretTransactions (i + 1) ts

/-- All transactions are for one contract, which is seeded once. -/
def runTransactions (transactions : List Transaction) : Action Unit := do
  match transactions with
  | [] => Task.fail .noTransactions
  | first :: _ =>
    match transactions.find? (·.contract ≠ first.contract) with
    | some other => Task.fail (.multipleContracts first.contract other.contract)
    | none => pure ()
    seedStorage (← contract first.contract)
    interpretTransactions 0 transactions

/-- Runs every transaction. A failure discards the trace. -/
def run : Action Unit := fun s =>
  let s := { s with trace := .empty, failed := false }
  match runTransactions s.program.transactions s with
  | (.ok (), s) =>
    let line := "Interpreted " ++ Decimal.ofNat s.program.transactions.length ++
      " transactions, " ++ Decimal.ofNat s.trace.committed.length ++ " events emitted"
    (.ok (), { s with log := s.log.push ⟨.info, line⟩ })
  | (.error e, s) =>
    (.error e, { s with
      trace := .empty
      failed := true
      log := s.log.push ⟨.warn, "Run aborted: " ++ e.message⟩ })

/-! ### Output -/

/-- Writes the trace, unless the last run failed. -/
def writeTrace (s : Session) : Task Writer RunError Unit :=
  if s.failed then Task.fail .traceDiscarded else s.trace.write

/-- The line that announces the saving of the trace. -/
def savingLine (s : Session) : LogLine :=
  ⟨.info, "Writing " ++ Decimal.ofNat s.trace.committed.length ++ " events to " ++
    s.configuration.traceOutput⟩

/-- Saves the trace at the configured path, unless the last run failed. -/
def finish : Task (Session × FileSystem) RunError Unit := fun (s, fs) =>
  if s.failed then (.error .traceDiscarded, (s, fs))
  else
    let s := { s with log := s.log.push s.savingLine }
    match FileSystem.save (.ofText s.configuration.traceOutput) s.trace.render.toUTF8 fs with
    | (.ok (), fs) => (.ok (), (s, fs))
    | (.error e, fs) => (.error (.io e.message), (s, fs))

end Session

end ContractTrace
