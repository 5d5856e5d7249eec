import ContractTrace.Json.Writer
import ContractTrace.RunError
import ContractTrace.Task
import ContractTrace.Value

/-! The trace of a run: the events that transactions emitted. Events of an open transaction
are held back until it is committed. -/

namespace ContractTrace

namespace Value

/-- The integers that a trace holds as numbers. -/
def isTraceNumber (v : Int) : Bool := -twoPow 63 ≤ v && v < twoPow 64

mutual

/-- The form of a value in a trace, where types are not shown. -/
def traceJson : Value → Json
  | .integer v _ => if isTraceNumber v then .integer v else .string (Decimal.ofInt v)
  | .bool b => .bool b
  | .tuple items => .array (traceJsons items)

def traceJsons : List Value → List Json
  | [] => []
  | v :: vs => v.traceJson :: traceJsons vs

end

end Value

/-- An emitted event; each argument has its slot number. -/
structure Event where
  name : String
  arguments : List (Nat × Value)
deriving Repr

namespace Event

def named (name : String) : Event := ⟨name, []⟩

/-- Gives the next slot a value. -/
def push (event : Event) (value : Value) : Event :=
  { event with arguments := event.arguments ++ [(event.arguments.length, value)] }

def toJson (event : Event) : Json :=
  .object [("event", .string event.name),
    ("args", .ofMembers (event.arguments.map fun (slot, v) => (Decimal.ofNat slot, v.traceJson)))]

end Event

/-- Committed events, and the events of the open transaction if there is one. -/
structure Trace where
  committed : List Event
  pending : Option (List Event)
deriving Repr

namespace Trace

def empty : Trace := ⟨[], none⟩

/-- Opens a transaction. -/
def start (t : Trace) : Trace := { t with pending := some [] }

def record (t : Trace) (event : Event) : Trace :=
  match t.pending with
  | some events => { t with pending := some (events ++ [event]) }
  | none => { t with committed := t.committed ++ [event] }

/-- Adds the events of the open transaction to the committed ones. -/
def commit (t : Trace) : Trace := ⟨t.committed ++ t.pending.getD [], none⟩

/-- Drops the events of the open transaction, and counts them. -/
def rollback (t : Trace) : Nat × Trace := ((t.pending.getD []).length, { t with pending := none })

def toJson (t : Trace) : Json := .array (t.committed.map Event.toJson)

/-- The committed events as an indented document. -/
def render (t : Trace) : String := t.toJson.pretty ++ "\n"

end Trace

/-- A place for text. It takes the given number of bytes, all if none is given, and fails
with a text of its own behind them; flushing it may fail too. -/
structure Writer where
  room : Option Nat
  whenFull : String
  flushFault : Option String
  written : ByteArray

namespace Writer

/-- Writes as much of a text as there is room for. -/
def write (text : String) : Task Writer String Unit := fun w =>
  let bytes := text.toUTF8
  match w.room with
  | none => (.ok (), { w with written := w.written ++ bytes })
  | some n =>
    if bytes.size ≤ n then
      (.ok (), { w with room := some (n - bytes.size), written := w.written ++ bytes })
    else
      (.error w.whenFull,
        { w with room := some 0, written := w.written ++ bytes.extract 0 n })

def flush : Task Writer String Unit := fun w =>
  match w.flushFault with
  | none => (.ok (), w)
  | some text => (.error text, w)

end Writer

/-- The failure of a step in the words of a larger task. -/
def Task.mapError {σ ε ε' α : Type} (f : ε → ε') (x : Task σ ε α) : Task σ ε' α := fun s =>
  match x s with
  | (.ok a, s) => (.ok a, s)
  | (.error e, s) => (.error (f e), s)

/-- Writes the rendered trace. A failure inside the document is one of serialization, a
failure at the line break behind it is one of output. -/
def Trace.write (t : Trace) : Task Writer RunError Unit := do
  Task.mapError (fun text => .serialization (.write text)) (Writer.write t.toJson.pretty)
  Task.mapError .io (Writer.write "\n")
  Task.mapError .io Writer.flush

end ContractTrace
