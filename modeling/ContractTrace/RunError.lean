import ContractTrace.Document.Record
import ContractTrace.Evaluation.Error
import ContractTrace.Mode
import ContractTrace.Node

/-! Failures of a run and their texts. -/

namespace ContractTrace

/-- Why a storage variable cannot start. -/
inductive InitialFault
  | missing
  | misfit (value label typeName : String)
deriving DecidableEq, Repr

def InitialFault.message : InitialFault → String
  | .missing => "no initializer value"
  | .misfit value label typeName =>
    "initializer " ++ value ++ " of type " ++ label ++ " does not fit " ++ typeName

/-- Why a function does not take the arguments of a transaction. -/
inductive ArgumentFault
  | count (expected found : Nat)
  | misfit (value label typeName name : String)
deriving DecidableEq, Repr

def ArgumentFault.message : ArgumentFault → String
  | .count expected found =>
    "expected " ++ Decimal.ofNat expected ++ " arguments, got " ++ Decimal.ofNat found
  | .misfit value label typeName name =>
    value ++ " of type " ++ label ++ " does not fit parameter " ++ typeName ++ " " ++ name

/-- A document that is rejected, or a writer that refuses one. -/
inductive SerializationFault
  | read (cause : ReadError)
  | write (text : String)
deriving DecidableEq, Repr

/-- The text of a fault, where it has one. -/
def SerializationFault.message? : SerializationFault → Option String
  | .read cause => cause.message?
  | .write text => some text

inductive RunError
  | unsupportedNode (kind : NodeKind) (id : NodeId)
  | invalidInvocation (call : ModalCall) (mode : Mode)
  | environmentInitialization (name : String) (fault : InitialFault)
  | evaluation (error : EvaluationError)
  | noTransactions
  | multipleContracts (expected found : String)
  | unknownContract (name : String)
  | unknownFunction (contract name : String)
  | argumentMismatch (function : String) (fault : ArgumentFault)
  | eventArityMismatch (event : String) (expected found : Nat)
  | invalidEmitTarget (id : NodeId)
  | callStackUnderflow (operation : String)
  | traceDiscarded
  | io (text : String)
  | serialization (fault : SerializationFault)
deriving DecidableEq, Repr

def RunError.message : RunError → String
  | .unsupportedNode kind id =>
    "No interpretation rule for " ++ kind.name ++ " at " ++ NodeId.text id
  | .invalidInvocation call mode =>
    "Invalid call to " ++ call.text ++ " in " ++ mode.text ++ " mode"
  | .environmentInitialization name fault =>
    "Cannot initialize storage variable " ++ name ++ ": " ++ fault.message
  | .evaluation error => "Evaluation failed: " ++ error.message
  | .noTransactions => "No transactions to interpret"
  | .multipleContracts expected found =>
    "Transaction targets contract " ++ found ++ ", but the run is for " ++ expected
  | .unknownContract name => "Contract not found: " ++ name
  | .unknownFunction contract name => "Function not found: " ++ contract ++ "." ++ name
  | .argumentMismatch function fault =>
    "Argument mismatch for " ++ function ++ ": " ++ fault.message
  | .eventArityMismatch event expected found =>
    "Event " ++ event ++ " declares " ++ Decimal.ofNat expected ++ " arguments, but " ++
      Decimal.ofNat found ++ " were emitted"
  | .invalidEmitTarget id =>
    "Emit statement at " ++ NodeId.text id ++ " does not name an event"
  | .callStackUnderflow operation => "Call stack underflow during " ++ operation
  | .traceDiscarded => "Trace discarded after failed run"
  | .io text => "IO error: " ++ text
  | .serialization fault =>
    match fault.message? with
    | some text => "Serialization error: " ++ text
    | none => "Serialization error"

end ContractTrace
