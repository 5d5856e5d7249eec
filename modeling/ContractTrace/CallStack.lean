import ContractTrace.Environment
import ContractTrace.RunError
import ContractTrace.Scope

/-! The calls in progress. -/

namespace ContractTrace

/-- One call of a function. -/
structure Frame where
  contract : Contract
  function : Function
  arguments : List Value
  scope : Scope
  locals : Environment

def Frame.call (contract : Contract) (function : Function) (arguments : List Value)
    (locals : Environment) : Frame :=
  ⟨contract, function, arguments, .empty, locals⟩

/-- The current call stands first. -/
structure CallStack where
  frames : List Frame

namespace CallStack

def empty : CallStack := ⟨[]⟩

def depth (stack : CallStack) : Nat := stack.frames.length

def push (stack : CallStack) (frame : Frame) : CallStack := ⟨frame :: stack.frames⟩

/-- The current call; `operation` is named where there is none. -/
def current (stack : CallStack) (operation : String) : Except RunError Frame :=
  match stack.frames with
  | frame :: _ => .ok frame
  | [] => .error (.callStackUnderflow operation)

def pop (stack : CallStack) (operation : String) : Except RunError (Frame × CallStack) :=
  match stack.frames with
  | frame :: rest => .ok (frame, ⟨rest⟩)
  | [] => .error (.callStackUnderflow operation)

/-- Changes the scope of the current call. -/
def mapScope (stack : CallStack) (f : Scope → Scope) : CallStack :=
  match stack.frames with
  | frame :: rest => ⟨{ frame with scope := f frame.scope } :: rest⟩
  | [] => stack

/-- The calls, outermost first. -/
def text (stack : CallStack) : String :=
  if stack.frames.isEmpty then "Call Stack: []"
  else
    let line (frame : Frame) (i : Nat) :=
      "  " ++ Decimal.ofNat i ++ ". " ++ frame.contract.name ++ "." ++ frame.function.name ++
        "(" ++ ", ".intercalate (frame.arguments.map Value.text) ++ ")\n"
    "Call Stack: [\n" ++
      String.join (stack.frames.reverse.zipIdx.map fun (frame, i) => line frame i) ++ "]"

end CallStack

end ContractTrace
