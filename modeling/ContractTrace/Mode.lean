/-! The two ways of handing control to an interpreter, and the calls that belong to one of
them only. -/

namespace ContractTrace

inductive Mode
  | fullInterpretation
  | perNode
deriving DecidableEq, Repr

def Mode.text : Mode → String
  | .fullInterpretation => "full-interpretation"
  | .perNode => "per-node"

inductive ModalCall
  | run
  | beforeNode
  | afterNode
  | nextTarget
deriving DecidableEq, Repr

def ModalCall.text : ModalCall → String
  | .run => "run"
  | .beforeNode => "visit_node_before_processing"
  | .afterNode => "visit_node_after_processing"
  | .nextTarget => "next_target_statement"

end ContractTrace
