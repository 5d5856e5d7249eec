import ContractTrace.Session

/-! Interpreters whose mode is known only when they are called: one that takes whole runs,
or one that is called at every node by a walker outside. A call that belongs to the other
mode is refused. -/

namespace ContractTrace

structure Runner (σ : Type) where
  run : Task σ RunError Unit
  finish : Task σ RunError Unit

structure Visitor (σ : Type) where
  before : Node → Task σ RunError Unit
  after : Node → Task σ RunError Unit
  /-- The statement to go to next, if the visitor wants to steer. -/
  next : Task σ RunError (Option NodeId)
  finish : Task σ RunError Unit

inductive Callback (σ : Type)
  | full (runner : Runner σ)
  | perNode (visitor : Visitor σ)

namespace Callback

variable {σ : Type}

def mode : Callback σ → Mode
  | .full _ => .fullInterpretation
  | .perNode _ => .perNode

def refuse (c : Callback σ) (call : ModalCall) : Task σ RunError α :=
  Task.fail (.invalidInvocation call c.mode)

def run (c : Callback σ) : Task σ RunError Unit :=
  match c with
  | .full runner => runner.run
  | .perNode _ => c.refuse .run

def before (c : Callback σ) (n : Node) : Task σ RunError Unit :=
  match c with
  | .perNode visitor => visitor.before n
  | .full _ => c.refuse .beforeNode

def after (c : Callback σ) (n : Node) : Task σ RunError Unit :=
  match c with
  | .perNode visitor => visitor.after n
  | .full _ => c.refuse .afterNode

def next (c : Callback σ) : Task σ RunError (Option NodeId) :=
  match c with
  | .perNode visitor => visitor.next
  | .full _ => c.refuse .nextTarget

def finish (c : Callback σ) : Task σ RunError Unit :=
  match c with
  | .full runner => runner.finish
  | .perNode visitor => visitor.finish

end Callback

/-- A session as an interpreter of whole runs. -/
def Session.runner : Runner (Session × FileSystem) where
  run := Task.zoom (·.1) (fun s world => (s, world.2)) Session.run
  finish := Session.finish

end ContractTrace
