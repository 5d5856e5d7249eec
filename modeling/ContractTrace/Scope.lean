import ContractTrace.IdSet

/-! The nodes of one call: all that were entered, and the path of those not yet left. -/

namespace ContractTrace

/-- The active path stands innermost first. -/
structure Scope where
  entered : IdSet
  path : List NodeId
deriving DecidableEq, Repr

namespace Scope

def empty : Scope := ⟨.empty, []⟩

def enter (s : Scope) (id : NodeId) : Scope := ⟨s.entered.insert id, id :: s.path⟩

/-- Leaves the innermost node; leaving any other one changes nothing. -/
def leave (s : Scope) (id : NodeId) : Scope :=
  match s.path with
  | inner :: outer => if inner = id then { s with path := outer } else s
  | [] => s

def hasEntered (s : Scope) (id : NodeId) : Bool := s.entered.contains id

/-- The nodes being interpreted, outermost first. -/
def active (s : Scope) : List NodeId := s.path.reverse

end Scope

end ContractTrace
