import ContractTrace.Expression

/-! Finite sets of node ids, listed in ascending order. -/

namespace ContractTrace

structure IdSet where
  ids : List NodeId
deriving DecidableEq, Repr

namespace IdSet

def empty : IdSet := ⟨[]⟩

def contains (s : IdSet) (id : NodeId) : Bool := s.ids.contains id

def insertSorted (id : NodeId) : List NodeId → List NodeId
  | [] => [id]
  | x :: xs => if id < x then id :: x :: xs else if id = x then x :: xs else x :: insertSorted id xs

def insert (s : IdSet) (id : NodeId) : IdSet := ⟨insertSorted id s.ids⟩

def size (s : IdSet) : Nat := s.ids.length

end IdSet

/-- The nodes that have been visited. A mark is never taken back. -/
structure Coverage where
  covered : IdSet
deriving DecidableEq, Repr

namespace Coverage

def empty : Coverage := ⟨.empty⟩

/-- Marks a node, and says whether the mark is new. -/
def mark (c : Coverage) (id : NodeId) : Bool × Coverage :=
  (!c.covered.contains id, ⟨c.covered.insert id⟩)

end Coverage

end ContractTrace
