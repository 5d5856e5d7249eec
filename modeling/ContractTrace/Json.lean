/-! JSON trees, as far as a text could be read. A text that stops being JSON still has a
tree: `cut` stands at the place where it stops, after everything in front of it. A token of
the right form that stands for no value, such as an unpaired surrogate or a container nested
too deep, is `invalid`; it does no harm where nobody asks for its value. -/

namespace ContractTrace

inductive Json
  | null
  | bool (b : Bool)
  | integer (n : Int)
  | real (literal : String)
  | string (s : String)
  | array (items : List Json)
  | object (members : List (String × Json))
  | invalid
  | cut
deriving BEq, Repr, Inhabited

namespace Json

mutual

/-- Whether the text of the tree is JSON to its end. -/
def isUncut : Json → Bool
  | .array items => allUncut items
  | .object members => membersUncut members
  | .cut => false
  | _ => true

def allUncut : List Json → Bool
  | [] => true
  | j :: js => j.isUncut && allUncut js

def membersUncut : List (String × Json) → Bool
  | [] => true
  | (_, j) :: ms => j.isUncut && membersUncut ms

end

mutual

/-- Whether every part of the tree stands for a value. -/
def isWhole : Json → Bool
  | .array items => allWhole items
  | .object members => membersWhole members
  | .invalid => false
  | .cut => false
  | _ => true

def allWhole : List Json → Bool
  | [] => true
  | j :: js => j.isWhole && allWhole js

def membersWhole : List (String × Json) → Bool
  | [] => true
  | (_, j) :: ms => j.isWhole && membersWhole ms

end

mutual

/-- How deep arrays and objects nest. -/
def depth : Json → Nat
  | .array items => depthAll items + 1
  | .object members => depthMembers members + 1
  | _ => 0

def depthAll : List Json → Nat
  | [] => 0
  | j :: js => max j.depth (depthAll js)

def depthMembers : List (String × Json) → Nat
  | [] => 0
  | (_, j) :: ms => max j.depth (depthMembers ms)

end

/-- Puts a member into an object: in the place of the one with its key, or else behind all. -/
def setMember (key : String) (j : Json) : List (String × Json) → List (String × Json)
  | [] => [(key, j)]
  | (k, old) :: ms => if k = key then (k, j) :: ms else (k, old) :: setMember key j ms

/-- The object into which the members are put one after the other. -/
def ofMembers (members : List (String × Json)) : Json :=
  .object (members.foldl (fun ms m => setMember m.1 m.2 ms) [])

end Json

end ContractTrace
