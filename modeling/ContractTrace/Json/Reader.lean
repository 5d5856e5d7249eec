import ContractTrace.Json.Token

/-! Reading JSON text. The tokens drive a machine whose stack holds the arrays and objects
that are still open. At the first token that does not fit, the open containers are closed
around `cut`. -/

namespace ContractTrace.Json

/-- An open container; its parts so far stand last first. -/
inductive Frame
  | array (items : List Json)
  | object (members : List (String × Json))
  | member (members : List (String × Json)) (key : String)

/-- What may come next. -/
inductive Expectation
  | value
  | firstItem
  | firstKey
  | key
  | colon
  | separator

/-- A machine reads on, or has its tree. -/
inductive Reading
  | within (expected : Expectation) (frames : List Frame)
  | complete (root : Json)

/-- A tree and whether more than white space follows it. -/
structure Document where
  root : Json
  trailing : Bool
deriving BEq, Repr

/-- Containers nested this deep are invalid. -/
def depthLimit : Nat := 128

/-- Puts a value into the innermost open container. -/
def deliver (j : Json) : List Frame → Option Reading
  | [] => some (.complete j)
  | .array items :: outer => some (.within .separator (.array (j :: items) :: outer))
  | .member members key :: outer =>
    some (.within .separator (.object ((key, j) :: members) :: outer))
  | .object _ :: _ => none

/-- Closes a container below the given open ones. -/
def close (j : Json) (outer : List Frame) : Option Reading :=
  deliver (if outer.length + 1 < depthLimit then j else .invalid) outer

/-- The start of a value. -/
def beginValue (token : Token) (frames : List Frame) : Option Reading :=
  match token with
  | .arrayOpen => some (.within .firstItem (.array [] :: frames))
  | .objectOpen => some (.within .firstKey (.object [] :: frames))
  | .scalar j => deliver j frames
  | _ => none

def step (token : Token) : Expectation → List Frame → Option Reading
  | .value, frames => beginValue token frames
  | .firstItem, frames =>
    match token, frames with
    | .arrayClose, .array items :: outer => close (.array items.reverse) outer
    | _, _ => beginValue token frames
  | .firstKey, frames =>
    match token, frames with
    | .objectClose, .object members :: outer => close (.object members.reverse) outer
    | .scalar (.string key), .object members :: outer =>
      some (.within .colon (.member members key :: outer))
    | _, _ => none
  | .key, frames =>
    match token, frames with
    | .scalar (.string key), .object members :: outer =>
      some (.within .colon (.member members key :: outer))
    | _, _ => none
  | .colon, frames =>
    match token with
    | .colon => some (.within .value frames)
    | _ => none
  | .separator, frames =>
    match token, frames with
    | .comma, .array _ :: _ => some (.within .value frames)
    | .comma, .object _ :: _ => some (.within .key frames)
    | .arrayClose, .array items :: outer => close (.array items.reverse) outer
    | .objectClose, .object members :: outer => close (.object members.reverse) outer
    | _, _ => none

/-- The tree of the open containers when the text stops at `inner`. -/
def cutOff (inner : Json) : List Frame → Json
  | [] => inner
  | .array items :: frames => cutOff (.array (items.reverse ++ [inner])) frames
  | .object members :: frames => cutOff (.object (members.reverse ++ [("", inner)])) frames
  | .member members key :: frames => cutOff (.object (members.reverse ++ [(key, inner)])) frames

/-- The document that the tokens make. -/
def build : List Token → Reading → Document
  | [], .within _ frames => ⟨cutOff .cut frames, false⟩
  | [], .complete root => ⟨root, false⟩
  | _ :: _, .complete root => ⟨root, true⟩
  | token :: rest, .within expected frames =>
    match step token expected frames with
    | some reading => build rest reading
    | none => ⟨cutOff .cut frames, false⟩

def parse (text : String) : Document := build (tokens text.toList) (.within .value [])

end ContractTrace.Json
