import ContractTrace.Text.LowerCase

/-! How arithmetic faults are resolved. -/

namespace ContractTrace

/-- A fault fails the evaluation, or a drawn value of the result type takes its place. -/
inductive ErrorPolicy
  | fail
  | substitute
deriving DecidableEq, Repr, Inhabited

namespace ErrorPolicy

def text : ErrorPolicy → String
  | .fail => "fail"
  | .substitute => "substitute"

/-- A text, in lower case, that names no policy. -/
structure Unknown where
  text : String
deriving DecidableEq, Repr

def Unknown.message (u : Unknown) : String := "unknown error policy: " ++ u.text

/-- Reads a policy in any letter case. -/
def parse (text : String) : Except Unknown ErrorPolicy :=
  let lower := Text.lowerCase text
  if lower = "fail" then .ok .fail
  else if lower = "substitute" then .ok .substitute
  else .error ⟨lower⟩

end ErrorPolicy

end ContractTrace
