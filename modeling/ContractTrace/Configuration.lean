import ContractTrace.Document.Record
import ContractTrace.ErrorPolicy
import ContractTrace.Text.Blank

/-! The configuration of a run, with its defaults, its environment variables and its
document. -/

namespace ContractTrace

structure Configuration where
  seed : UInt64 := 0
  traceOutput : String := "interpretation.json"
  errorPolicy : ErrorPolicy := .fail
deriving DecidableEq, Repr

inductive ConfigurationError
  | invalidSeed (value : String)
  | invalidErrorPolicy (unknown : ErrorPolicy.Unknown)
deriving DecidableEq, Repr

namespace Configuration

def seedVariable : String := "SOLTRACE_SEED"

def traceOutputVariable : String := "SOLTRACE_TRACE_OUTPUT"

def errorPolicyVariable : String := "SOLTRACE_ERROR_POLICY"

/-- A seed of 64 bits: a plus sign at most, then digits. -/
def seed? (cs : List Char) : Option UInt64 :=
  (Decimal.unsigned? cs).bind fun n => if n < twoPow 64 then some (UInt64.ofNat n) else none

/-- The defaults with what the environment sets, seed first. -/
def ofVariables (setting? : String → Option String) :
    Except ConfigurationError Configuration := do
  let config : Configuration := {}
  let config ←
    match setting? seedVariable with
    | none => .ok config
    | some value =>
      match seed? (Text.trim value.toList) with
      | some seed => .ok { config with seed }
      | none => .error (.invalidSeed value)
  let config :=
    match setting? traceOutputVariable with
    | none => config
    | some traceOutput => { config with traceOutput }
  match setting? errorPolicyVariable with
  | none => .ok config
  | some value =>
    match ErrorPolicy.parse value with
    | .ok errorPolicy => .ok { config with errorPolicy }
    | .error unknown => .error (.invalidErrorPolicy unknown)

def toJson (config : Configuration) : Json :=
  .object [("random_seed", .integer config.seed.toNat),
    ("trace_output", .string config.traceOutput),
    ("error_policy", .string config.errorPolicy.text)]

end Configuration

def ConfigurationError.message : ConfigurationError → String
  | .invalidSeed value =>
    Configuration.seedVariable ++ " must be a valid number, got " ++ value
  | .invalidErrorPolicy unknown =>
    Configuration.errorPolicyVariable ++ ": " ++ unknown.message

namespace Document

def errorPolicy : Reader ErrorPolicy :=
  choice false [("fail", .fail), ("substitute", .substitute)]

def configuration : Reader Configuration :=
  record (Configuration.mk <$> (UInt64.ofNat <$> field "random_seed" (natural (twoPow 64))) <*>
    field "trace_output" string <*> field "error_policy" errorPolicy)

end Document

end ContractTrace
