/-! What a run reports about itself while it goes on. -/

namespace ContractTrace

/-- Levels, from the gravest to the most detailed. -/
inductive LogLevel
  | warn
  | info
  | debug
  | trace
deriving DecidableEq, Repr

def LogLevel.name : LogLevel → String
  | .warn => "WARN"
  | .info => "INFO"
  | .debug => "DEBUG"
  | .trace => "TRACE"

structure LogLine where
  level : LogLevel
  text : String
deriving DecidableEq, Repr

abbrev Log := Array LogLine

end ContractTrace
