import ContractTrace.CommandLine
import ContractTrace.Document.Program
import ContractTrace.Session

/-! The application around a session: arguments and environment are read, the program is
loaded, run, and its trace saved. -/

namespace ContractTrace.Application

/-- How the application ends. -/
inductive Outcome
  | usage
  | refused
  | version (text : String)
  | failed (message : String)
  | completed (text : String)
deriving DecidableEq, Repr

def Outcome.exitCode : Outcome → Nat
  | .usage => 0
  | .refused => 2
  | .version _ => 0
  | .failed _ => 1
  | .completed _ => 0

structure Report where
  outcome : Outcome
  files : FileSystem
  log : Log

def version : String := "soltrace 0.1.0\n"

/-! ### The log -/

def levels : List (String × LogLevel) :=
  [("warn", .warn), ("info", .info), ("debug", .debug), ("trace", .trace)]

/-- The most detailed level that is shown, if any. A variable comes before the flag. -/
def shownLevel (verbose : Bool) (setting? : String → Option String) : Option LogLevel :=
  match setting? "RUST_LOG" with
  | some value => levels.lookup (Text.lowerCase value)
  | none => some (if verbose then .debug else .warn)

def rank : LogLevel → Nat
  | .warn => 1
  | .info => 2
  | .debug => 3
  | .trace => 4

def shows (shown : Option LogLevel) (level : LogLevel) : Bool :=
  match shown with
  | some most => rank level ≤ rank most
  | none => false

/-- A log line as it is printed: lines behind the first are indented. -/
def printed (line : LogLine) : List String :=
  match line.text.splitOn "\n" with
  | [] => [line.level.name]
  | first :: rest => (line.level.name ++ " " ++ first) :: rest.map ("    " ++ ·)

/-! ### Running -/

/-- The failure of a run as it is reported. -/
def failure (e : RunError) : String := "Interpreter error: " ++ e.message

def notFound (path : String) : String := "Program file not found: " ++ path

def unreadable (path : String) (e : FileError) : RunError :=
  .io ("Failed to read " ++ path ++ ": " ++ e.message)

/-- The program in the content of a file. -/
def decode (path : String) (content : ByteArray) : Except RunError Program :=
  match String.fromUTF8? content with
  | none => .error (unreadable path .notText)
  | some text =>
    match Program.ofText text with
    | .ok program => .ok program
    | .error e => .error (.serialization (.read e))

/-- The program in a file. -/
def load (fs : FileSystem) (path : String) : Except RunError Program :=
  match fs.read (.ofText path) with
  | .error e => .error (unreadable path e)
  | .ok content => decode path content

def loadedLine (program : Program) (path : String) : LogLine :=
  ⟨.debug, "Loaded " ++ Decimal.ofNat program.source.contracts.length ++ " contracts and " ++
    Decimal.ofNat program.transactions.length ++ " transactions from " ++ path⟩

def summary (s : Session) : String :=
  "Trace written: " ++ Decimal.ofNat s.program.transactions.length ++ " transactions, " ++
    Decimal.ofNat s.trace.committed.length ++ " events -> " ++ s.configuration.traceOutput ++ "\n"

/-- Runs a program and saves its trace. -/
def perform (fs : FileSystem) (path : String) (config : Configuration) : Report :=
  if !fs.pathExists (.ofText path) then ⟨.failed (notFound path), fs, #[]⟩
  else
    match load fs path with
    | .error e => ⟨.failed (failure e), fs, #[]⟩
    | .ok program =>
      let s := { Session.start program config with log := #[loadedLine program path] }
      let task : Task (Session × FileSystem) RunError Unit := do
        Task.zoom (·.1) (fun s world => (s, world.2)) Session.run
        Session.finish
      match task (s, fs) with
      | (.ok (), s, fs) => ⟨.completed (summary s), fs, s.log⟩
      | (.error e, s, fs) => ⟨.failed (failure e), fs, s.log⟩

def run (arguments : List String) (setting? : String → Option String) (fs : FileSystem) :
    Report :=
  match CommandLine.parse arguments with
  | .help => ⟨.usage, fs, #[]⟩
  | .version => ⟨.version version, fs, #[]⟩
  | .refused => ⟨.refused, fs, #[]⟩
  | .run path options =>
    match Configuration.ofVariables setting? with
    | .error e => ⟨.failed ("Configuration error: " ++ e.message), fs, #[]⟩
    | .ok config =>
      let report := perform fs path (options.override config)
      let shown := shownLevel options.verbose setting?
      { report with log := report.log.filter fun line => shows shown line.level }

end ContractTrace.Application
