import ContractTrace.Application

/-! The program. -/

namespace ContractTrace.Main

def usage : String :=
  "Usage: soltrace --program <FILE> [--output <FILE>] [--seed <N>] " ++
    "[--error-policy <fail|substitute>] [--verbose]\n"

/-- A failure of the system with its number. -/
def systemText (code : UInt32) (details : String) : String :=
  details ++ " (os error " ++ Decimal.ofNat code.toNat ++ ")"

def describe : IO.Error → String
  | .noFileOrDirectory .. => FileError.notFound.message
  | .alreadyExists _ code details => systemText code details
  | .inappropriateType _ code details => systemText code details
  | .permissionDenied _ code details => systemText code details
  | e => toString e

def pathExists (path : String) : IO Bool := do
  match ← (IO.FS.realPath path).toBaseIO with
  | .ok _ => return true
  | .error _ => return false

/-- The variables that a run looks at. -/
def settings : IO (String → Option String) := do
  let names := [Configuration.seedVariable, Configuration.traceOutputVariable,
    Configuration.errorPolicyVariable, "RUST_LOG"]
  let values ← names.mapM fun name => return (name, ← IO.getEnv name)
  return fun name => (values.lookup name).join

def printLog (shown : Option LogLevel) (log : Log) : IO Unit := do
  for line in log do
    if Application.shows shown line.level then
      for text in Application.printed line do IO.eprintln text

def report (message : String) : IO UInt32 := do
  IO.eprintln ("Error: " ++ message)
  return 1

/-- Makes the directories that a path needs and writes the file. -/
def save (path : String) (content : String) : IO Unit := do
  match (Path.ofText path).parent? with
  | some parent =>
    if !parent.isEmpty && !(← pathExists parent.text) then IO.FS.createDirAll parent.text
  | none => pure ()
  IO.FS.writeFile path content

def perform (path : String) (config : Configuration) (shown : Option LogLevel) : IO UInt32 := do
  if !(← pathExists path) then return ← report (Application.notFound path)
  match ← (IO.FS.readBinFile path).toBaseIO with
  | .error e =>
    report (Application.failure (.io ("Failed to read " ++ path ++ ": " ++ describe e)))
  | .ok bytes =>
    match Application.decode path bytes with
    | .error e => report (Application.failure e)
    | .ok program =>
      let s := { Session.start program config with log := #[Application.loadedLine program path] }
      let (result, s) := Session.run s
      printLog shown s.log
      match result with
      | .error e => report (Application.failure e)
      | .ok () =>
        printLog shown #[s.savingLine]
        match ← (save config.traceOutput s.trace.render).toBaseIO with
        | .error e => report (Application.failure (.io (describe e)))
        | .ok () =>
          IO.print (Application.summary s)
          return 0

end ContractTrace.Main

open ContractTrace in
def main (arguments : List String) : IO UInt32 := do
  match CommandLine.parse arguments with
  | .help =>
    IO.print Main.usage
    return 0
  | .version =>
    IO.print Application.version
    return 0
  | .refused =>
    IO.eprint Main.usage
    return 2
  | .run path options =>
    let setting? ← Main.settings
    match Configuration.ofVariables setting? with
    | .error e => Main.report ("Configuration error: " ++ e.message)
    | .ok config =>
      Main.perform path (options.override config)
        (Application.shownLevel options.verbose setting?)
