import ContractTrace.Configuration

/-! The command line. Arguments are taken from left to right, each option once. An option
`--name` has its value behind an equals sign or in the next argument; an option `-x` may also
have it attached, and stand behind flags in one argument. A value in an argument of its own
does not start with a dash, unless it is just that. -/

namespace ContractTrace.CommandLine

structure Options where
  program : Option String := none
  output : Option String := none
  seed : Option UInt64 := none
  errorPolicy : Option ErrorPolicy := none
  verbose : Bool := false
deriving DecidableEq, Repr

/-- What the arguments ask for. -/
inductive Request
  | help
  | version
  | refused
  | run (program : String) (options : Options)
deriving DecidableEq, Repr

/-- The options that have a value. -/
inductive Slot
  | program
  | output
  | seed
  | errorPolicy
deriving DecidableEq, Repr

/-- The policies by their exact names. -/
def policy? (value : String) : Option ErrorPolicy :=
  if value = "fail" then some .fail
  else if value = "substitute" then some .substitute
  else none

/-- Gives an option its value, unless it has one or the value is bad. -/
def set? (options : Options) : Slot → String → Option Options
  | .program, value =>
    if options.program.isSome then none else some { options with program := some value }
  | .output, value =>
    if options.output.isSome then none else some { options with output := some value }
  | .seed, value =>
    if options.seed.isSome then none
    else (Configuration.seed? value.toList).map fun seed => { options with seed := some seed }
  | .errorPolicy, value =>
    if options.errorPolicy.isSome then none
    else (policy? value).map fun policy => { options with errorPolicy := some policy }

def verbose? (options : Options) : Option Options :=
  if options.verbose then none else some { options with verbose := true }

/-- What one argument comes to. -/
inductive Step
  | stop (request : Request)
  | next (options : Options)
  | value (slot : Slot) (options : Options)

def Step.ofOptions : Option Options → Step
  | some options => .next options
  | none => .stop .refused

/-- An argument behind a double dash. -/
def long (options : Options) (name : List Char) (attached : Option (List Char)) : Step :=
  let slot (s : Slot) :=
    match attached with
    | some value => Step.ofOptions (set? options s (String.ofList value))
    | none => .value s options
  let flag (step : Step) := if attached.isSome then .stop .refused else step
  match String.ofList name with
  | "program" => slot .program
  | "output" => slot .output
  | "seed" => slot .seed
  | "error-policy" => slot .errorPolicy
  | "verbose" => flag (.ofOptions (verbose? options))
  | "help" => flag (.stop .help)
  | "version" => flag (.stop .version)
  | _ => .stop .refused

/-- The rest of an argument behind an option letter. -/
def attachedValue (options : Options) (slot : Slot) : List Char → Step
  | [] => .value slot options
  | '=' :: value => .ofOptions (set? options slot (String.ofList value))
  | value => .ofOptions (set? options slot (String.ofList value))

/-- The letters of an argument behind a single dash. -/
def short (options : Options) : List Char → Step
  | [] => .next options
  | 'v' :: letters =>
    match verbose? options with
    | some options => short options letters
    | none => .stop .refused
  | 'h' :: _ => .stop .help
  | 'V' :: _ => .stop .version
  | 'p' :: rest => attachedValue options .program rest
  | 'o' :: rest => attachedValue options .output rest
  | 's' :: rest => attachedValue options .seed rest
  | _ => .stop .refused

def step (options : Options) (argument : String) : Step :=
  match argument.toList with
  | '-' :: '-' :: cs =>
    let name := cs.takeWhile (· ≠ '=')
    long options name (if name.length < cs.length then some (cs.drop (name.length + 1)) else none)
  | '-' :: c :: cs => short options (c :: cs)
  | _ => .stop .refused

/-- Whether an argument can be the value of the option in front of it. -/
def isValue (argument : String) : Bool :=
  argument.toList.head? ≠ some '-' || argument = "-"

/-- The program is the one option that has to be there. -/
def request (options : Options) : Request :=
  match options.program with
  | some program => .run program options
  | none => .refused

def parseFrom (options : Options) : List String → Request
  | [] => request options
  | argument :: rest =>
    if argument = "--" then if rest.isEmpty then request options else .refused
    else
      match step options argument, rest with
      | .stop r, _ => r
      | .next options, rest => parseFrom options rest
      | .value slot options, value :: rest =>
        if isValue value then
          match set? options slot value with
          | some options => parseFrom options rest
          | none => .refused
        else .refused
      | .value _ _, [] => .refused

def parse (arguments : List String) : Request := parseFrom {} arguments

/-- Flags come before the environment. -/
def Options.override (options : Options) (config : Configuration) : Configuration where
  seed := options.seed.getD config.seed
  traceOutput := options.output.getD config.traceOutput
  errorPolicy := options.errorPolicy.getD config.errorPolicy

end ContractTrace.CommandLine
