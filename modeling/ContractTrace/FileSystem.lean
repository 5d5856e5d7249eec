import ContractTrace.Task

/-! Files and directories. Paths are walked step by step as the system does: every step but
the last needs a directory, and `..` is the parent of the directory reached. -/

namespace ContractTrace

inductive FileError
  | notFound
  | alreadyExists
  | notDirectory
  | isDirectory
  | notText
deriving DecidableEq, Repr

def FileError.message : FileError → String
  | .notFound => "No such file or directory (os error 2)"
  | .alreadyExists => "File exists (os error 17)"
  | .notDirectory => "Not a directory (os error 20)"
  | .isDirectory => "Is a directory (os error 21)"
  | .notText => "stream did not contain valid UTF-8"

/-! ### Paths -/

/-- A path as steps from the root or from the working directory. A path in directory form
ends with a slash. -/
structure Path where
  absolute : Bool
  steps : List String
  directoryForm : Bool
deriving DecidableEq, Repr

namespace Path

/-- The parts of a text between slashes. -/
def pieces : List Char → List Char → List String
  | piece, [] => [String.ofList piece.reverse]
  | piece, c :: cs =>
    if c = '/' then String.ofList piece.reverse :: pieces [] cs else pieces (c :: piece) cs

def ofText (text : String) : Path where
  absolute := text.toList.head? = some '/'
  steps := (pieces [] text.toList).filter (· ≠ "")
  directoryForm := text.toList.getLast? = some '/'

def text (p : Path) : String :=
  (if p.absolute then "/" else "") ++ "/".intercalate p.steps ++
    (if p.directoryForm && !p.steps.isEmpty then "/" else "")

/-- The path leads nowhere. -/
def isEmpty (p : Path) : Bool := !p.absolute && p.steps.isEmpty

/-- The steps that count: a dot does so only in front. -/
def components (p : Path) : List String :=
  match p.steps with
  | "." :: rest => if p.absolute then rest.filter (· ≠ ".") else "." :: rest.filter (· ≠ ".")
  | steps => steps.filter (· ≠ ".")

/-- The path without its last component; the root has none. -/
def parent? (p : Path) : Option Path :=
  if p.components.isEmpty then none
  else some ⟨p.absolute, p.components.dropLast, false⟩

end Path

/-! ### The file system -/

inductive Entry
  | directory
  | file (content : ByteArray)

/-- The entries by their steps from the root, which is a directory itself, and the working
directory. -/
structure FileSystem where
  entries : List (List String × Entry)
  working : List String

namespace FileSystem

def entry? (fs : FileSystem) (place : List String) : Option Entry :=
  if place.isEmpty then some .directory else fs.entries.lookup place

def isDirectory (fs : FileSystem) (place : List String) : Bool :=
  match fs.entry? place with
  | some .directory => true
  | _ => false

def put (fs : FileSystem) (place : List String) (entry : Entry) : FileSystem :=
  { fs with entries := (place, entry) :: fs.entries.filter (·.1 ≠ place) }

/-- Follows steps from a place; everything on the way must exist. -/
def walk (fs : FileSystem) (place : List String) : List String → Except FileError (List String)
  | [] => .ok place
  | step :: steps =>
    if fs.isDirectory place then
      if step = "." then walk fs place steps
      else if step = ".." then walk fs place.dropLast steps
      else if (fs.entry? (place ++ [step])).isSome then walk fs (place ++ [step]) steps
      else .error .notFound
    else .error .notDirectory

def origin (fs : FileSystem) (p : Path) : List String := if p.absolute then [] else fs.working

/-- The place that a path names. -/
def resolve (fs : FileSystem) (p : Path) : Except FileError (List String) :=
  if p.isEmpty then .error .notFound
  else do
    let place ← fs.walk (fs.origin p) p.steps
    if p.directoryForm && !fs.isDirectory place then .error .notDirectory else .ok place

def pathExists (fs : FileSystem) (p : Path) : Bool := (fs.resolve p).toOption.isSome

def isDirectoryPath (fs : FileSystem) (p : Path) : Bool :=
  match fs.resolve p with
  | .ok place => fs.isDirectory place
  | .error _ => false

/-- Where a new entry would go: the directory and the name, or the directory alone where the
last step is a dot or two. -/
def target (fs : FileSystem) (p : Path) : Except FileError (List String × Option String) :=
  if p.isEmpty then .error .notFound
  else
    match p.steps.getLast? with
    | none => .ok ([], none)
    | some last => do
      let directory ← fs.walk (fs.origin p) p.steps.dropLast
      if !fs.isDirectory directory then .error .notDirectory
      else if last = "." || last = ".." then .ok (directory, none)
      else .ok (directory, some last)

/-- The content of a file. -/
def read (fs : FileSystem) (p : Path) : Except FileError ByteArray := do
  let place ← fs.resolve p
  match fs.entry? place with
  | some (.file content) => .ok content
  | some .directory => .error .isDirectory
  | none => .error .notFound

/-- A task on the files, from a function. -/
def act (f : FileSystem → Except FileError FileSystem) : Task FileSystem FileError Unit :=
  fun fs =>
    match f fs with
    | .ok fs' => (.ok (), fs')
    | .error e => (.error e, fs)

def makeDirectory (p : Path) : Task FileSystem FileError Unit :=
  act fun fs => do
    match ← fs.target p with
    | (_, none) => .error .alreadyExists
    | (directory, some name) =>
      let place := directory ++ [name]
      if (fs.entry? place).isSome then .error .alreadyExists else .ok (fs.put place .directory)

/-- A failure to make a directory that is there already is none. -/
def unlessDirectory (p : Path) (x : Task FileSystem FileError Unit) :
    Task FileSystem FileError Unit :=
  fun fs =>
    match x fs with
    | (.error e, fs') => if fs'.isDirectoryPath p then (.ok (), fs') else (.error e, fs')
    | done => done

/-- Makes a directory and those above it; the steps stand last first. -/
def makeDirectories (absolute : Bool) : List String → Task FileSystem FileError Unit
  | [] => pure ()
  | last :: above => fun fs =>
    let p : Path := ⟨absolute, (last :: above).reverse, false⟩
    match makeDirectory p fs with
    | (.error .notFound, fs') =>
      (do makeDirectories absolute above; unlessDirectory p (makeDirectory p)) fs'
    | _ => unlessDirectory p (makeDirectory p) fs

/-- Creates a file or replaces its content. -/
def writeFile (p : Path) (content : ByteArray) : Task FileSystem FileError Unit :=
  act fun fs => do
    match ← fs.target p with
    | (_, none) => .error .isDirectory
    | (directory, some name) =>
      let place := directory ++ [name]
      if p.directoryForm || fs.isDirectory place then .error .isDirectory
      else .ok (fs.put place (.file content))

/-- Writes a file after making the directories that it needs. -/
def save (p : Path) (content : ByteArray) : Task FileSystem FileError Unit := do
  match p.parent? with
  | none => pure ()
  | some parent =>
    if !parent.isEmpty && !(← Task.view (·.pathExists parent)) then
      makeDirectories parent.absolute parent.steps.reverse
  writeFile p content

end FileSystem

end ContractTrace
