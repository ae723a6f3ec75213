import JackCompiler.CommandLine.System
import JackCompiler.Compile

namespace JackCompiler.CommandLine

structure Options where
  comments : Bool
  stdout : Bool
  workers : Nat
  inputs : List String
  deriving DecidableEq

def sourceEnding : String := ".jack"

structure SourceUnit where
  shown : String
  directory : Path
  name : String

namespace SourceUnit

def path (unit : SourceUnit) : Path := unit.directory ++ [unit.name]

def stem (unit : SourceUnit) : String :=
  String.ofList (unit.name.toList.take (unit.name.length - sourceEnding.length))

/-- Where the code goes: beside the source, with another ending. Two dots remain of a name that is
the ending after one more dot, and these lead to the directory above. -/
def target (unit : SourceUnit) : Path :=
  if unit.stem = "." then unit.directory.dropLast else unit.directory ++ [unit.stem ++ ".vm"]

end SourceUnit

def isSourceName (name : String) : Bool :=
  sourceEnding.toList.isSuffixOf name.toList && sourceEnding.length < name.length

def within (directory name : String) : String :=
  if directory.toList.getLast? = some '/' then directory ++ name else directory ++ "/" ++ name

inductive InputError
  | unnamed (input : String)
  | refused (message : String)
  deriving DecidableEq

def InputError.message : InputError → String
  | .unnamed input => input ++ ": not a .jack file or directory"
  | .refused message => message

inductive UnitError
  | refused (message : String)
  | notText
  | targetIsDirectory
  | unwritten (message : String)
  | compile (error : CompileError)
  deriving DecidableEq

def UnitError.message : UnitError → String
  | .refused message | .unwritten message => message
  | .notText => "stream did not contain valid UTF-8"
  | .targetIsDirectory => "Is a directory (os error 21)"
  | .compile error => error.message

/-- What becomes of the file for the code of a unit: it is emptied before it is written to. -/
def filing (stdout : Bool) : Except UnitError String → Option String
  | .ok text => if stdout then none else some text
  | .error (.unwritten _) => some ""
  | .error _ => none

section

variable (system : System) (options : Options) (tree : FileTree) (working : Path)

def find (written : String) : Option Path :=
  match system.refusal? (.find written) with
  | some _ => none
  | none => tree.resolve working written

/-- The units an input names: the sources directly in a directory by name, or one source. -/
def unitsOf (input : String) : Except InputError (List SourceUnit) :=
  match find system tree working input with
  | none => .error (.unnamed input)
  | some path =>
    if tree.isDirectory path then
      match system.refusal? (.list input) with
      | some message => .error (.refused message)
      | none =>
        let names := ((tree.fileNames path).filter isSourceName).mergeSort (· ≤ ·)
        .ok (names.map fun name => ⟨within input name, path, name⟩)
    else
      match path.getLast? with
      | none => .error (.unnamed input)
      | some name =>
        if isSourceName name then .ok [⟨input, path.dropLast, name⟩] else .error (.unnamed input)

def collect : List String → Except InputError (List SourceUnit)
  | [] => .ok []
  | input :: inputs => do
    let units ← unitsOf system tree working input
    return units ++ (← collect inputs)

variable (unit : SourceUnit)

def SourceUnit.read : Except UnitError String :=
  match system.refusal? (.read unit.shown) with
  | some message => .error (.refused message)
  | none =>
    match (tree.file? unit.path).bind String.fromUTF8? with
    | none => .error .notText
    | some source => .ok source

def SourceUnit.obstacle? : Option UnitError :=
  match system.refusal? (.create unit.shown) with
  | some message => some (.refused message)
  | none => if tree.isDirectory unit.target then some .targetIsDirectory else none

def unitText (comments : Bool) : Except UnitError String := do
  let source ← unit.read system tree
  (compileToText comments source).mapError .compile

/-- The text of a unit, if it gets where it is to go. Nothing is written of an empty text. -/
def unitResult : Except UnitError String := do
  let text ← unitText system tree unit options.comments
  if options.stdout then
    return text
  else
    match unit.obstacle? system tree, system.refusal? (.write unit.target) with
    | some error, _ => throw error
    | none, some message => if text = "" then return text else throw (.unwritten message)
    | none, none => return text

structure Share where
  text : String
  notices : List Notice
  failed : Bool

def share (stdout : Bool) (place : Nat) : SourceUnit × Except UnitError String → Share
  | (_, .ok text) =>
    if stdout then
      match system.print place text with
      | (out, none) => ⟨out, [], false⟩
      | (out, some message) => ⟨out, [.record ("cannot write to stdout: " ++ message)], true⟩
    else
      ⟨"", [], false⟩
  | (unit, .error error) =>
    let line := unit.shown ++ ": " ++ error.message
    ⟨"", [.record line, .message line], true⟩

def exitStatus (failed : Nat) : Nat := if 0 < failed then 1 else 0

def report (stdout : Bool) (results : List (SourceUnit × Except UnitError String)) : Outcome :=
  let shares := results.mapIdx (share system stdout)
  { status := exitStatus (shares.countP Share.failed)
    stdout := String.join (shares.map Share.text)
    notices := shares.flatMap Share.notices
    written := results.filterMap fun (unit, result) =>
      (filing stdout result).map fun text => (unit.target, text) }

def execute : Outcome :=
  match collect system tree working options.inputs with
  | .error error => .stopped 2 error.message
  | .ok units =>
    match system.refusal? (.start options.workers) with
    | some message => .stopped 2 ("cannot start worker pool: " ++ message)
    | none =>
      report system options.stdout
        (units.map fun unit => (unit, unitResult system options tree unit))

end

end JackCompiler.CommandLine
