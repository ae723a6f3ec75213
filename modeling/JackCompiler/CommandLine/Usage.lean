import JackCompiler.CommandLine.Units

namespace JackCompiler.CommandLine

def version : String := "0.1.0"

def usageLines : List String :=
  ["Usage:",
    "  jackc [options] <input>...",
    "  jackc (-h | --help)",
    "  jackc --version"]

def usage : String := String.intercalate "\n" usageLines

def help : String :=
  String.intercalate "\n"
    (["Jack compiler: translates .jack classes into VM code.", ""] ++ usageLines ++
      ["",
        "Each input is a .jack file or a directory whose .jack files are compiled.",
        "Output is written next to each source as <name>.vm.",
        "",
        "Options:",
        "  -h --help      Show this screen.",
        "  --version      Show version.",
        "  --comments     Emit // marker comments in the generated code.",
        "  --stdout       Print the generated code instead of writing .vm files.",
        "  --jobs=<n>     Worker threads, 0 for one per core [default: 0]."])

inductive Flag
  | help
  | version
  | comments
  | stdout
  | jobs
  deriving DecidableEq

def Flag.longName : Flag → String
  | .help => "--help"
  | .version => "--version"
  | .comments => "--comments"
  | .stdout => "--stdout"
  | .jobs => "--jobs"

def flags : List Flag := [.help, .version, .comments, .stdout, .jobs]

inductive UsageFault
  | unknownFlag (flag : String) (meant : Option String)
  | needlessValue (flag value : String)
  | missingValue (flag : String)
  | mismatch
  | badNumber (flag value : String)
  deriving DecidableEq

def UsageFault.message : UsageFault → String
  | .unknownFlag flag none => "Unknown flag: '" ++ flag ++ "'\n\n" ++ usage
  | .unknownFlag flag (some meant) =>
    "Unknown flag: '" ++ flag ++ "'. Did you mean '" ++ meant ++ "'?\n\n" ++ usage
  | .needlessValue flag value =>
    "Flag '" ++ flag ++ "' cannot have an argument, but found '" ++ value ++ "'.\n\n" ++ usage
  | .missingValue flag =>
    "Expected argument for flag '" ++ flag ++ "' but reached end of arguments.\n\n" ++ usage
  | .mismatch => "Invalid arguments.\n\n" ++ usage
  | .badNumber flag value =>
    "Could not deserialize '" ++ value ++ "' to u64 for '" ++ flag ++ "'."

def nextDistances (c : Char) : List Char → List Nat → Nat → List Nat
  | d :: ds, diagonal :: above :: row, left =>
    let distance := min (min (left + 1) (above + 1)) (diagonal + if c = d then 0 else 1)
    distance :: nextDistances c ds (above :: row) distance
  | _, _, _ => []

def editDistance (source target : List Char) : Nat :=
  let rows := source.foldl (fun (row, left) c =>
    ((left + 1) :: nextDistances c target row (left + 1), left + 1))
    (List.range (target.length + 1), 0)
  rows.1.getLastD 0

def nearestFlag (name : String) : Option Flag :=
  let distance (flag : Flag) : Nat := editDistance name.toList flag.longName.toList
  let near := flags.filter fun flag => distance flag < 3
  near.foldl (fun best flag =>
    match best with
    | none => some flag
    | some other => if distance flag < distance other then some flag else some other) none

inductive Argument
  | shortFlags (letters : List Char)
  | longFlag (name : String) (value : Option String)
  | input
  deriving DecidableEq

def isDark (c : Char) : Bool := !isBlank c

def isLongBody (body : List Char) : Bool :=
  let word := body.takeWhile isDark
  !word.isEmpty &&
    ((body.dropWhile isDark).isEmpty || ((word.drop 1).contains '=' && !body.contains '\n'))

def splitValue (word : List Char) : String × Option String :=
  let name := String.ofList (word.takeWhile (· != '='))
  match word.dropWhile (· != '=') with
  | _ :: value => (name, some (String.ofList value))
  | [] => (name, none)

def classify (word : String) : Argument :=
  match word.toList with
  | '-' :: '-' :: body =>
    if isLongBody body then
      let (name, value) := splitValue ('-' :: '-' :: body)
      .longFlag name value
    else
      .input
  | '-' :: letter :: letters =>
    if letters.all isDark then .shortFlags (letter :: letters) else .input
  | _ => .input

structure Words where
  flags : List Flag
  jobs : String
  inputs : List String

def shortFlags (letters : List Char) : Except UsageFault (List Flag) :=
  letters.mapM fun letter =>
    if letter = 'h' then
      .ok .help
    else
      .error (.unknownFlag ("-" ++ String.singleton letter) none)

def longFlag (name : String) : Except UsageFault Flag :=
  match flags.find? (·.longName == name) with
  | some flag => .ok flag
  | none => .error (.unknownFlag name ((nearestFlag name).map Flag.longName))

/-- Takes the words from the left. After two hyphens by themselves every word is an input. -/
def readWords (seen : Words) : List String → Except UsageFault Words
  | [] => .ok seen
  | word :: rest =>
    if word = "--" then
      .ok { seen with inputs := seen.inputs ++ rest }
    else
      match classify word with
      | .input => readWords { seen with inputs := seen.inputs ++ [word] } rest
      | .shortFlags letters => do
        let given ← shortFlags letters
        readWords { seen with flags := seen.flags ++ given } rest
      | .longFlag name value => do
        let flag ← longFlag name
        let seen := { seen with flags := seen.flags ++ [flag] }
        match flag, value, rest with
        | .jobs, some value, rest => readWords { seen with jobs := value } rest
        | .jobs, none, value :: rest => readWords { seen with jobs := value } rest
        | .jobs, none, [] => .error (.missingValue name)
        | _, some value, _ => .error (.needlessValue name value)
        | _, none, rest => readWords seen rest

inductive Request
  | help
  | version
  | compile (options : Options)
  deriving DecidableEq

def isUse (words : Words) : Bool :=
  if words.inputs.isEmpty then
    words.flags == [.help] || words.flags == [.version]
  else
    decide words.flags.Nodup

def maxWorkers : Nat := 18446744073709551615

/-- The number of workers: digits, after at most one plus sign, of a number of 64 bits. A blank
text is zero. -/
def workerCount (text : String) : Except UsageFault Nat :=
  if text.toList.all isBlank then
    .ok 0
  else
    let digits :=
      match text.toList with
      | '+' :: digits => digits
      | digits => digits
    if !digits.isEmpty && digits.all isDigit && decimalValue digits ≤ maxWorkers then
      .ok (decimalValue digits)
    else
      .error (.badNumber "--jobs" text)

def request (words : List String) : Except UsageFault Request := do
  let words ← readWords ⟨[], "0", []⟩ words
  if !isUse words then
    throw .mismatch
  else if words.flags.contains .help then
    return .help
  else if words.flags.contains .version then
    return .version
  else
    let workers ← workerCount words.jobs
    return .compile
      ⟨words.flags.contains .comments, words.flags.contains .stdout, workers, words.inputs⟩

end JackCompiler.CommandLine
