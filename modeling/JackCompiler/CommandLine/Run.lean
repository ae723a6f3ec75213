import JackCompiler.CommandLine.Usage

namespace JackCompiler.CommandLine

/-- What a reader of the command line makes of the words after the program's name. -/
inductive Reading
  | compile (options : Options)
  | show (text : String)
  | refuse (message : String)

def runWith (read : List String → Reading) (system : System) (tree : FileTree) (working : Path)
    (words : List String) : Outcome :=
  match read words with
  | .compile options => execute system options tree working
  | .show text => ⟨0, text ++ "\n", [], []⟩
  | .refuse message => .stopped 1 message

/-- One such reader. What is known of runs is known whatever options it finds. -/
def readUsage (words : List String) : Reading :=
  match request words with
  | .error fault => .refuse fault.message
  | .ok .help => .show help
  | .ok .version => .show version
  | .ok (.compile options) => .compile options

def run : FileTree → Path → List String → Outcome := runWith readUsage .usual

end JackCompiler.CommandLine
