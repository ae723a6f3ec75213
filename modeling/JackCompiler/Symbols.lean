import JackCompiler.Error
import JackCompiler.Instruction

namespace JackCompiler

inductive VariableKind
  | static
  | field
  | argument
  | localVariable
  deriving DecidableEq

namespace VariableKind

def name : VariableKind → String
  | .static => "static"
  | .field => "field"
  | .argument => "argument"
  | .localVariable => "local"

def segment : VariableKind → Segment
  | .static => .static
  | .field => .this
  | .argument => .argument
  | .localVariable => .localVariable

end VariableKind

structure Variable where
  kind : VariableKind
  typeName : String
  name : String
  ordinal : UInt16
  deriving DecidableEq

namespace Variable

def push (entry : Variable) : Instruction :=
  .push entry.kind.segment entry.ordinal

def pop (entry : Variable) : Instruction :=
  .pop entry.kind.segment entry.ordinal

end Variable

structure SymbolTable where
  entries : List Variable

namespace SymbolTable

def empty : SymbolTable := ⟨[]⟩

def size (table : SymbolTable) : Nat := table.entries.length

def get? (table : SymbolTable) (name : String) : Option Variable :=
  table.entries.find? (·.name == name)

def count (table : SymbolTable) (kind : VariableKind) : UInt16 :=
  UInt16.ofNat (table.entries.countP (·.kind == kind))

/-- Adds a variable, whose name must be new in the scope, and returns it. -/
def add (table : SymbolTable) (kind : VariableKind) (typeName name : String) :
    Except CompileError Variable × SymbolTable :=
  match table.get? name with
  | some _ => (.error (.duplicateSymbol name), table)
  | none =>
    let entry := ⟨kind, typeName, name, table.count kind⟩
    (.ok entry, ⟨entry :: table.entries⟩)

def clear (_ : SymbolTable) : SymbolTable := .empty

def declare (table : SymbolTable) (kind : VariableKind) (typeName name : String) :
    Except CompileError SymbolTable :=
  let (added, grown) := table.add kind typeName name
  added.map fun _ => grown

end SymbolTable

/-- What a name means in a subroutine: its own variables hide those of the class. -/
def lookup (subroutine classScope : SymbolTable) (name : String) : Option Variable :=
  (subroutine.get? name).or (classScope.get? name)

end JackCompiler
