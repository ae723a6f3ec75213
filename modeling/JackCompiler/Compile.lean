import JackCompiler.Lowering.Visit
import JackCompiler.Phrase.Numbering
import JackCompiler.Phrase.Parser

namespace JackCompiler

def compile (comments : Bool) (source : String) : Except CompileError Code := do
  let phrase ← parse .classDeclaration (items source.toList)
  lower comments phrase.toTree

def compileToText (comments : Bool) (source : String) : Except CompileError String :=
  (compile comments source).map Code.text

/-- What compiling a source leaves in a sink, and how it ends. -/
def compileInto (comments : Bool) (source sink : String) : String × Except CompileError Unit :=
  match compile comments source with
  | .ok code => (code.writeTo sink, .ok ())
  | .error error => (sink, .error error)

theorem compileInto_eq (comments : Bool) (source sink : String) :
    compileInto comments source sink =
      match compileToText comments source with
      | .ok text => (sink ++ text, .ok ())
      | .error error => (sink, .error error) := by
  rw [compileInto, compileToText]
  cases compile comments source with
  | error error => rfl
  | ok code => exact congrArg (·, _) (code.writeTo_eq sink)

end JackCompiler
