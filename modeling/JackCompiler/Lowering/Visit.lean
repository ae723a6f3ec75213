import JackCompiler.Lowering.Expression
import JackCompiler.Lowering.Statement

namespace JackCompiler.Lowering

/-- What does not change while a tree is lowered: whether markers are wanted, and the subroutines
that are declared around it. -/
structure Setting where
  comments : Bool
  declared : List Declaration

def inScope (scope : Scope) (code : Lower Code) : Lower (Code × Scope) := do
  return (← code, scope)

def leave (setting : Setting) (tree : Tree) (scope : Scope) (fragments : List Code) :
    Lower (Code × Scope) :=
  match tree.kind with
  | .start | .statements | .expression | .expressionList => .ok (fragments.flatten, scope)
  | .classDec => do
    let name ← classNameOf scope
    return (marker setting.comments name ++ fragments.flatten ++
      marker setting.comments ("~" ++ name), leaveClass scope)
  | .classVarDec => do
    return ([], ← declareClassVariables tree scope)
  | .subroutineDec => .ok (fragments.flatten, leaveSubroutine scope)
  | .parameterList => do
    return ([], ← declareParameters tree scope)
  | .varDec => do
    return ([], ← declareLocals tree scope)
  | .subroutineBody => inScope scope (lowerBody setting.comments scope tree fragments)
  | .letStatement => .ok (marker setting.comments "let" ++ fragments.flatten, scope)
  | .assignment => inScope scope (lowerAssignment scope tree fragments)
  | .arrayAssignment => inScope scope (lowerArrayAssignment scope tree fragments)
  | .ifStatement => inScope scope (lowerIf setting.comments scope tree fragments)
  | .whileStatement => inScope scope (lowerWhile setting.comments scope tree fragments)
  | .doStatement => inScope scope (lowerDo setting.comments fragments)
  | .returnStatement => inScope scope (lowerReturn setting.comments scope tree fragments)
  | .term => inScope scope (lowerTerm scope tree fragments)
  | .binaryOp => inScope scope (lowerBinary tree fragments)
  | .unaryOp => inScope scope (lowerUnary tree fragments)
  | .subroutineCall => inScope scope (lowerCall setting.declared scope tree fragments)
  | .arrayAccess => inScope scope (lowerArrayAccess scope tree fragments)
  | .keyword | .symbol | .identifier | .integerConstant | .stringConstant => .ok ([], scope)

mutual

def visit (setting : Setting) : Tree → Scope → Lower (Code × Scope)
  | .node number kind token children, scope => do
    let scope ← enter (.node number kind token children) scope
    let (fragments, scope) ← visitAll setting children scope []
    leave setting (.node number kind token children) scope fragments

def visitAll (setting : Setting) :
    List Tree → Scope → List Code → Lower (List Code × Scope)
  | [], scope, done => .ok (done.reverse, scope)
  | tree :: trees, scope, done => do
    let (code, scope) ← visit setting tree scope
    visitAll setting trees scope (code :: done)

end

end JackCompiler.Lowering

namespace JackCompiler

def lowerWithin (comments : Bool) (root tree : Tree) : Except CompileError Code := do
  let (code, _) ← Lowering.visit ⟨comments, Lowering.declarations root⟩ tree Lowering.outermost
  return code

def lower (comments : Bool) (tree : Tree) : Except CompileError Code :=
  lowerWithin comments tree tree

end JackCompiler
