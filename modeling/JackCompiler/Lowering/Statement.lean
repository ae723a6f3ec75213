import JackCompiler.Lowering.Scope

namespace JackCompiler.Lowering

def marker (comments : Bool) (text : String) : Code :=
  if comments then [.comment text] else []

/-- Labels hold the class and the number of the node, so no two nodes of a program share one. -/
def labelName (scope : Scope) (tag : String) (tree : Tree) : Lower String := do
  return (← classNameOf scope) ++ "." ++ tag ++ "$" ++ toString tree.number

def lowerAssignment (scope : Scope) (tree : Tree) (fragments : List Code) : Lower Code := do
  let target ← variableOf scope (← child tree 0)
  let value ← fragment fragments 2
  return value ++ [target.pop]

def lowerArrayAssignment (scope : Scope) (tree : Tree) (fragments : List Code) : Lower Code := do
  let array ← variableOf scope (← child tree 0)
  let index ← fragment fragments 2
  let value ← fragment fragments 5
  return array.push :: index ++ [.arithmetic .add] ++ value ++
    [.pop .temp 0, .pop .pointer 1, .push .temp 0, .pop .that 0]

def blockPositions (tree : Tree) : List Nat :=
  (tree.children.zipIdx.filter fun part => part.1.kind == .statements).map Prod.snd

def lowerIf (comments : Bool) (scope : Scope) (tree : Tree) (fragments : List Code) :
    Lower Code := do
  let otherwise ← labelName scope "IF_FALSE" tree
  let done ← labelName scope "IF_END" tree
  let condition ← fragment fragments 2
  let fragments := fragments.set 2 []
  match blockPositions tree with
  | [] => fail .ifWithoutBody
  | first :: more =>
    let body ← fragment fragments first
    let alternative ←
      match more with
      | [] => pure []
      | second :: _ => do
        let code ← fragment fragments second
        pure (code ++ [.goto done])
    return marker comments "if" ++ condition ++ [.arithmetic .not, .ifGoto otherwise] ++ body ++
      [.goto done, .label otherwise] ++ alternative ++ [.label done]

def lowerWhile (comments : Bool) (scope : Scope) (tree : Tree) (fragments : List Code) :
    Lower Code := do
  let start ← labelName scope "WHILE_START" tree
  let done ← labelName scope "WHILE_END" tree
  let condition ← fragment fragments 2
  let body ← fragment fragments 5
  return marker comments "while" ++ [.label start] ++ condition ++
    [.arithmetic .not, .ifGoto done] ++ body ++ [.goto start, .label done]

def lowerDo (comments : Bool) (fragments : List Code) : Lower Code := do
  return marker comments "do" ++ (← fragment fragments 1) ++ [.pop .temp 0]

def lowerReturn (comments : Bool) (scope : Scope) (tree : Tree) (fragments : List Code) :
    Lower Code := do
  let subroutine ← subroutineOf scope
  let value ←
    match subroutine.returnType == "void", tree.children.any (·.kind == .expression) with
    | true, false => pure [.push .constant 0]
    | false, true => fragment fragments 1
    | true, true => fail (.valueFromVoid subroutine.name)
    | false, false => fail (.noValueReturned subroutine.name subroutine.returnType)
  return marker comments "return" ++ value ++ [.ret]

def endsWithReturn (body : Tree) : Bool :=
  match body.children.reverse.find? (·.kind == .statements) with
  | none => false
  | some statements => statements.children.getLast?.any (·.kind == .returnStatement)

/-- A constructor allocates its object, of at least one word; a method takes its object from the
first argument. -/
def prologue (scope : Scope) : SubroutineKind → Code
  | .constructor =>
    [.push .constant (max (scope.classVariables.count .field) 1), .call "Memory.alloc" 1,
      .pop .pointer 0]
  | .method => [.push .argument 0, .pop .pointer 0]
  | .function => []

def epilogue (subroutine : Subroutine) (body : Tree) : Code :=
  if subroutine.returnType == "void" && !endsWithReturn body then
    [.push .constant 0, .ret]
  else
    []

def lowerBody (comments : Bool) (scope : Scope) (tree : Tree) (fragments : List Code) :
    Lower Code := do
  let className ← classNameOf scope
  let subroutine ← subroutineOf scope
  return marker comments subroutine.kind.name ++
    [.function (className ++ "." ++ subroutine.name)
      (scope.subroutineVariables.count .localVariable)] ++
    prologue scope subroutine.kind ++ fragments.flatten ++ epilogue subroutine tree

end JackCompiler.Lowering
