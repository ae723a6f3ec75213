import JackCompiler.Lowering.Parts
import JackCompiler.Symbols

namespace JackCompiler

inductive SubroutineKind
  | constructor
  | function
  | method
  deriving DecidableEq

namespace SubroutineKind

def name : SubroutineKind → String
  | .constructor => "constructor"
  | .function => "function"
  | .method => "method"

def ofName (text : String) : Except CompileError SubroutineKind :=
  match text with
  | "constructor" => .ok .constructor
  | "function" => .ok .function
  | "method" => .ok .method
  | _ => .error (.invariant (.unknownSubroutineKind text))

end SubroutineKind

structure Subroutine where
  kind : SubroutineKind
  returnType : String
  name : String

structure Scope where
  className : Option String
  subroutine : Option Subroutine
  classVariables : SymbolTable
  subroutineVariables : SymbolTable

namespace Lowering

def outermost : Scope := ⟨none, none, .empty, .empty⟩

def classNameOf (scope : Scope) : Lower String :=
  match scope.className with
  | some name => .ok name
  | none => fail .outsideClass

def subroutineOf (scope : Scope) : Lower Subroutine :=
  match scope.subroutine with
  | some subroutine => .ok subroutine
  | none => fail .outsideSubroutine

def resolve (scope : Scope) (name : String) : Option Variable :=
  lookup scope.subroutineVariables scope.classVariables name

def variableOf (scope : Scope) (tree : Tree) : Lower Variable :=
  match tree.token? with
  | none => fail (.missingValue tree.kind)
  | some token =>
    match resolve scope token.value with
    | some found => .ok found
    | none => .error (.undeclaredSymbol token.line token.value)

def enterClass (tree : Tree) (scope : Scope) : Lower Scope := do
  if scope.className.isSome then
    fail .nestedClass
  else
    let name ← childValue tree 1
    return { scope with className := some name, classVariables := .empty }

def leaveClass (scope : Scope) : Scope :=
  { scope with className := none, classVariables := .empty }

def enterSubroutine (tree : Tree) (scope : Scope) : Lower Scope := do
  if scope.subroutine.isSome then
    fail .nestedSubroutine
  else
    let kind ← SubroutineKind.ofName (← childValue tree 0)
    let returnType ← childValue tree 1
    let name ← childValue tree 2
    let table ←
      match kind with
      | .method => do
        let className ← classNameOf scope
        SymbolTable.empty.declare .argument className "this"
      | .constructor | .function => pure .empty
    return { scope with
      subroutine := some ⟨kind, returnType, name⟩
      subroutineVariables := table }

def leaveSubroutine (scope : Scope) : Scope :=
  { scope with subroutine := none, subroutineVariables := .empty }

def enter (tree : Tree) (scope : Scope) : Lower Scope :=
  match tree.kind with
  | .classDec => enterClass tree scope
  | .subroutineDec => enterSubroutine tree scope
  | _ => .ok scope

def declaredNames (tree : Tree) : List String :=
  ((tree.children.drop 2).filter (·.kind == .identifier)).filterMap Tree.value?

def declareAll (kind : VariableKind) (typeName : String) :
    List String → SymbolTable → Lower SymbolTable
  | [], table => .ok table
  | name :: names, table => do
    declareAll kind typeName names (← table.declare kind typeName name)

def classVariableKind (text : String) : Lower VariableKind :=
  match text with
  | "static" => .ok .static
  | "field" => .ok .field
  | _ => fail (.unknownClassVariableKind text)

def declareClassVariables (tree : Tree) (scope : Scope) : Lower Scope := do
  let kind ← classVariableKind (← childValue tree 0)
  let typeName ← childValue tree 1
  let table ← declareAll kind typeName (declaredNames tree) scope.classVariables
  return { scope with classVariables := table }

def declareLocals (tree : Tree) (scope : Scope) : Lower Scope := do
  let typeName ← childValue tree 1
  let table ← declareAll .localVariable typeName (declaredNames tree) scope.subroutineVariables
  return { scope with subroutineVariables := table }

def declareParameterPairs : List Tree → SymbolTable → Lower SymbolTable
  | [], table => .ok table
  | [_], _ => fail .parameterWithoutName
  | type :: name :: rest, table => do
    let typeName ← valueOf type
    declareParameterPairs rest (← table.declare .argument typeName (← valueOf name))

def declareParameters (tree : Tree) (scope : Scope) : Lower Scope := do
  let parts := tree.children.filter (·.kind != .symbol)
  let table ← declareParameterPairs parts scope.subroutineVariables
  return { scope with subroutineVariables := table }

end Lowering

end JackCompiler
