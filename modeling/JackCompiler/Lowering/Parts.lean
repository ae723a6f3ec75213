import JackCompiler.Error
import JackCompiler.Instruction
import JackCompiler.Tree

namespace JackCompiler.Lowering

abbrev Lower := Except CompileError

def fail {α : Type} (fault : LoweringFault) : Lower α := .error (.invariant fault)

def child (tree : Tree) (index : Nat) : Lower Tree :=
  match tree.children[index]? with
  | some child => .ok child
  | none => fail (.missingChild tree.kind index)

def valueOf (tree : Tree) : Lower String :=
  match tree.value? with
  | some value => .ok value
  | none => fail (.missingValue tree.kind)

def childValue (tree : Tree) (index : Nat) : Lower String := do
  valueOf (← child tree index)

def fragment (fragments : List Code) (index : Nat) : Lower Code :=
  match fragments[index]? with
  | some code => .ok code
  | none => fail (.missingFragment index)

end JackCompiler.Lowering
