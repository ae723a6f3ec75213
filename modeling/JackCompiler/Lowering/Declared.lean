import JackCompiler.Lowering.Scope

namespace JackCompiler.Lowering

structure Declaration where
  tree : Tree
  nested : Bool

mutual

def declarationsFrom (nested : Bool) : Tree → List Declaration → List Declaration
  | .node number .subroutineDec token children, done =>
    ⟨.node number .subroutineDec token children, nested⟩ ::
      declarationsAllFrom true children done
  | .node _ _ _ children, done => declarationsAllFrom nested children done

def declarationsAllFrom (nested : Bool) : List Tree → List Declaration → List Declaration
  | [], done => done
  | tree :: trees, done => declarationsAllFrom nested trees (declarationsFrom nested tree done)

end

def declarations (tree : Tree) : List Declaration := (declarationsFrom false tree []).reverse

def Declaration.kindOf? (declaration : Declaration) (name : String) :
    Lower (Option SubroutineKind) := do
  if (← childValue declaration.tree 2) = name then
    return some (← SubroutineKind.ofName (← childValue declaration.tree 0))
  else
    return none

/-- The kind of the first subroutine that is declared under a name, `found` unless that is none.
Every declaration is read, but a nested one does not count. -/
def declaredKind (name : String) :
    List Declaration → Option SubroutineKind → Lower (Option SubroutineKind)
  | [], found => .ok found
  | declaration :: rest, found => do
    let kind ← declaration.kindOf? name
    declaredKind name rest (if declaration.nested then found else found.or kind)

end JackCompiler.Lowering
