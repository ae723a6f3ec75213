import JackCompiler.Tree

namespace JackCompiler

structure ForestNode where
  parent : Option Nat
  kind : NodeKind
  token : Option Token
  children : List Nat

structure Forest where
  nodes : Array ForestNode

namespace Forest

def empty : Forest := ⟨#[]⟩

def size (forest : Forest) : Nat := forest.nodes.size

def node? (forest : Forest) (number : Nat) : Option ForestNode := forest.nodes[number]?

def parent? (forest : Forest) (number : Nat) : Option Nat :=
  (forest.node? number).bind ForestNode.parent

def children (forest : Forest) (number : Nat) : List Nat :=
  ((forest.node? number).map ForestNode.children).getD []

def modifyChildren (forest : Forest) (number : Nat) (change : List Nat → List Nat) : Forest :=
  ⟨forest.nodes.modify number fun node => { node with children := change node.children }⟩

def setParent (forest : Forest) (number parent : Nat) : Forest :=
  ⟨forest.nodes.modify number fun node => { node with parent := some parent }⟩

/-- A new node without children, the last child of `parent` if that is given; its number is the
size of the forest before. -/
def add (forest : Forest) (parent : Option Nat) (kind : NodeKind) (token : Option Token) :
    Forest :=
  let number := forest.size
  let grown : Forest := ⟨forest.nodes.push ⟨parent, kind, token, []⟩⟩
  match parent with
  | some parent => grown.modifyChildren parent (· ++ [number])
  | none => grown

/-- Moves a node, with all below it, to the end of another node's children. -/
def adopt (forest : Forest) (parent child : Nat) : Forest :=
  let freed :=
    match forest.parent? child with
    | some old => forest.modifyChildren old (·.filter (· != child))
    | none => forest
  (freed.setParent child parent).modifyChildren parent (· ++ [child])

def pivot (forest : Forest) (operator : Nat) (operands : List Nat) : Forest :=
  operands.foldl (fun forest operand => forest.adopt operator operand) forest

def ascend (forest : Forest) : Nat → Nat → Nat
  | 0, number => number
  | steps + 1, number =>
    match forest.parent? number with
    | some parent => forest.ascend steps parent
    | none => number

def root (forest : Forest) (number : Nat) : Nat := forest.ascend forest.size number

/-- Visits the pending nodes, the next one first, at most `steps` of them; `done` holds those
visited, the last one first. -/
def visit (forest : Forest) : Nat → List Nat → List Nat → List Nat
  | steps + 1, number :: pending, done =>
    forest.visit steps (forest.children number ++ pending) (number :: done)
  | _, _, done => done.reverse

def descendants (forest : Forest) (number : Nat) : List Nat :=
  forest.visit forest.size [number] []

def subtreeWithin (forest : Forest) : Nat → Nat → Tree
  | 0, number =>
    .node number ((forest.node? number).map ForestNode.kind |>.getD .start)
      ((forest.node? number).bind ForestNode.token) []
  | depth + 1, number =>
    .node number ((forest.node? number).map ForestNode.kind |>.getD .start)
      ((forest.node? number).bind ForestNode.token)
      ((forest.children number).map (forest.subtreeWithin depth))

def subtree (forest : Forest) (number : Nat) : Tree := forest.subtreeWithin forest.size number

def terminals (forest : Forest) (number : Nat) : List Token := (forest.subtree number).terminals

def dump (forest : Forest) (number : Nat) : String := (forest.subtree number).dump

end Forest

namespace Tree

mutual

def enterNodes (parent : Option Nat) : Tree → Array ForestNode → Array ForestNode
  | .node number kind token children, nodes =>
    enterAllNodes number children
      (nodes.setIfInBounds number ⟨parent, kind, token, children.map Tree.number⟩)

def enterAllNodes (parent : Nat) : List Tree → Array ForestNode → Array ForestNode
  | [], nodes => nodes
  | tree :: trees, nodes => enterAllNodes parent trees (enterNodes (some parent) tree nodes)

end

/-- The forest that holds one tree, whose nodes are numbered from zero. -/
def toForest (tree : Tree) : Forest :=
  ⟨tree.enterNodes none (Array.replicate tree.size ⟨none, .start, none, []⟩)⟩

end Tree

end JackCompiler
