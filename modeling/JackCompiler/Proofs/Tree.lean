import JackCompiler.Tree

namespace JackCompiler

/-- A node of a tree: its root, or a node of one of its children. -/
inductive Part : Tree → Tree → Prop
  | self (tree : Tree) : Part tree tree
  | inside {node child tree : Tree} : child ∈ tree.children → Part node child → Part node tree

theorem Part.trans {leaf node tree : Tree} (inner : Part leaf node) (part : Part node tree) :
    Part leaf tree := by
  induction part with
  | self => exact inner
  | inside member _ ih => exact .inside member ih

namespace Tree

mutual

def nodes : Tree → List Tree
  | .node number kind token? children =>
    .node number kind token? children :: nodesAll children

def nodesAll : List Tree → List Tree
  | [] => []
  | tree :: trees => tree.nodes ++ nodesAll trees

end

mutual

/-- The nodes that carry a token: a binary operator after those of its first operand, any other node
before those below it. -/
def carriers : Tree → List Tree
  | .node number .binaryOp (some token) (first :: rest) =>
    first.carriers ++ .node number .binaryOp (some token) (first :: rest) :: carriersAll rest
  | .node number kind (some token) children =>
    .node number kind (some token) children :: carriersAll children
  | .node _ _ none children => carriersAll children

def carriersAll : List Tree → List Tree
  | [] => []
  | tree :: trees => tree.carriers ++ carriersAll trees

end

def carries (tree : Tree) : Bool := tree.token?.isSome

theorem nodesAll_eq (trees : List Tree) : nodesAll trees = trees.flatMap nodes := by
  induction trees with
  | nil => rfl
  | cons tree trees ih => rw [nodesAll, ih, List.flatMap_cons]

theorem self_mem_nodes : (tree : Tree) → tree ∈ tree.nodes
  | .node _ _ _ _ => .head _

theorem mem_nodes_of_part {node tree : Tree} (part : Part node tree) : node ∈ tree.nodes := by
  induction part with
  | self => exact self_mem_nodes _
  | @inside child tree member _ ih =>
    obtain ⟨number, kind, token?, children⟩ := tree
    rw [nodes, nodesAll_eq]
    exact .tail _ (List.mem_flatMap.mpr ⟨child, member, ih⟩)

mutual

theorem part_of_mem_nodes {node : Tree} : (tree : Tree) → node ∈ tree.nodes → Part node tree
  | .node number kind token? children, member => by
    rcases List.mem_cons.mp member with rfl | member
    · exact .self _
    · obtain ⟨child, inside, part⟩ := part_of_mem_nodesAll children member
      exact .inside inside part

theorem part_of_mem_nodesAll {node : Tree} :
    (trees : List Tree) → node ∈ nodesAll trees → ∃ tree ∈ trees, Part node tree
  | tree :: trees, member => by
    rcases List.mem_append.mp member with member | member
    · exact ⟨tree, .head _, part_of_mem_nodes tree member⟩
    · obtain ⟨other, inside, part⟩ := part_of_mem_nodesAll trees member
      exact ⟨other, .tail _ inside, part⟩

end

theorem mem_nodes {node tree : Tree} : node ∈ tree.nodes ↔ Part node tree :=
  ⟨part_of_mem_nodes tree, mem_nodes_of_part⟩

mutual

private theorem numbersFrom_eq : (tree : Tree) → (done : List Nat) →
    tree.numbersFrom done = (tree.nodes.map number).reverse ++ done
  | .node number kind token? children, done => by
    rw [numbersFrom, numbersAllFrom_eq children]
    simp [nodes, Tree.number]

private theorem numbersAllFrom_eq : (trees : List Tree) → (done : List Nat) →
    numbersAllFrom trees done = ((nodesAll trees).map number).reverse ++ done
  | [], done => rfl
  | tree :: trees, done => by
    rw [numbersAllFrom, numbersFrom_eq tree, numbersAllFrom_eq trees]
    simp [nodesAll]

end

theorem preorder_eq (tree : Tree) : tree.preorder = tree.nodes.map number := by
  rw [preorder, numbersFrom_eq]
  simp

mutual

private theorem countFrom_eq : (tree : Tree) → (counted : Nat) →
    tree.countFrom counted = tree.nodes.length + counted
  | .node number kind token? children, counted => by
    rw [countFrom, countAllFrom_eq children]
    simp [nodes]
    omega

private theorem countAllFrom_eq : (trees : List Tree) → (counted : Nat) →
    countAllFrom trees counted = (nodesAll trees).length + counted
  | [], counted => (Nat.zero_add counted).symm
  | tree :: trees, counted => by
    rw [countAllFrom, countFrom_eq tree, countAllFrom_eq trees]
    simp [nodesAll]
    omega

end

theorem size_eq (tree : Tree) : tree.size = tree.nodes.length := countFrom_eq tree 0

section Carriers

variable (number : Nat) {kind : NodeKind} (token : Token) {children : List Tree}

private theorem terminalsFrom_before (other : kind = .binaryOp → children = [])
    (done : List Token) :
    terminalsFrom (.node number kind (some token) children) done =
      terminalsAllFrom children (token :: done) := by
  -- Only a binary operator with operands comes after some of what is below it.
  rw [terminalsFrom]
  rintro first rest rfl rfl
  cases other rfl

private theorem carriers_before (other : kind = .binaryOp → children = []) :
    carriers (.node number kind (some token) children) =
      .node number kind (some token) children :: carriersAll children := by
  rw [carriers]
  rintro first rest rfl rfl
  cases other rfl

mutual

private theorem terminalsFrom_eq : (tree : Tree) → (done : List Token) →
    tree.terminalsFrom done = (tree.carriers.filterMap token?).reverse ++ done
  | .node number kind none children, done => by
    rw [terminalsFrom, carriers, terminalsAllFrom_eq children]
  | .node number kind (some token) [], done => by
    rw [terminalsFrom_before number token (fun _ => rfl),
      carriers_before number token (fun _ => rfl)]
    rfl
  | .node number kind (some token) (first :: rest), done => by
    by_cases operator : kind = .binaryOp
    · subst operator
      rw [terminalsFrom, carriers, terminalsFrom_eq first, terminalsAllFrom_eq rest]
      simp [Tree.token?]
    · rw [terminalsFrom_before number token (absurd · operator),
        carriers_before number token (absurd · operator), terminalsAllFrom_eq (first :: rest)]
      simp [Tree.token?]

private theorem terminalsAllFrom_eq : (trees : List Tree) → (done : List Token) →
    terminalsAllFrom trees done = ((carriersAll trees).filterMap token?).reverse ++ done
  | [], done => rfl
  | tree :: trees, done => by
    rw [terminalsAllFrom, terminalsFrom_eq tree, terminalsAllFrom_eq trees]
    simp [carriersAll]

end

theorem terminals_eq (tree : Tree) : tree.terminals = tree.carriers.filterMap token? := by
  rw [terminals, terminalsFrom_eq]
  simp

mutual

theorem carriers_perm : (tree : Tree) → tree.carriers.Perm (tree.nodes.filter carries)
  | .node number kind none children => by
    rw [carriers, nodes, List.filter_cons_of_neg Bool.false_ne_true]
    exact carriersAll_perm children
  | .node number kind (some token) [] => by
    rw [carriers_before number token (fun _ => rfl)]
    exact .rfl
  | .node number kind (some token) (first :: rest) => by
    have own : (nodes (.node number kind (some token) (first :: rest))).filter carries =
        .node number kind (some token) (first :: rest) ::
          (first.nodes.filter carries ++ (nodesAll rest).filter carries) := by
      rw [nodes, nodesAll, List.filter_cons_of_pos rfl, List.filter_append]
    rw [own]
    by_cases operator : kind = .binaryOp
    · subst operator
      -- The operator moves in front of what its first operand carries.
      rw [carriers]
      exact List.perm_middle.trans (.cons _ ((carriers_perm first).append (carriersAll_perm rest)))
    · rw [carriers_before number token (absurd · operator), carriersAll]
      exact .cons _ ((carriers_perm first).append (carriersAll_perm rest))

theorem carriersAll_perm :
    (trees : List Tree) → (carriersAll trees).Perm ((nodesAll trees).filter carries)
  | [] => .rfl
  | tree :: trees => by
    rw [carriersAll, nodesAll, List.filter_append]
    exact (carriers_perm tree).append (carriersAll_perm trees)

end

end Carriers

theorem mem_carriers {node tree : Tree} :
    node ∈ tree.carriers ↔ Part node tree ∧ node.carries = true := by
  rw [tree.carriers_perm.mem_iff, List.mem_filter, mem_nodes]

theorem map_token?_carriers (tree : Tree) :
    tree.carriers.map token? = tree.terminals.map some := by
  have each : ∀ node ∈ tree.carriers, node.carries = true := fun node member =>
    (mem_carriers.mp member).2
  rw [terminals_eq]
  generalize tree.carriers = all at each
  induction all with
  | nil => rfl
  | cons node all ih =>
    obtain ⟨token, found⟩ := Option.isSome_iff_exists.mp (each node (.head _))
    rw [List.map_cons, List.filterMap_cons, found,
      ih fun other member => each other (.tail _ member)]
    rfl

end Tree

end JackCompiler
