import JackCompiler.Proofs.Forest.Links
import JackCompiler.Proofs.Phrase.Numbering
import JackCompiler.Proofs.Tree
import Mathlib.Data.List.Perm.Basic

namespace JackCompiler

namespace Tree

mutual

def records (parent : Option Nat) : Tree → List (Nat × ForestNode)
  | .node number kind token? children =>
    (number, ⟨parent, kind, token?, children.map Tree.number⟩) :: recordsAll number children

def recordsAll (parent : Nat) : List Tree → List (Nat × ForestNode)
  | [] => []
  | tree :: trees => tree.records (some parent) ++ recordsAll parent trees

end

theorem records_eq (parent : Option Nat) : (tree : Tree) → tree.records parent =
    (tree.number, ⟨parent, tree.kind, tree.token?, tree.children.map number⟩) ::
      recordsAll tree.number tree.children
  | .node _ _ _ _ => rfl

theorem recordsAll_append (parent : Nat) (trees more : List Tree) :
    recordsAll parent (trees ++ more) = recordsAll parent trees ++ recordsAll parent more := by
  induction trees with
  | nil => rfl
  | cons tree trees ih => rw [List.cons_append, recordsAll, recordsAll, ih, List.append_assoc]

mutual

theorem records_numbers (parent : Option Nat) : (tree : Tree) →
    (tree.records parent).map Prod.fst = tree.nodes.map number
  | .node number _ _ children => congrArg (number :: ·) (recordsAll_numbers number children)

theorem recordsAll_numbers (parent : Nat) : (trees : List Tree) →
    (recordsAll parent trees).map Prod.fst = (nodesAll trees).map number
  | [] => rfl
  | tree :: trees => by
    rw [recordsAll, nodesAll, List.map_append, List.map_append, records_numbers _ tree,
      recordsAll_numbers parent trees]

end

theorem roots_sublist (parent : Nat) (trees : List Tree) :
    (trees.map number).Sublist ((recordsAll parent trees).map Prod.fst) := by
  induction trees with
  | nil => exact .slnil
  | cons tree trees ih =>
    rw [recordsAll, records_eq]
    exact .cons_cons _ (ih.trans (by simp))

theorem recordsAll_middle (parent : Nat) (left : List Tree) (tree : Tree) (right : List Tree) :
    (recordsAll parent (left ++ tree :: right)).Perm
      (tree.records (some parent) ++ recordsAll parent (left ++ right)) := by
  rw [recordsAll_append, recordsAll, recordsAll_append, ← List.append_assoc, ← List.append_assoc]
  exact List.perm_append_comm.append_right _

end Tree

open JackCompiler.Tree (records recordsAll)

namespace Forest

variable {forest before middle after : Forest} {parent number : Nat}
  {rows others changed : List (Nat × ForestNode)} {trees more : List Tree}

/-- The nodes that are new in a forest, each once, and what it holds of them. -/
structure Adds (before after : Forest) (rows : List (Nat × ForestNode)) : Prop where
  size_le : before.size ≤ after.size
  numbers : (rows.map Prod.fst).Perm (List.range' before.size (after.size - before.size))
  held : ∀ row ∈ rows, after.node? row.1 = some row.2

namespace Adds

theorem perm (adds : Adds before after rows) (same : rows.Perm others) :
    Adds before after others where
  size_le := adds.size_le
  numbers := (same.map _).symm.trans adds.numbers
  held row member := adds.held row (same.mem_iff.mpr member)

theorem new (adds : Adds before after rows) {row : Nat × ForestNode} (member : row ∈ rows) :
    before.size ≤ row.1 ∧ row.1 < after.size := by
  have bounds := List.mem_range'_1.mp (adds.numbers.mem_iff.mp (List.mem_map_of_mem member))
  have grows := adds.size_le
  omega

theorem nodup (adds : Adds before after rows) : (rows.map Prod.fst).Nodup :=
  adds.numbers.nodup_iff.mpr List.nodup_range'

theorem apart {row other : Nat × ForestNode} (adds : Adds before after (row :: rows))
    (member : other ∈ rows) : other.1 ≠ row.1 := fun same =>
  (List.nodup_cons.mp adds.nodup).1 (same ▸ List.mem_map_of_mem member)

theorem trans (first : Adds before middle rows) (second : Adds middle after others)
    (held : ∀ row ∈ changed, after.node? row.1 = some row.2)
    (same : changed.map Prod.fst = rows.map Prod.fst) :
    Adds before after (changed ++ others) where
  size_le := first.size_le.trans second.size_le
  numbers := by
    have bound := first.size_le
    have bound' := second.size_le
    rw [show after.size - before.size = (middle.size - before.size) + (after.size - middle.size) by
      omega, ← List.range'_append_1, Nat.add_sub_cancel' bound, List.map_append, same]
    exact first.numbers.append second.numbers
  held row member := (List.mem_append.mp member).elim (held row) (second.held row)

theorem none (same : after.size = before.size) : Adds before after [] where
  size_le := same.ge
  numbers := by simp [same]
  held := by simp

theorem change (adds : Adds before middle rows) (size : after.size = middle.size)
    (held : ∀ row ∈ changed, after.node? row.1 = some row.2)
    (same : changed.map Prod.fst = rows.map Prod.fst) : Adds before after changed := by
  simpa using adds.trans (.none size) held same

end Adds

/-- A forest has grown by some trees, the last children of one node: their nodes are all that is
new, and of the old nodes only that one is changed. -/
structure Planted (before after : Forest) (parent : Nat) (trees : List Tree) : Prop where
  parent_lt : parent < before.size
  adds : Adds before after (recordsAll parent trees)
  kept : ∀ number < before.size, after.node? number = (before.node? number).map fun node =>
    { node with children :=
        node.children ++ if number = parent then trees.map Tree.number else [] }

theorem size_add (forest : Forest) (under : Option Nat) (kind : NodeKind) (token? : Option Token) :
    (forest.add under kind token?).size = forest.size + 1 := by
  cases under <;> simp [add, size, modifyChildren]

theorem node?_add_size (there : parent < forest.size) (kind : NodeKind) (token? : Option Token) :
    (forest.add (some parent) kind token?).node? forest.size =
      some ⟨some parent, kind, token?, []⟩ :=
  (node?_add (by simpa using there) _).trans (if_pos rfl)

namespace Planted

theorem node?_of_apart (planted : Planted before after parent trees) (old : number < before.size)
    (apart : number ≠ parent) : after.node? number = before.node? number := by
  simp [planted.kept number old, apart]

theorem nil (there : parent < forest.size) : Planted forest forest parent [] where
  parent_lt := there
  adds := .none rfl
  kept := by simp

theorem leaf (there : parent < forest.size) (kind : NodeKind) (token? : Option Token) :
    Planted forest (forest.add (some parent) kind token?) parent
      [.node forest.size kind token? []] := by
  refine ⟨there, ⟨?_, ?_, ?_⟩, fun number old => ?_⟩
  · simp [size_add]
  · simp [recordsAll, records, size_add]
  · simpa [recordsAll, records] using node?_add_size there kind token?
  · rw [node?_add (by simpa using there), if_neg old.ne]
    simp [eq_comm]

theorem append (first : Planted before middle parent trees)
    (second : Planted middle after parent more) : Planted before after parent (trees ++ more) where
  parent_lt := first.parent_lt
  adds := by
    rw [Tree.recordsAll_append]
    refine first.adds.trans second.adds (fun row member => ?_) rfl
    have bounds := first.adds.new member
    have there := first.parent_lt
    rw [second.node?_of_apart bounds.2 (by omega), first.adds.held row member]
  kept number old := by
    rw [second.kept number (old.trans_le first.adds.size_le), first.kept number old, Option.map_map]
    congr 1
    funext node
    by_cases own : number = parent <;> simp [own]

theorem deepen {kind : NodeKind} {token? : Option Token} {front children : List Tree}
    (outer : Planted before middle parent (front ++ [.node number kind token? children]))
    (inner : Planted middle after number more) :
    Planted before after parent (front ++ [.node number kind token? (children ++ more)]) := by
  -- What grows below the last root makes its tree larger.
  -- The row of the root and the rows of all others that were new before.
  have rows (below : List Tree) :
      (recordsAll parent (front ++ [.node number kind token? below])).Perm
        ((number, ⟨some parent, kind, token?, below.map Tree.number⟩) ::
          (recordsAll number below ++ recordsAll parent front)) := by
    refine (Tree.recordsAll_middle parent front _ []).trans (.of_eq ?_)
    rw [Tree.records_eq, List.append_nil]
    rfl
  have adds := outer.adds.perm (rows children)
  have root := adds.new (.head _)
  have held : ∀ row ∈ (number, ⟨some parent, kind, token?, (children ++ more).map Tree.number⟩) ::
      (recordsAll number children ++ recordsAll parent front),
      after.node? row.1 = some row.2 := by
    rintro row (_ | ⟨_, member⟩)
    · rw [inner.kept number root.2, adds.held _ (.head _)]
      simp
    · rw [inner.node?_of_apart (adds.new (.tail _ member)).2 (adds.apart member),
        adds.held row (.tail _ member)]
  refine ⟨outer.parent_lt, ?_, fun other old => ?_⟩
  · refine (adds.trans inner.adds held rfl).perm (.trans ?_ (rows (children ++ more)).symm)
    rw [Tree.recordsAll_append, List.cons_append, List.append_assoc, List.append_assoc]
    exact .cons _ (List.perm_append_comm.append_left _)
  · have apart : other ≠ number := by omega
    rw [inner.node?_of_apart (old.trans_le outer.adds.size_le) apart, outer.kept other old]
    simp

end Planted

theorem node?_adopt {child old : Nat} (link : forest.parent? child = some old)
    (parent number : Nat) : (forest.adopt parent child).node? number =
      (forest.node? number).map fun node => { node with
        parent := if number = child then some parent else node.parent
        children := (if number = old then node.children.filter (· != child) else node.children) ++
          if number = parent then [child] else [] } := by
  rw [adopt_eq, free, link, node?_modifyChildren, node?_setParent, node?_modifyChildren]
  cases forest.node? number with
  | none => simp
  | some node =>
    by_cases under : parent = number <;> by_cases moved : child = number <;>
      by_cases from' : old = number <;> simp [under, moved, from', eq_comm]

section Adopt

variable {kind : NodeKind} {token? : Option Token} {tree : Tree}
  {left right front back children : List Tree}

private theorem rows_beside
    (rest : left ++ right = front ++ .node number kind token? children :: back) :
    (recordsAll parent (left ++ tree :: right)).Perm
      ((tree.number, ⟨some parent, tree.kind, tree.token?, tree.children.map Tree.number⟩) ::
        (number, ⟨some parent, kind, token?, children.map Tree.number⟩) ::
        (recordsAll tree.number tree.children ++
          (recordsAll number children ++ recordsAll parent (front ++ back)))) := by
  refine (Tree.recordsAll_middle ..).trans ?_
  rw [rest, Tree.records_eq]
  refine .cons _ (((Tree.recordsAll_middle ..).append_left _).trans ?_)
  rw [Tree.records_eq]
  exact List.perm_middle

private theorem rows_below :
    (recordsAll parent (front ++ .node number kind token? (children ++ [tree]) :: back)).Perm
      ((tree.number, ⟨some number, tree.kind, tree.token?, tree.children.map Tree.number⟩) ::
        (number, ⟨some parent, kind, token?, (children ++ [tree]).map Tree.number⟩) ::
        (recordsAll tree.number tree.children ++
          (recordsAll number children ++ recordsAll parent (front ++ back)))) := by
  refine (Tree.recordsAll_middle ..).trans (.trans (.cons _ ?_) (.swap ..))
  rw [Tree.recordsAll_append, recordsAll, recordsAll, Tree.records_eq, List.append_nil,
    ← List.append_assoc, ← List.cons_append]
  exact (List.perm_middle.trans (List.perm_append_comm.cons _)).append_right _

theorem Planted.adopt (planted : Planted before middle parent (left ++ tree :: right))
    (bare : before.children parent = [])
    (rest : left ++ right = front ++ .node number kind token? children :: back) :
    Planted before (middle.adopt number tree.number) parent
      (front ++ .node number kind token? (children ++ [tree]) :: back) := by
  -- A tree is moved below the root of a neighbour.
  have there := planted.parent_lt
  have adds := planted.adds.perm (rows_beside rest)
  have moved := adds.new (.head _)
  have root := adds.new (.tail _ (.head _))
  have apart := adds.apart (.head _)
  have link : middle.parent? tree.number = some parent := by
    rw [parent?, adds.held _ (.head _)]
    rfl
  refine ⟨there, .perm ?_ rows_below.symm, fun other old => ?_⟩
  · refine adds.change (size_adopt ..) ?_ rfl
    rintro row (_ | ⟨_, _ | ⟨_, member⟩⟩)
    · have outside : tree.number ≠ parent := by omega
      simp [node?_adopt link, adds.held _ (.head _), outside, apart.symm]
    · have outside : number ≠ parent := by omega
      simp [node?_adopt link, adds.held _ (.tail _ (.head _)), outside, apart]
    · have bounds := adds.new (.tail _ (.tail _ member))
      have outside : row.1 ≠ parent := by omega
      have below := adds.apart (.tail _ member)
      have beside := (adds.perm (.swap ..)).apart (.tail _ member)
      simp [node?_adopt link, adds.held _ (.tail _ (.tail _ member)), outside, below, beside]
  · -- The roots have different numbers, so the filter takes out no other one.
    have distinct := planted.adds.nodup.sublist (Tree.roots_sublist ..)
    rw [List.map_append, List.map_cons, List.nodup_middle, ← List.map_append, rest] at distinct
    have roots : ((left ++ tree :: right).map Tree.number).filter (· != tree.number) =
        (front ++ .node number kind token? children :: back).map Tree.number := by
      have others : ∀ other ∈ (front ++ .node number kind token? children :: back).map Tree.number,
          (other != tree.number) = true := fun other member => bne_iff_ne.mpr fun same =>
        (List.nodup_cons.mp distinct).1 (same ▸ member)
      rw [← List.filter_eq_self.mpr others, ← rest]
      simp
    have outside : other ≠ tree.number ∧ other ≠ number := by omega
    rw [node?_adopt link, planted.kept other old]
    cases found : before.node? other with
    | none => rfl
    | some node =>
      by_cases own : other = parent
      · subst own
        rw [children_of_node? found] at bare
        simpa [bare, outside] using roots
      · simp [own, outside]

end Adopt

mutual

theorem above_of_records {parent : Option Nat} : (tree : Tree) →
    (∀ row ∈ tree.records parent, forest.node? row.1 = some row.2) →
    ∀ row ∈ tree.records parent, forest.Above tree.number row.1
  | .node number kind token? children, held, row, member => by
    rcases List.mem_cons.mp member with rfl | member
    · exact above_self forest number
    · exact above_of_recordsAll children (fun row below => held row (.tail _ below)) row member

theorem above_of_recordsAll {parent : Nat} : (trees : List Tree) →
    (∀ row ∈ recordsAll parent trees, forest.node? row.1 = some row.2) →
    ∀ row ∈ recordsAll parent trees, forest.Above parent row.1
  | tree :: trees, held, row, member => by
    rcases List.mem_append.mp member with member | member
    · have held' : ∀ row ∈ tree.records (some parent), forest.node? row.1 = some row.2 :=
        fun row inside => held row (List.mem_append_left _ inside)
      have root := held' (tree.number, _) (by rw [Tree.records_eq]; exact .head _)
      have link : forest.parent? tree.number = some parent := by
        rw [parent?, root]
        rfl
      exact (Above.of_parent link (above_self forest parent)).trans
        (above_of_records tree held' row member)
    · exact above_of_recordsAll trees (fun row inside => held row (List.mem_append_right _ inside))
        row member

end

theorem Adds.exists_row (adds : Adds before after rows) (new : before.size ≤ number)
    (bound : number < after.size) : ∃ row ∈ rows, row.1 = number := by
  have member := adds.numbers.mem_iff.mpr
    (List.mem_range'_1.mpr ⟨new, show number < before.size + (after.size - before.size) by omega⟩)
  simpa using member

theorem Planted.above (planted : Planted before after parent trees) (new : before.size ≤ number)
    (bound : number < after.size) : after.Above parent number := by
  obtain ⟨row, member, rfl⟩ := planted.adds.exists_row new bound
  exact above_of_recordsAll trees planted.adds.held row member

theorem Planted.above_root {tree : Tree} (planted : Planted before after parent [tree])
    (new : before.size ≤ number) (bound : number < after.size) :
    after.Above tree.number number := by
  obtain ⟨row, member, rfl⟩ := planted.adds.exists_row new bound
  have held := planted.adds.held
  rw [show recordsAll parent [tree] = tree.records (some parent) from List.append_nil _]
    at held member
  exact above_of_records tree held row member

end Forest

namespace Tree

def enter (nodes : Array ForestNode) (row : Nat × ForestNode) : Array ForestNode :=
  nodes.setIfInBounds row.1 row.2

mutual

theorem enterNodes_eq (parent : Option Nat) : (tree : Tree) → (nodes : Array ForestNode) →
    tree.enterNodes parent nodes = (tree.records parent).foldl enter nodes
  | .node number _ _ children, _ => enterAllNodes_eq number children _

theorem enterAllNodes_eq (parent : Nat) : (trees : List Tree) → (nodes : Array ForestNode) →
    enterAllNodes parent trees nodes = (recordsAll parent trees).foldl enter nodes
  | [], _ => rfl
  | tree :: trees, nodes => by
    rw [enterAllNodes, enterNodes_eq _ tree, enterAllNodes_eq parent trees, recordsAll,
      List.foldl_append]

end

variable {rows : List (Nat × ForestNode)} {nodes : Array ForestNode}

theorem size_enter (rows : List (Nat × ForestNode)) (nodes : Array ForestNode) :
    (rows.foldl enter nodes).size = nodes.size := by
  induction rows generalizing nodes with
  | nil => rfl
  | cons row rows ih => rw [List.foldl_cons, ih, enter, Array.size_setIfInBounds]

theorem getElem?_enter_of_notMem {number : Nat} (absent : number ∉ rows.map Prod.fst) :
    (rows.foldl enter nodes)[number]? = nodes[number]? := by
  induction rows generalizing nodes with
  | nil => rfl
  | cons row rows ih =>
    rw [List.map_cons, List.mem_cons, not_or] at absent
    rw [List.foldl_cons, ih absent.2, enter, Array.getElem?_setIfInBounds_ne (Ne.symm absent.1)]

theorem getElem?_enter (distinct : (rows.map Prod.fst).Nodup) {row : Nat × ForestNode}
    (member : row ∈ rows) (bound : row.1 < nodes.size) :
    (rows.foldl enter nodes)[row.1]? = some row.2 := by
  induction rows generalizing nodes with
  | nil => cases member
  | cons first rows ih =>
    obtain ⟨absent, distinct⟩ := List.nodup_cons.mp distinct
    rw [List.foldl_cons]
    rcases List.mem_cons.mp member with rfl | member
    · rw [getElem?_enter_of_notMem absent, enter, Array.getElem?_setIfInBounds_self_of_lt bound]
    · exact ih distinct member (by rwa [enter, Array.size_setIfInBounds])

theorem node?_toForest {tree : Tree}
    (numbers : ((tree.records none).map Prod.fst).Perm (List.range tree.size))
    {row : Nat × ForestNode} (member : row ∈ tree.records none) :
    tree.toForest.node? row.1 = some row.2 := by
  have bound := List.mem_range.mp (numbers.mem_iff.mp (List.mem_map_of_mem member))
  rw [toForest, Forest.node?, enterNodes_eq]
  exact getElem?_enter (numbers.nodup_iff.mpr List.nodup_range) member
    (by rwa [Array.size_replicate])

theorem size_toForest (tree : Tree) : tree.toForest.size = tree.size := by
  rw [toForest, Forest.size, enterNodes_eq, size_enter, Array.size_replicate]

theorem toForest_eq {tree : Tree} {forest : Forest}
    (numbers : ((tree.records none).map Prod.fst).Perm (List.range forest.size))
    (held : ∀ row ∈ tree.records none, forest.node? row.1 = some row.2) :
    tree.toForest = forest := by
  have size : tree.size = forest.size := by
    rw [size_eq, ← List.length_map Tree.number, ← records_numbers, numbers.length_eq,
      List.length_range]
  have nodes : tree.toForest.nodes = forest.nodes := by
    refine Array.ext_getElem? fun number => ?_
    by_cases there : number < forest.size
    · obtain ⟨row, member, rfl⟩ := List.mem_map.mp
        (numbers.mem_iff.mpr (List.mem_range.mpr there))
      exact (node?_toForest (size ▸ numbers) member).trans (held row member).symm
    · rw [Array.getElem?_eq_none ((size_toForest tree).trans_le (size ▸ Nat.not_lt.mp there)),
        Array.getElem?_eq_none (Nat.not_lt.mp there)]
  cases forest
  exact congrArg Forest.mk nodes

end Tree

end JackCompiler
