import JackCompiler.Proofs.Flow.Blocks
import JackCompiler.Proofs.Forest.Traversals
import JackCompiler.Proofs.Growth.Productions
import JackCompiler.Proofs.Phrase.Lossless
import JackCompiler.Proofs.Phrase.Nesting
import JackCompiler.Proofs.Phrase.Shape

/-!
# Reading a forest back

The forest that a parser grows shows the tree of the phrase that is read, and every part of it at
its number. So what is known of the trees of phrases is known of the forest.
-/

namespace JackCompiler

open JackCompiler.Tree (records recordsAll)

namespace Forest

variable {forest : Forest} {parent? : Option Nat} {parent number : Nat} {tree node : Tree}
  {trees : List Tree}

/-- A forest holds the nodes of a tree at their numbers. -/
def Holds (forest : Forest) (parent? : Option Nat) (tree : Tree) : Prop :=
  ∀ row ∈ tree.records parent?, forest.node? row.1 = some row.2

theorem Holds.root (held : forest.Holds parent? tree) :
    forest.node? tree.number =
      some ⟨parent?, tree.kind, tree.token?, tree.children.map Tree.number⟩ :=
  held _ (by rw [Tree.records_eq]; exact .head _)

theorem Holds.below (held : forest.Holds parent? tree) (member : node ∈ tree.children) :
    forest.Holds (some tree.number) node := by
  intro row inside
  refine held row ?_
  rw [Tree.records_eq]
  refine .tail _ ?_
  obtain ⟨left, right, split⟩ := List.append_of_mem member
  rw [split, Tree.recordsAll_append, recordsAll]
  exact List.mem_append_right _ (List.mem_append_left _ inside)

theorem Holds.part (held : forest.Holds parent? tree) (part : Part node tree) :
    ∃ above?, forest.Holds above? node := by
  induction part generalizing parent? with
  | self => exact ⟨parent?, held⟩
  | inside member _ ih => exact ih (held.below member)

end Forest

namespace Tree

theorem length_nodes_lt {child tree : Tree} (member : child ∈ tree.children) :
    child.nodes.length < tree.nodes.length := by
  obtain ⟨number, kind, token?, children⟩ := tree
  obtain ⟨left, right, rfl⟩ := List.append_of_mem member
  simp only [nodes, nodesAll_eq, List.flatMap_append, List.flatMap_cons, List.length_cons,
    List.length_append]
  omega

end Tree

theorem Part.length_nodes_le {node tree : Tree} (part : Part node tree) :
    node.nodes.length ≤ tree.nodes.length := by
  induction part with
  | self => exact Nat.le_refl _
  | inside member _ ih => exact ih.trans (Tree.length_nodes_lt member).le

namespace Forest

variable {forest : Forest} {parent? : Option Nat} {tree node : Tree}

theorem Holds.subtreeWithin_eq {depth : Nat} (held : forest.Holds parent? tree)
    (enough : tree.nodes.length ≤ depth + 1) : forest.subtreeWithin depth tree.number = tree := by
  have root := held.root
  -- Every level down has fewer nodes left, so as many levels as there are nodes reach them all.
  induction depth generalizing parent? tree with
  | zero =>
    have none : tree.children = [] := List.eq_nil_iff_forall_not_mem.mpr fun child member => by
      have some := List.length_pos_of_mem child.self_mem_nodes
      have less := Tree.length_nodes_lt member
      omega
    rw [subtreeWithin, root, Option.map_some, Option.getD_some, Option.bind_some]
    obtain ⟨number, kind, token?, children⟩ := tree
    cases none
    rfl
  | succ depth ih =>
    have below : (forest.children tree.number).map (forest.subtreeWithin depth) =
        tree.children := by
      rw [children_of_node? root, List.map_map]
      refine (List.map_congr_left fun child member => ?_).trans (List.map_id _)
      have less := Tree.length_nodes_lt member
      have inside := held.below member
      exact ih inside (by omega) inside.root
    rw [subtreeWithin, below, root, Option.map_some, Option.getD_some, Option.bind_some]
    cases tree
    rfl

theorem Holds.subtree_eq (held : forest.Holds parent? tree)
    (room : tree.nodes.length ≤ forest.size) (part : Part node tree) :
    forest.subtree node.number = node := by
  obtain ⟨above?, held⟩ := held.part part
  have fewer := part.length_nodes_le
  exact held.subtreeWithin_eq (by omega)

theorem number_subtree (forest : Forest) (number : Nat) :
    (forest.subtree number).number = number := by
  rw [subtree]
  cases forest.size <;> rfl

theorem kind_subtree (forest : Forest) (number : Nat) :
    (forest.subtree number).kind = forest.kindOf number := by
  rw [subtree]
  cases forest.size <;> rfl

theorem token?_subtree (forest : Forest) (number : Nat) :
    (forest.subtree number).token? = forest.token? number := by
  rw [subtree]
  cases forest.size <;> rfl

end Forest

/-! ## The forest of one tree -/

namespace Tree

variable {tree node : Tree}

theorem toForest_holds (numbers : tree.preorder.Perm (List.range tree.size)) :
    tree.toForest.Holds none tree := by
  rw [preorder_eq, ← records_numbers none] at numbers
  exact fun _ => node?_toForest numbers

/-- The forest of a tree whose numbers are those from zero on shows every part of it. -/
theorem subtree_toForest (numbers : tree.preorder.Perm (List.range tree.size))
    (part : Part node tree) : tree.toForest.subtree node.number = node :=
  (toForest_holds numbers).subtree_eq (by rw [size_toForest, size_eq]) part

end Tree

namespace Phrase

variable {phrase : Phrase}

theorem subtree_toForest_zero (phrase : Phrase) :
    phrase.toTree.toForest.subtree 0 = phrase.toTree :=
  Tree.subtree_toForest phrase.preorder_perm (.self phrase.toTree)

theorem exists_part {number : Nat} (there : number < phrase.toTree.toForest.size) :
    Part (phrase.toTree.toForest.subtree number) phrase.toTree := by
  rw [Tree.size_toForest] at there
  have member := phrase.preorder_perm.mem_iff.mpr (List.mem_range.mpr there)
  rw [Tree.preorder_eq] at member
  obtain ⟨node, inside, rfl⟩ := List.mem_map.mp member
  have part := Tree.mem_nodes.mp inside
  rwa [Tree.subtree_toForest phrase.preorder_perm part]

end Phrase

/-! ## Parsed forests -/

section Grown

variable {entry : EntryPoint} {stream : List Item} {forest : Forest} {phrase : Phrase}

theorem grow_eq_ok_iff : grow entry stream = .ok forest ↔
    ∃ phrase, parse entry stream = .ok phrase ∧ phrase.toTree.toForest = forest := by
  rw [grow_eq]
  cases parse entry stream <;> simp [Except.map]

/-- The tokens of a forest that is grown are those of its input up to the end of file. There is one
node for each of them, and no other node carries a token. -/
theorem grow_lossless (grown : grow entry stream = .ok forest) :
    (∃ close rest, stream = (forest.terminals 0).map .ok ++ .ok close :: rest ∧
      close.kind = .eof) ∧
    (∀ token ∈ forest.terminals 0, token.kind ≠ .eof) ∧
    ∃ carriers : List Nat, carriers.Nodup ∧
      carriers.map forest.token? = (forest.terminals 0).map some ∧
      ∀ number, number ∈ carriers ↔ (forest.token? number).isSome := by
  obtain ⟨phrase, read, rfl⟩ := grow_eq_ok_iff.mp grown
  have token {node : Tree} (part : Part node phrase.toTree) :
      phrase.toTree.toForest.token? node.number = node.token? := by
    rw [← Forest.token?_subtree, Tree.subtree_toForest phrase.preorder_perm part]
  rw [Forest.terminals, phrase.subtree_toForest_zero]
  refine ⟨exists_close_of_parse read, ?_, phrase.toTree.carriers.map Tree.number,
    phrase.carriers_nodup, ?_, fun number => ⟨fun member => ?_, fun carries => ?_⟩⟩
  · rw [phrase.toTree_terminals]
    exact phrase.kind_ne_eof
  · rw [← Tree.map_token?_carriers, List.map_map]
    exact List.map_congr_left fun node member => token (Tree.mem_carriers.mp member).1
  · obtain ⟨node, inside, rfl⟩ := List.mem_map.mp member
    obtain ⟨part, carries⟩ := Tree.mem_carriers.mp inside
    rwa [token part]
  · -- Only a number that the forest has carries a token, and every such number is a part.
    have there : number < phrase.toTree.toForest.size := by
      by_contra beyond
      rw [Forest.token?, Forest.node?, Array.getElem?_eq_none (Nat.not_lt.mp beyond)] at carries
      cases carries
    refine List.mem_map.mpr ⟨_, Tree.mem_carriers.mpr ⟨Phrase.exists_part there, ?_⟩,
      Forest.number_subtree _ number⟩
    rwa [Tree.carries, Forest.token?_subtree]

theorem grow_shaped {source : List Char} (grown : grow entry (items source) = .ok forest) :
    forest.kindOf 0 = .start ∧
      ∀ number < forest.size, (forest.subtree number).Regular entry := by
  obtain ⟨phrase, read, rfl⟩ := grow_eq_ok_iff.mp grown
  refine ⟨?_, fun number there => regular_of_parse read (Phrase.exists_part there)⟩
  rw [← Forest.kind_subtree, phrase.subtree_toForest_zero]
  rfl

theorem Forest.Holds.descent {parent? : Option Nat} {tree : Tree} {path : List Nat}
    (held : forest.Holds parent? tree) (room : tree.nodes.length ≤ forest.size)
    (chain : List.IsChain (fun upper lower => lower ∈ forest.children upper)
      (tree.number :: path)) :
    Descent tree ((tree.number :: path).map forest.subtree) := by
  rw [List.map_cons, held.subtree_eq room (.self tree)]
  -- Every number of the path shows a child of what the number above it shows.
  induction path generalizing parent? tree with
  | nil => exact .here tree
  | cons lower path ih =>
    obtain ⟨link, chain⟩ := List.isChain_cons_cons.mp chain
    rw [children_of_node? held.root] at link
    obtain ⟨child, member, rfl⟩ := List.mem_map.mp link
    have fewer := Tree.length_nodes_lt member
    have same := held.subtree_eq room (.inside member (.self child))
    rw [List.map_cons, same]
    exact .step member (ih (held.below member) (by omega) chain)

theorem grow_levels_le {path : List Nat} (grown : grow entry stream = .ok forest)
    (chain : List.IsChain (fun upper lower => lower ∈ forest.children upper) (0 :: path)) :
    (0 :: path).countP (fun number => (forest.kindOf number).isLevel) ≤
      maxNesting * (maxNesting + 1) / 2 := by
  obtain ⟨phrase, read, rfl⟩ := grow_eq_ok_iff.mp grown
  have room : phrase.toTree.nodes.length ≤ phrase.toTree.toForest.size := by
    rw [Tree.size_toForest, Tree.size_eq]
  have descent := (Tree.toForest_holds phrase.preorder_perm).descent room chain
  have bound := levels_le_sumTo read descent
  rw [sumTo_eq, levels, List.countP_map] at bound
  simp only [Function.comp_def, Forest.kind_subtree] at bound
  exact bound

/-! ## Lowering -/

/-- What is lowered is what the forest shows. -/
theorem compile_eq_grow (comments : Bool) (source : String) :
    compile comments source =
      (grow .classDeclaration (items source.toList)).bind fun forest =>
        lower comments (forest.subtree 0) := by
  rw [compile, grow_eq]
  cases parse .classDeclaration (items source.toList) with
  | error e => rfl
  | ok phrase => exact congrArg (lower comments) phrase.subtree_toForest_zero.symm

theorem grow_blocks {comments : Bool} {sources : List String} {codes : List Code}
    (lowered : sources.mapM (fun source =>
      (grow .classDeclaration (items source.toList)).bind fun forest =>
        lower comments (forest.subtree 0)) = .ok codes) :
    ∃ declarations : List ClassDeclaration,
      sources.mapM (fun source => grow .classDeclaration (items source.toList)) =
        .ok (declarations.map fun declaration =>
          (Phrase.classDeclaration declaration).toTree.toForest) ∧
      ((declarations.map ClassDeclaration.className).Nodup → (labels codes.flatten).Nodup) ∧
      (comments = false → List.Forall₂
        (fun declaration code => ∃ blocks, declaration.Blocks code blocks) declarations codes) := by
  simp only [← compile_eq_grow] at lowered
  obtain ⟨declarations, reads, all⟩ := codes_of_compile lowered
  refine ⟨declarations, ?_, labels_flatten all, ?_⟩
  · rw [mapM_eq_ok, List.forall₂_map_right_iff] at reads ⊢
    refine reads.imp fun source declaration read => ?_
    exact grow_eq_ok_iff.mpr ⟨_, read, rfl⟩
  · rintro rfl
    exact all.imp fun _ _ own => ⟨_, own.2 ▸ ClassDeclaration.code_blocks own.1⟩

end Grown

end JackCompiler
