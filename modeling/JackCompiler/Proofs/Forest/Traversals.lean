import JackCompiler.Proofs.Forest.Edits
import JackCompiler.Proofs.Tree
import Mathlib.Data.List.Range

/-!
# Traversals of a forest

The iterator with its stack, the listing and the row of terminals meet the same nodes: those at or
below the start, every node once, before its children, and the children in their order. A listing
indents a node by its distance from the start, and a row of terminals differs only where a binary
operator comes after its first operand.
-/

namespace JackCompiler

/-! ## Lines and terminals of a tree -/

namespace Tree

def lines (depth : Nat) (tree : Tree) : List String := (tree.linesFrom depth []).reverse

mutual

private theorem linesFrom_done (depth : Nat) : (tree : Tree) → (done : List String) →
    tree.linesFrom depth done = (tree.lines depth).reverse ++ done
  | .node number kind token? children, done => by
    rw [lines, List.reverse_reverse, linesFrom, linesFrom, linesAllFrom_done _ children,
      linesAllFrom_done _ children [_], List.append_assoc]
    rfl

private theorem linesAllFrom_done (depth : Nat) : (trees : List Tree) → (done : List String) →
    linesAllFrom depth trees done = (trees.flatMap (lines depth)).reverse ++ done
  | [], done => rfl
  | tree :: trees, done => by
    rw [linesAllFrom, linesFrom_done _ tree, linesAllFrom_done _ trees, List.flatMap_cons,
      List.reverse_append, List.append_assoc]

end

section Node

variable (number : Nat) {kind : NodeKind} {token? : Option Token} {children : List Tree}

theorem lines_node (depth : Nat) : lines depth (.node number kind token? children) =
    line depth (.node number kind token? children) :: children.flatMap (lines (depth + 1)) := by
  rw [lines, linesFrom, linesAllFrom_done, List.reverse_append, List.reverse_reverse]
  rfl

private theorem carriersAll_eq (trees : List Tree) :
    carriersAll trees = trees.flatMap carriers := by
  induction trees with
  | nil => rfl
  | cons tree trees ih => rw [carriersAll, ih, List.flatMap_cons]

private theorem flatMap_terminals (trees : List Tree) :
    trees.flatMap terminals = (carriersAll trees).filterMap Tree.token? := by
  rw [carriersAll_eq, List.filterMap_flatMap]
  exact List.flatMap_congr fun tree _ => tree.terminals_eq

theorem terminals_operator (token : Token) (first : Tree) (rest : List Tree) :
    terminals (.node number .binaryOp (some token) (first :: rest)) =
      first.terminals ++ token :: rest.flatMap terminals := by
  rw [terminals_eq, carriers, List.filterMap_append, flatMap_terminals, terminals_eq first]
  rfl

theorem terminals_node (other : kind = .binaryOp → token? = none ∨ children = []) :
    terminals (.node number kind token? children) =
      token?.toList ++ children.flatMap terminals := by
  rw [terminals_eq, flatMap_terminals]
  cases token? with
  | none =>
    rw [carriers]
    rfl
  | some token =>
    have before : kind = .binaryOp → children = [] := fun same => (other same).resolve_left nofun
    rw [carriers]
    · rfl
    · rintro first rest rfl rfl
      cases before rfl

theorem terminals_perm (tree : Tree) : tree.terminals.Perm (tree.nodes.filterMap Tree.token?) := by
  have carried : (tree.nodes.filter carries).filterMap Tree.token? =
      tree.nodes.filterMap Tree.token? := by
    rw [List.filterMap_filter]
    refine List.filterMap_congr fun node _ => ?_
    rw [carries]
    cases node.token? <;> rfl
  rw [terminals_eq, ← carried]
  exact tree.carriers_perm.filterMap _

end Node

end Tree

namespace Forest

variable {forest : Forest} {number child other : Nat}

/-! ## The tree below a node -/

@[elab_as_elim]
theorem Linked.induction_below (linked : forest.Linked) {motive : Nat → Prop}
    (node : ∀ number, (∀ child ∈ forest.children number, motive child) → motive number)
    (number : Nat) : motive number := by
  have within (room : Nat) : ∀ number steps root, forest.Tops steps number root →
      forest.size < steps + room → motive number := by
    induction room with
    | zero => exact fun number steps root tops less => absurd tops.steps_le (Nat.not_le.mpr less)
    | succ room ih =>
      intro number steps root tops less
      refine node number fun child member => ih child (steps + 1) root ⟨?_, tops.2⟩ (by omega)
      rw [above?_succ_of (linked.mem_children.mp member), tops.1]
  obtain ⟨steps, ended⟩ := linked.ends number
  obtain ⟨steps, root, tops⟩ := exists_tops ended
  exact within (forest.size + 1) number steps root tops (by omega)

def kindOf (forest : Forest) (number : Nat) : NodeKind :=
  ((forest.node? number).map ForestNode.kind).getD .start

def token? (forest : Forest) (number : Nat) : Option Token :=
  (forest.node? number).bind ForestNode.token

private theorem Linked.subtreeWithin_succ (linked : forest.Linked) {steps root depth : Nat}
    (tops : forest.Tops steps number root) (enough : forest.size ≤ steps + depth) :
    forest.subtreeWithin depth number = forest.subtreeWithin (depth + 1) number := by
  -- The bound on the depth of a tree cuts nothing off.
  have further {child : Nat} (member : child ∈ forest.children number) :
      forest.Tops (steps + 1) child root :=
    ⟨(above?_succ_of (linked.mem_children.mp member) steps).trans tops.1, tops.2⟩
  induction depth generalizing number steps with
  | zero =>
    have none : forest.children number = [] :=
      List.eq_nil_iff_forall_not_mem.mpr fun child member => by
        have bound := (further member).steps_le
        omega
    rw [subtreeWithin, subtreeWithin, none, List.map_nil]
  | succ depth ih =>
    rw [subtreeWithin, subtreeWithin]
    refine congrArg _ (List.map_congr_left fun child member => ?_)
    have deeper := further member
    exact ih deeper (by omega) fun inner =>
      ⟨(above?_succ_of (linked.mem_children.mp inner) (steps + 1)).trans deeper.1, tops.2⟩

theorem Linked.subtree_eq (linked : forest.Linked) (number : Nat) :
    forest.subtree number = .node number (forest.kindOf number) (forest.token? number)
      ((forest.children number).map forest.subtree) := by
  obtain ⟨steps, ended⟩ := linked.ends number
  obtain ⟨steps, root, tops⟩ := exists_tops ended
  rw [subtree, linked.subtreeWithin_succ tops (by omega), subtreeWithin]
  rfl

/-! ## Nodes below a node -/

def below (forest : Forest) (number : Nat) : List Nat :=
  (forest.subtree number).nodes.map Tree.number

theorem Linked.below_eq (linked : forest.Linked) (number : Nat) :
    forest.below number = number :: (forest.children number).flatMap forest.below := by
  rw [below, linked.subtree_eq, Tree.nodes, List.map_cons, Tree.nodesAll_eq, List.flatMap_map,
    List.map_flatMap]
  rfl

theorem Linked.nodes_subtree (linked : forest.Linked) (number : Nat) :
    (forest.subtree number).nodes = (forest.below number).map forest.subtree := by
  induction number using linked.induction_below with
  | node number ih =>
    rw [linked.below_eq, List.map_cons, List.map_flatMap, linked.subtree_eq, Tree.nodes,
      Tree.nodesAll_eq, List.flatMap_map]
    exact congrArg _ (List.flatMap_congr ih)

theorem Linked.self_mem_below (linked : forest.Linked) (number : Nat) :
    number ∈ forest.below number := by
  rw [linked.below_eq]
  exact .head _

private theorem sublist_flatMap {α β : Type} {row : List α} {f : α → List β} {x : α}
    (member : x ∈ row) : (f x).Sublist (row.flatMap f) := by
  rw [List.flatMap_def]
  exact List.sublist_flatten_of_mem (List.mem_map_of_mem member)

theorem Linked.children_sublist (linked : forest.Linked) (member : other ∈ forest.below number) :
    (other :: forest.children other).Sublist (forest.below number) := by
  have heads (row : List Nat) : row.Sublist (row.flatMap forest.below) := by
    induction row with
    | nil => exact .refl []
    | cons first row ih =>
      rw [List.flatMap_cons, linked.below_eq, List.cons_append]
      exact .cons_cons first (ih.trans (List.sublist_append_right ..))
  induction number using linked.induction_below with
  | node number ih =>
    rw [linked.below_eq] at member ⊢
    rcases List.mem_cons.mp member with rfl | inside
    · exact .cons_cons _ (heads _)
    · obtain ⟨child, under, inside⟩ := List.mem_flatMap.mp inside
      exact ((ih child under inside).trans (sublist_flatMap under)).cons number

theorem Linked.mem_below (linked : forest.Linked) :
    other ∈ forest.below number ↔ forest.Above number other := by
  constructor
  · intro member
    induction number using linked.induction_below with
    | node number ih =>
      rw [linked.below_eq] at member
      rcases List.mem_cons.mp member with rfl | inside
      · exact above_self forest _
      · obtain ⟨child, under, inside⟩ := List.mem_flatMap.mp inside
        have link : forest.Above number child :=
          .of_parent (linked.mem_children.mp under) (above_self forest number)
        exact link.trans (ih child under inside)
  · rintro ⟨steps, reached⟩
    induction steps generalizing other with
    | zero => exact Option.some.inj reached ▸ linked.self_mem_below other
    | succ steps ih =>
      obtain ⟨parent, link, reached⟩ := Option.bind_eq_some_iff.mp reached
      have under : other ∈ forest.children parent := linked.mem_children.mpr link
      exact (linked.children_sublist (ih reached)).subset (.tail _ under)

private theorem Linked.child_unique (linked : forest.Linked) {first second : Nat}
    (one : forest.parent? first = some number) (two : forest.parent? second = some number)
    (above : forest.Above first other) (again : forest.Above second other) : first = second := by
  have ordered {upper lower i k : Nat} (link : forest.parent? lower = some number)
      (up : forest.parent? upper = some number) (near : forest.above? i other = some lower)
      (far : forest.above? (i + k) other = some upper) : lower = upper := by
    rw [above?_split, near, Option.bind_some] at far
    cases k with
    | zero => exact Option.some.inj far
    | succ k =>
      rw [above?_succ_of link] at far
      exact absurd ⟨k, far⟩ (linked.not_above_parent up)
  obtain ⟨i, reached⟩ := above
  obtain ⟨j, reached'⟩ := again
  rcases Nat.le_total i j with less | less
  · exact ordered one two reached (by rwa [Nat.add_sub_cancel' less])
  · exact (ordered two one reached' (by rwa [Nat.add_sub_cancel' less])).symm

theorem Linked.below_nodup (linked : forest.Linked) (number : Nat) :
    (forest.below number).Nodup := by
  induction number using linked.induction_below with
  | node number ih =>
    rw [linked.below_eq, List.nodup_cons, List.nodup_flatMap]
    refine ⟨fun inside => ?_, ih, ?_⟩
    · obtain ⟨child, under, inside⟩ := List.mem_flatMap.mp inside
      exact linked.not_above_parent (linked.mem_children.mp under) (linked.mem_below.mp inside)
    · have distinct : (forest.children number).Nodup :=
        List.nodup_iff_count_le_one.mpr fun child => by
          rw [linked.count]
          split <;> omega
      refine distinct.imp_of_mem fun under under' apart node inside inside' => apart ?_
      exact linked.child_unique (linked.mem_children.mp under) (linked.mem_children.mp under')
        (linked.mem_below.mp inside) (linked.mem_below.mp inside')

theorem Linked.length_below_le (linked : forest.Linked) (there : number < forest.size) :
    (forest.below number).length ≤ forest.size := by
  have inside : forest.below number ⊆ List.range forest.size := by
    intro other member
    refine List.mem_range.mpr ?_
    rcases (linked.mem_below.mp member).cases with rfl | ⟨parent, link, -⟩
    · exact there
    · exact lt_size_of_parent? link
  simpa using ((linked.below_nodup number).subperm inside).length_le

/-! ## The iterator -/

/-- From a stack, the top last, the iterator yields the top and puts the children of that in its
place, the last one first, until the stack is empty. -/
inductive Yields (forest : Forest) : List Nat → List Nat → Prop
  | done : Yields forest [] []
  | next {stack rest : List Nat} {number : Nat} :
    Yields forest (stack ++ (forest.children number).reverse) rest →
      Yields forest (stack ++ [number]) (number :: rest)

theorem Yields.unique {stack first second : List Nat} (one : forest.Yields stack first)
    (two : forest.Yields stack second) : second = first := by
  induction one generalizing second with
  | done =>
    generalize same : [] = stack at two
    cases two with
    | done => rfl
    | next => simp at same
  | @next below rest number _ ih =>
    generalize same : below ++ [number] = stack at two
    cases two with
    | done => simp at same
    | next further =>
      obtain ⟨rfl, top⟩ := List.append_inj' same rfl
      obtain rfl := List.head_eq_of_cons_eq top
      rw [ih further]

theorem Linked.yields (linked : forest.Linked) (number : Nat) :
    forest.Yields [number] (forest.below number) := by
  have whole {stack rest : List Nat} (after : forest.Yields stack rest) :
      forest.Yields (stack ++ [number]) (forest.below number ++ rest) := by
    induction number using linked.induction_below generalizing stack rest with
    | node number ih =>
      have children (row : List Nat) (each : ∀ child ∈ row, child ∈ forest.children number) :
          forest.Yields (stack ++ row.reverse) (row.flatMap forest.below ++ rest) := by
        induction row with
        | nil => simpa using after
        | cons first row later =>
          rw [List.flatMap_cons, List.append_assoc, List.reverse_cons, ← List.append_assoc stack]
          exact ih first (each first (.head _))
            (later fun child inside => each child (.tail _ inside))
      rw [linked.below_eq]
      exact .next (children _ fun _ => id)
  simpa using whole .done

theorem Linked.visit_below (linked : forest.Linked) (number spare : Nat) (pending done : List Nat) :
    forest.visit ((forest.below number).length + spare) (number :: pending) done =
      forest.visit spare pending ((forest.below number).reverse ++ done) := by
  induction number using linked.induction_below generalizing spare pending done with
  | node number ih =>
    have children (row done : List Nat) (each : ∀ child ∈ row, child ∈ forest.children number) :
        forest.visit ((row.flatMap forest.below).length + spare) (row ++ pending) done =
          forest.visit spare pending ((row.flatMap forest.below).reverse ++ done) := by
      induction row generalizing done with
      | nil => simp
      | cons first row later =>
        rw [List.flatMap_cons, List.length_append, Nat.add_assoc, List.cons_append,
          ih first (each first (.head _)), later _ fun child inside => each child (.tail _ inside),
          List.reverse_append, List.append_assoc]
    rw [linked.below_eq, List.length_cons, Nat.succ_add_eq_add_succ, Nat.add_succ, visit,
      children _ _ fun _ => id, List.reverse_cons, List.append_assoc]
    rfl

theorem Linked.descendants_eq (linked : forest.Linked) (there : number < forest.size) :
    forest.descendants number = forest.below number := by
  -- The number of nodes is enough steps for the iterator.
  obtain ⟨spare, size⟩ := Nat.exists_eq_add_of_le (linked.length_below_le there)
  rw [descendants, size, linked.visit_below, List.append_nil]
  cases spare <;> rw [visit, List.reverse_reverse] <;> exact nofun

/-! ## Listings -/

/-- How many steps up lead from a node to another one. -/
def distance (forest : Forest) (upper lower : Nat) : Nat :=
  ((List.range (forest.size + 1)).find? fun steps => forest.above? steps lower == some upper).getD 0

def entry (forest : Forest) (number : Nat) : String :=
  (forest.kindOf number).name ++
    match forest.token? number with
    | some token => " " ++ token.value
    | none => ""

theorem Linked.distance_eq (linked : forest.Linked) {steps : Nat}
    (reached : forest.above? steps other = some number) : forest.distance number other = steps := by
  obtain ⟨more, ended⟩ := linked.ends number
  obtain ⟨more, root, tops⟩ := exists_tops ended
  have whole {steps : Nat} (reached : forest.above? steps other = some number) :
      forest.Tops (steps + more) other root :=
    ⟨by rw [above?_split, reached, Option.bind_some, tops.1], tops.2⟩
  have found : (List.range (forest.size + 1)).find?
      (fun steps => forest.above? steps other == some number) = some steps := by
    refine List.find?_range_eq_some.mpr ⟨by simpa using reached, ?_, fun fewer less => ?_⟩
    · have bound := (whole reached).steps_le
      exact List.mem_range.mpr (by omega)
    · by_contra again
      have same := ((whole reached).unique (whole (by simpa using again))).1
      omega
  rw [distance, found, Option.getD_some]

theorem Linked.distance_self (linked : forest.Linked) (number : Nat) :
    forest.distance number number = 0 :=
  linked.distance_eq rfl

theorem Linked.above?_distance (linked : forest.Linked) (above : forest.Above number other) :
    forest.above? (forest.distance number other) other = some number := by
  obtain ⟨steps, reached⟩ := above
  rw [linked.distance_eq reached, reached]

theorem Linked.distance_child (linked : forest.Linked) (link : forest.parent? child = some number)
    (above : forest.Above child other) :
    forest.distance number other = forest.distance child other + 1 := by
  refine linked.distance_eq ?_
  rw [above?_split, linked.above?_distance above, Option.bind_some, above?_succ_of link]
  rfl

private theorem Linked.lines_eq (linked : forest.Linked) (number depth : Nat) :
    (forest.subtree number).lines depth = (forest.below number).map fun other =>
      String.ofList (List.replicate (2 * (depth + forest.distance number other)) ' ') ++
        forest.entry other := by
  induction number using linked.induction_below generalizing depth with
  | node number ih =>
    rw [linked.subtree_eq, Tree.lines_node, linked.below_eq, List.map_cons, linked.distance_self,
      List.flatMap_map, List.map_flatMap]
    congr 1
    · rw [Tree.line, Tree.kind, entry, Tree.value?, Tree.token?, Nat.add_zero]
      cases forest.token? number <;> rw [String.append_assoc] <;> rfl
    · refine List.flatMap_congr fun child member => ?_
      rw [ih child member]
      refine List.map_congr_left fun other inside => ?_
      rw [linked.distance_child (linked.mem_children.mp member) (linked.mem_below.mp inside),
        Nat.add_right_comm, Nat.add_assoc]

theorem Linked.dump_eq (linked : forest.Linked) (number : Nat) :
    forest.dump number = String.join ((forest.below number).map fun other =>
      String.ofList (List.replicate (2 * forest.distance number other) ' ') ++ forest.entry other ++
        "\n") := by
  have lines := linked.lines_eq number 0
  simp only [Nat.zero_add] at lines
  rw [dump, Tree.dump]
  change String.join (((forest.subtree number).lines 0).map _) = _
  rw [lines, List.map_map]
  rfl

/-! ## Terminals -/

theorem Linked.terminals_perm (linked : forest.Linked) (number : Nat) :
    (forest.terminals number).Perm ((forest.below number).filterMap forest.token?) := by
  have tokens : (forest.subtree number).nodes.filterMap Tree.token? =
      (forest.below number).filterMap forest.token? := by
    rw [linked.nodes_subtree, List.filterMap_map]
    refine List.filterMap_congr fun other _ => ?_
    rw [Function.comp_apply, linked.subtree_eq]
    rfl
  exact tokens ▸ (forest.subtree number).terminals_perm

theorem Linked.terminals_operator (linked : forest.Linked) {token : Token} {first : Nat}
    {rest : List Nat} (kind : forest.kindOf number = .binaryOp)
    (carried : forest.token? number = some token)
    (children : forest.children number = first :: rest) :
    forest.terminals number = forest.terminals first ++ token :: rest.flatMap forest.terminals := by
  rw [terminals, linked.subtree_eq, kind, carried, children, List.map_cons,
    Tree.terminals_operator, List.flatMap_map]
  rfl

theorem Linked.terminals_eq (linked : forest.Linked)
    (other : forest.kindOf number = .binaryOp →
      forest.token? number = none ∨ forest.children number = []) :
    forest.terminals number =
      (forest.token? number).toList ++ (forest.children number).flatMap forest.terminals := by
  rw [terminals, linked.subtree_eq, Tree.terminals_node, List.flatMap_map]
  · rfl
  · exact fun same => (other same).imp_right (List.map_eq_nil_iff.mpr ·)

/-! ## Edited forests -/

/-- In every forest that edits lead to, the iterator ends and yields a node and all below it, each
once, before its children, and these in their order. A listing has a line for each of them in this
order, indented by twice its distance from the start, and a row of terminals has their tokens, also
in this order but for binary operators, which come right after the terminals of their first
child. -/
theorem traversals_agree (made : forest.Made) (there : number < forest.size) :
    (∀ row, forest.Yields [number] row ↔ row = forest.descendants number) ∧
    forest.descendants number =
      number :: (forest.children number).flatMap forest.descendants ∧
    (∀ other, forest.Above number other → (forest.descendants number).count other = 1) ∧
    (∀ other ∈ forest.descendants number, forest.Above number other ∧
      (other :: forest.children other).Sublist (forest.descendants number) ∧
      forest.above? (forest.distance number other) other = some number) ∧
    forest.dump number = String.join ((forest.descendants number).map fun other =>
      String.ofList (List.replicate (2 * forest.distance number other) ' ') ++ forest.entry other ++
        "\n") ∧
    (forest.terminals number).Perm ((forest.descendants number).filterMap forest.token?) ∧
    (∀ token first rest, forest.kindOf number = .binaryOp → forest.token? number = some token →
      forest.children number = first :: rest → forest.terminals number =
        forest.terminals first ++ token :: rest.flatMap forest.terminals) ∧
    ((forest.kindOf number = .binaryOp →
        forest.token? number = none ∨ forest.children number = []) →
      forest.terminals number =
        (forest.token? number).toList ++ (forest.children number).flatMap forest.terminals) := by
  have linked := made.linked
  have inner : (forest.children number).flatMap forest.descendants =
      (forest.children number).flatMap forest.below :=
    List.flatMap_congr fun child under =>
      linked.descendants_eq (lt_size_of_parent? (linked.mem_children.mp under))
  rw [inner, linked.descendants_eq there]
  have ended := linked.yields number
  refine ⟨fun row => ⟨ended.unique, fun same => same ▸ ended⟩, linked.below_eq number,
    fun other above => ?_,
    fun other member => ⟨linked.mem_below.mp member, linked.children_sublist member,
      linked.above?_distance (linked.mem_below.mp member)⟩,
    linked.dump_eq number, linked.terminals_perm number,
    fun token first rest kind carried children => linked.terminals_operator kind carried children,
    linked.terminals_eq⟩
  exact List.count_eq_one_of_mem (linked.below_nodup number) (linked.mem_below.mpr above)

private def word (text : String) : Token := ⟨1, .identifier, text⟩

private def sign (text : String) : Token := ⟨1, .symbol, text⟩

private def productEdits : List Edit :=
  [.add none .expression none, .add (some 0) .identifier (some (word "a")),
    .add (some 0) .binaryOp (some (sign "+")), .add (some 0) .identifier (some (word "b")),
    .pivot 2 [1, 3], .add (some 0) .binaryOp (some (sign "*")),
    .add (some 0) .identifier (some (word "c")), .pivot 4 [2, 5]]

private def product : Forest := productEdits.foldl edit .empty

private theorem product_made : product.Made := by
  have may (forest : Forest) (operator child : Nat) (there : operator < forest.size)
      (less : child < forest.size) (link : forest.parent? operator = some 0)
      (top : forest.parent? 0 = none) (apart : child ≠ operator ∧ child ≠ 0) :
      forest.MayAdopt operator child :=
    ⟨there, less, not_above_of_parent link apart.1 (not_above_of_root top apart.2)⟩
  have made := Made.empty
  have made := made.edit (.add none .expression none) nofun
  have made := made.edit (.add (some 0) .identifier (some (word "a"))) (by simp [May]; decide)
  have made := made.edit (.add (some 0) .binaryOp (some (sign "+"))) (by simp [May]; decide)
  have made := made.edit (.add (some 0) .identifier (some (word "b"))) (by simp [May]; decide)
  have made := made.edit (.pivot 2 [1, 3]) ⟨may _ 2 1 (by decide) (by decide) (by decide)
    (by decide) (by decide), may _ 2 3 (by decide) (by decide) (by decide) (by decide) (by decide),
    trivial⟩
  have made := made.edit (.add (some 0) .binaryOp (some (sign "*"))) (by simp [May]; decide)
  have made := made.edit (.add (some 0) .identifier (some (word "c"))) (by simp [May]; decide)
  exact made.edit (.pivot 4 [2, 5]) ⟨may _ 4 2 (by decide) (by decide) (by decide) (by decide)
    (by decide), may _ 4 5 (by decide) (by decide) (by decide) (by decide) (by decide), trivial⟩

theorem traversals_agree_product : product.Made ∧ 0 < product.size ∧
    product.Yields [0] [0, 4, 2, 1, 3, 5] ∧
    product.terminals 0 = [word "a", sign "+", word "b", sign "*", word "c"] ∧
    ((product.descendants 0).map fun other => 2 * product.distance 0 other) =
      [0, 2, 4, 6, 6, 4] ∧
    product.dump 0 = "expression\n  binaryOp *\n    binaryOp +\n      identifier a\n" ++
      "      identifier b\n    identifier c\n" := by
  obtain ⟨yields, -, -, -, listing, -⟩ :=
    traversals_agree product_made (show 0 < product.size by decide)
  have order : product.descendants 0 = [0, 4, 2, 1, 3, 5] := by decide
  rw [order] at yields listing
  refine ⟨product_made, by decide, (yields _).mpr rfl, by decide, by decide, listing.trans ?_⟩
  decide +kernel

end Forest

end JackCompiler
