import JackCompiler.Proofs.Growth.Productions

/-!
# The frame of a production

A production that succeeds gives its node one child more and changes nothing else that was there,
however much it moves about among the nodes that it adds, and it leaves every level it entered. Main
statement: `productions_keep_frame`.
-/

namespace JackCompiler

/-- The productions that make a node of their own. Two of them are given the number of the name that
stands in front of what they read. -/
inductive Production
  | classDeclaration
  | classVariables
  | subroutineDeclaration
  | parameterList
  | subroutineBody
  | localVariables
  | statements
  | letStatement
  | ifStatement
  | whileStatement
  | doStatement
  | returnStatement
  | expression
  | term
  | expressionList
  | subroutineCall (callee : Nat)
  | arrayAccess (array : Nat)

namespace Production

def grow : Production → Nat → Growing Nat
  | .classDeclaration => Growing.classDeclaration
  | .classVariables => Growing.classVariables
  | .subroutineDeclaration => Growing.subroutineDeclaration
  | .parameterList => Growing.parameterList
  | .subroutineBody => Growing.subroutineBody
  | .localVariables => Growing.localVariables
  | .statements => Growing.statements maxNesting
  | .letStatement => Growing.letStatement (Growing.expression maxNesting)
  | .ifStatement =>
    Growing.ifStatement (Growing.expression maxNesting) (Growing.statements maxNesting)
  | .whileStatement =>
    Growing.whileStatement (Growing.expression maxNesting) (Growing.statements maxNesting)
  | .doStatement => Growing.doStatement (Growing.expression maxNesting)
  | .returnStatement => Growing.returnStatement (Growing.expression maxNesting)
  | .expression => Growing.expression maxNesting
  | .term => Growing.term maxNesting
  | .expressionList => Growing.expressionList (Growing.expression maxNesting)
  | .subroutineCall callee => fun parent =>
    Growing.subroutineCall (Growing.expression maxNesting) parent callee
  | .arrayAccess array => fun parent =>
    Growing.arrayAccess (Growing.expression maxNesting) parent array

def moved? : Production → Option Nat
  | .subroutineCall callee => some callee
  | .arrayAccess array => some array
  | _ => none

end Production

/-- All that a production does to a forest: the node under which it works has one child more, which
is the first of the new nodes and has the others below it. Every other node is what it was, apart
from a name that is moved below the new node. -/
structure Framed (before after : Forest) (parent : Nat) (moved? : Option Nat) (node : Nat) :
    Prop where
  first : node = before.size
  kept : ∀ number < before.size, after.node? number = (before.node? number).map fun old =>
    { old with
      parent := if number ∈ moved? then some node else old.parent
      children := if number = parent then old.children.filter (· ∉ moved?) ++ [node]
        else old.children }
  under : after.parent? node = some parent
  taken : moved?.toList <+: after.children node
  below : ∀ number, before.size ≤ number → number < after.size → after.Above node number

namespace Forest

variable {before after : Forest} {parent : Nat} {trees : List Tree}

theorem Planted.framed {tree : Tree} (planted : Planted before after parent [tree])
    (root : tree.number = before.size) : Framed before after parent none tree.number where
  first := root
  kept number old := by
    rw [planted.kept number old]
    congr 1
    funext node
    by_cases own : number = parent <;> simp [own]
  under := by
    have held := planted.adds.held (tree.number, _)
      (List.mem_append_left _ (by rw [Tree.records_eq]; exact .head _))
    rw [parent?, held]
    rfl
  taken := ⟨_, rfl⟩
  below number new bound := planted.above_root new bound

theorem Planted.framed_behind {moved : Nat} {kind : NodeKind}
    (planted : Planted ((before.add (some parent) kind none).adopt before.size moved) after
      before.size trees)
    (there : parent < before.size) (link : before.parent? moved = some parent) :
    Framed before after parent (some moved) before.size := by
  have size : ((before.add (some parent) kind none).adopt before.size moved).size =
      before.size + 1 := (size_adopt ..).trans (size_add ..)
  have old := lt_size_of_parent? link
  have under : ∀ upper ∈ some parent, upper < before.size := by simpa using there
  have link' : (before.add (some parent) kind none).parent? moved = some parent := by
    rw [parent?_add under, if_neg old.ne, link]
  have node : after.node? before.size =
      some ⟨some parent, kind, none, moved :: trees.map Tree.number⟩ := by
    have outside : before.size ≠ parent := by omega
    rw [planted.kept before.size (by omega), node?_adopt link', node?_add under]
    simp [outside, old.ne']
  refine ⟨rfl, fun number less => ?_, ?_, ?_, fun number new bound => ?_⟩
  · rw [planted.node?_of_apart (by omega) less.ne, node?_adopt link', node?_add under]
    simp only [if_neg less.ne, Option.map_map]
    congr 1
    funext node
    have stays : before.size ≠ moved := old.ne'
    have others : (fun other => other != moved) = fun other => decide (other ∉ some moved) := by
      funext other
      by_cases same : other = moved <;> simp [same, Ne.symm]
    have name : number ∈ some moved ↔ number = moved := by simp [eq_comm]
    have own : some parent = some number ↔ number = parent := by simp [eq_comm]
    simp only [name, own, ← others]
    by_cases same : number = parent <;> simp [same, stays]
  · rw [parent?, node]
    rfl
  · rw [children_of_node? node]
    simp
  · by_cases own : number = before.size
    · exact own ▸ above_self after _
    · exact planted.above (by omega) bound

end Forest

section Success

variable {α β : Type} {depth parent node : Nat} {before after : Growth} {reader : Parse α}

theorem Mirrors.of_ok {read : Except CompileError (α × Cursor)} {y : β}
    {suits : α → β → Growth → Prop} (mirrors : Mirrors (.ok (y, after)) read suits) :
    ∃ x, suits x y after := by
  cases read with
  | error e => cases mirrors
  | ok pair =>
    obtain ⟨_, _, same, -, suits⟩ := mirrors
    cases same
    exact ⟨_, suits⟩

theorem Makes.framed {work : Nat → Growing Nat} {tree : α → Numbering Tree}
    (makes : Makes before.depth work reader tree) (there : parent < before.forest.size)
    (done : work parent before = .ok (node, after)) :
    after.depth = before.depth ∧ Framed before.forest after.forest parent none node := by
  have mirrors := makes parent before there rfl
  rw [done] at mirrors
  obtain ⟨x, made⟩ := mirrors.of_ok
  refine ⟨made.level, ?_⟩
  rw [made.first, ← made.root]
  exact made.plants.1.framed made.root

theorem Grows.framed_behind {fill : Nat → Growing β} {trees : α → Numbering (List Tree)}
    {kind : NodeKind} {moved : Nat} (grows : Grows before.depth fill reader trees)
    (there : parent < before.forest.size) (link : before.forest.parent? moved = some parent)
    (done : Growing.behind kind fill parent moved before = .ok (node, after)) :
    after.depth = before.depth ∧ Framed before.forest after.forest parent (some moved) node := by
  have mirrors := grows.behind kind moved parent before rfl
  rw [done] at mirrors
  obtain ⟨x, rfl, level, plants⟩ := mirrors.of_ok
  exact ⟨level, plants.1.framed_behind there link⟩

end Success

/-- The productions build the forest of what is read. Each of them, in any state of the parser and
under any node, leaves the depth as it was and gives that node one child at the end, numbered by the
size of the forest before, with all other new nodes below it. No other node is changed, except that
a call and an array access take the name in front of them below their new node. -/
theorem productions_keep_frame :
    (∀ entry stream, grow entry stream =
      (parse entry stream).map fun phrase => phrase.toTree.toForest) ∧
    ∀ (production : Production) (before : Growth) (parent : Nat),
      parent < before.forest.size →
      (∀ name ∈ production.moved?, before.forest.parent? name = some parent) →
      ∀ node after, production.grow parent before = .ok (node, after) →
        after.depth = before.depth ∧
          Framed before.forest after.forest parent production.moved? node := by
  refine ⟨grow_eq, fun production before parent there link node after done => ?_⟩
  have levels : maxNesting - before.depth ≤ maxNesting := Nat.sub_le ..
  have expression := expression_makes levels
  have statements := statements_make maxNesting before.depth levels
  cases production with
  | classDeclaration => exact (classDeclaration_makes _).framed there done
  | classVariables => exact (classVariables_makes _).framed there done
  | subroutineDeclaration => exact (subroutineDeclaration_makes _).framed there done
  | parameterList => exact (parameterList_makes _).framed there done
  | subroutineBody => exact (subroutineBody_makes _).framed there done
  | localVariables => exact (localVariables_makes _).framed there done
  | statements => exact statements.framed there done
  | letStatement => exact (letStatement_makes expression).framed there done
  | ifStatement => exact (ifStatement_makes expression statements).framed there done
  | whileStatement => exact (whileStatement_makes expression statements).framed there done
  | doStatement => exact (doStatement_makes expression).framed there done
  | returnStatement => exact (returnStatement_makes expression).framed there done
  | expression => exact expression.framed there done
  | term => exact (terms_make maxNesting _ levels).1.framed there done
  | expressionList => exact (expressionList_makes expression).framed there done
  | subroutineCall callee =>
    exact (callRest_grows expression).framed_behind there (link callee rfl) done
  | arrayAccess array => exact (index_grows expression).framed_behind there (link array rfl) done

private def behindCallee : Growth where
  cursor := ⟨⟨1, .symbol, "("⟩, [.ok ⟨1, .identifier, "x"⟩, .ok ⟨1, .symbol, "+"⟩,
    .ok ⟨2, .integerConstant, "1"⟩, .ok ⟨2, .symbol, ")"⟩, .ok ⟨2, .symbol, ";"⟩]⟩
  forest := (Forest.start.add (some 0) .keyword (some ⟨1, .keyword, "do"⟩)).add (some 0) .identifier
    (some ⟨1, .identifier, "f"⟩)
  depth := 7

private theorem behindCallee_run :
    ((Production.subroutineCall 2).grow 0 behindCallee).toOption.map
      (fun (_, after) => [0, 3, 6, 9].map after.forest.children) =
        some [[1, 3], [2, 4, 5, 12], [9], [7, 10]] := by
  decide +kernel

theorem productions_keep_frame_call : ∃ node after,
    (Production.subroutineCall 2).grow 0 behindCallee = .ok (node, after) ∧
      after.depth = 7 ∧ Framed behindCallee.forest after.forest 0 (some 2) node ∧
      [0, 3, 6, 9].map after.forest.children = [[1, 3], [2, 4, 5, 12], [9], [7, 10]] := by
  have run := behindCallee_run
  cases grown : (Production.subroutineCall 2).grow 0 behindCallee with
  | error e =>
    rw [grown] at run
    cases run
  | ok pair =>
    obtain ⟨node, after⟩ := pair
    rw [grown] at run
    obtain ⟨level, framed⟩ := productions_keep_frame.2 (.subroutineCall 2) behindCallee 0
      (by decide) (fun name same => by cases same; decide) node after grown
    exact ⟨node, after, rfl, level, framed, Option.some.inj run⟩

end JackCompiler
