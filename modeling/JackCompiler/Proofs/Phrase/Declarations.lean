import JackCompiler.Proofs.Phrase.Numbering

namespace JackCompiler

def nodesOf {α : Type} (nodes : α → Nat) : List α → Nat
  | [] => 0
  | phrase :: phrases => nodes phrase + nodesOf nodes phrases

def NameList.nodes (names : NameList) : Nat := 2 * names.more.length + 1

def ClassVariables.nodes (declaration : ClassVariables) : Nat := declaration.names.nodes + 4

def LocalVariables.nodes (declaration : LocalVariables) : Nat := declaration.names.nodes + 4

def Parameters.nodes : Parameters → Nat
  | .empty => 1
  | .listed _ more => 3 * more.length + 3

def SubroutineBody.nodes (body : SubroutineBody) : Nat :=
  nodesOf LocalVariables.nodes body.locals + statementNodes body.statements + 4

def SubroutineDeclaration.nodes (subroutine : SubroutineDeclaration) : Nat :=
  subroutine.parameters.nodes + subroutine.body.nodes + 6

def ClassDeclaration.nodes (declaration : ClassDeclaration) : Nat :=
  nodesOf ClassVariables.nodes declaration.declarations +
    nodesOf SubroutineDeclaration.nodes declaration.subroutines + 5

theorem moreNameTrees_done (more : List (Comma × Name)) (done : List Tree) (number : Nat) :
    (moreNameTrees more done number).1 = done.reverse ++ (moreNameTrees more [] number).1 ∧
      (moreNameTrees more done number).2 = number + 2 * more.length := by
  induction more generalizing done number with
  | nil => simp [moreNameTrees]
  | cons pair more ih =>
    obtain ⟨comma, name⟩ := pair
    simp only [moreNameTrees, Numbering.bind_apply, Numbering.nameLeaf_apply, Numbering.wordLeaf_next,
      (ih (_ :: _ :: done) _).1, (ih [_, _] _).1, (ih _ _).2, List.length_cons]
    refine ⟨by simp, by omega⟩

theorem moreNameTrees_cons (comma : Comma) (name : Name) (more : List (Comma × Name))
    (number : Nat) :
    (moreNameTrees ((comma, name) :: more) [] number).1 =
      (wordLeaf comma.val number).1 :: .node (number + 1) .identifier (some name.val) [] ::
        (moreNameTrees more [] (number + 2)).1 := by
  rw [moreNameTrees]
  simp [(moreNameTrees_done more [_, _] _).1]

namespace NameList

@[simp]
theorem toTrees_next (names : NameList) (number : Nat) :
    (names.toTrees number).2 = number + names.nodes := by
  have next := (moreNameTrees_done names.more [.node number .identifier (some names.first.val) []]
    (number + 1)).2
  change (moreNameTrees _ _ _).2 = _
  rw [next, nodes]
  omega

theorem toTrees_eq (names : NameList) (number : Nat) :
    (names.toTrees number).1 = .node number .identifier (some names.first.val) [] ::
      (moreNameTrees names.more [] (number + 1)).1 :=
  (moreNameTrees_done names.more [_] (number + 1)).1

end NameList

@[simp]
theorem TypeName.toTree_next (type : TypeName) (number : Nat) :
    (type.toTree number).2 = number + 1 := by
  cases type <;> rfl

@[simp]
theorem ReturnType.toTree_next (type : ReturnType) (number : Nat) :
    (type.toTree number).2 = number + 1 := by
  cases type with
  | void word => rfl
  | value type => exact type.toTree_next number

def declarationLeaves (first last : Token) (type : TypeName) (names : NameList)
    (number : Nat) : List Tree :=
  [(wordLeaf first (number + 1)).1, (type.toTree (number + 2)).1] ++
    (names.toTrees (number + 3)).1 ++ [(wordLeaf last (number + 3 + names.nodes)).1]

theorem ClassVariables.toTree_eq (declaration : ClassVariables) (number : Nat) :
    declaration.toTree number = (.node number .classVarDec none
      (declarationLeaves declaration.scope.val declaration.semicolon.val declaration.type
        declaration.names number), number + declaration.nodes) := by
  refine Prod.ext ?_ ?_
  · simp [toTree, declarationLeaves]
  · simp only [toTree, Numbering.bind_apply, Numbering.nextNumber_apply, Numbering.wordLeaf_next,
      Numbering.pure_apply, TypeName.toTree_next, NameList.toTrees_next, nodes]
    omega

theorem LocalVariables.toTree_eq (declaration : LocalVariables) (number : Nat) :
    declaration.toTree number = (.node number .varDec none
      (declarationLeaves declaration.keyword.val declaration.semicolon.val declaration.type
        declaration.names number), number + declaration.nodes) := by
  refine Prod.ext ?_ ?_
  · simp [toTree, declarationLeaves]
  · simp only [toTree, Numbering.bind_apply, Numbering.nextNumber_apply, Numbering.wordLeaf_next,
      Numbering.pure_apply, TypeName.toTree_next, NameList.toTrees_next, nodes]
    omega

@[simp]
theorem ClassVariables.toTree_next (declaration : ClassVariables) (number : Nat) :
    (declaration.toTree number).2 = number + declaration.nodes := by
  rw [declaration.toTree_eq]

@[simp]
theorem LocalVariables.toTree_next (declaration : LocalVariables) (number : Nat) :
    (declaration.toTree number).2 = number + declaration.nodes := by
  rw [declaration.toTree_eq]

theorem moreParameterTrees_done (more : List (Comma × Parameter)) (done : List Tree)
    (number : Nat) :
    (moreParameterTrees more done number).1 =
        done.reverse ++ (moreParameterTrees more [] number).1 ∧
      (moreParameterTrees more done number).2 = number + 3 * more.length := by
  induction more generalizing done number with
  | nil => simp [moreParameterTrees]
  | cons pair more ih =>
    obtain ⟨comma, parameter⟩ := pair
    simp only [moreParameterTrees, Numbering.bind_apply, Numbering.nameLeaf_apply,
      Numbering.wordLeaf_next, TypeName.toTree_next, (ih (_ :: _ :: _ :: done) _).1,
      (ih [_, _, _] _).1, (ih _ _).2, List.length_cons]
    refine ⟨by simp, by omega⟩

theorem moreParameterTrees_cons (comma : Comma) (parameter : Parameter)
    (more : List (Comma × Parameter)) (number : Nat) :
    (moreParameterTrees ((comma, parameter) :: more) [] number).1 =
      (wordLeaf comma.val number).1 :: (parameter.type.toTree (number + 1)).1 ::
        .node (number + 2) .identifier (some parameter.name.val) [] ::
          (moreParameterTrees more [] (number + 3)).1 := by
  rw [moreParameterTrees]
  simp [(moreParameterTrees_done more [_, _, _] _).1]

theorem Parameters.toTree_listed (first : Parameter) (more : List (Comma × Parameter))
    (number : Nat) :
    ((Parameters.listed first more).toTree number).1 = .node number .parameterList none
      ((first.type.toTree (number + 1)).1 ::
        .node (number + 2) .identifier (some first.name.val) [] ::
          (moreParameterTrees more [] (number + 3)).1) := by
  simp [Parameters.toTree, (moreParameterTrees_done more [_, _] _).1]

@[simp]
theorem Parameters.toTree_next (parameters : Parameters) (number : Nat) :
    (parameters.toTree number).2 = number + parameters.nodes := by
  cases parameters with
  | empty => simp [toTree, nodes]
  | listed first more =>
    simp only [toTree, Numbering.bind_apply, Numbering.nextNumber_apply, Numbering.nameLeaf_apply,
      TypeName.toTree_next, (moreParameterTrees_done more _ _).2, Numbering.pure_apply, nodes]
    omega

inductive Leaf : Tree → Prop
  | name (token : Token) (number : Nat) : Leaf (.node number .identifier (some token) [])
  | word (token : Token) (number : Nat) : Leaf (wordLeaf token number).1

theorem TypeName.leaf (type : TypeName) (number : Nat) : Leaf (type.toTree number).1 := by
  cases type with
  | builtIn word => exact Leaf.word _ _
  | named name => exact Leaf.name _ _

theorem ReturnType.leaf (type : ReturnType) (number : Nat) : Leaf (type.toTree number).1 := by
  cases type with
  | void word => exact Leaf.word _ _
  | value type => exact type.leaf number

private theorem moreNameTrees_leaves (more : List (Comma × Name)) (number : Nat) :
    ∀ tree ∈ (moreNameTrees more [] number).1, Leaf tree := by
  induction more generalizing number with
  | nil => simp [moreNameTrees]
  | cons pair more ih =>
    obtain ⟨comma, name⟩ := pair
    rw [moreNameTrees_cons]
    exact List.forall_mem_cons.mpr ⟨Leaf.word _ _,
      List.forall_mem_cons.mpr ⟨Leaf.name _ _, ih (number + 2)⟩⟩

theorem NameList.leaves (names : NameList) (number : Nat) :
    ∀ tree ∈ (names.toTrees number).1, Leaf tree := by
  rw [names.toTrees_eq]
  exact List.forall_mem_cons.mpr ⟨Leaf.name _ _, moreNameTrees_leaves _ _⟩

theorem declarationLeaves_leaves (first last : Token) (type : TypeName) (names : NameList)
    (number : Nat) : ∀ tree ∈ declarationLeaves first last type names number, Leaf tree := by
  intro tree member
  simp only [declarationLeaves, List.mem_append, List.mem_cons, List.not_mem_nil, or_false] at member
  rcases member with ((rfl | rfl) | member) | rfl
  · exact Leaf.word _ _
  · exact type.leaf _
  · exact names.leaves _ tree member
  · exact Leaf.word _ _

theorem ClassVariables.toTree_leaves (declaration : ClassVariables) (number : Nat) :
    ∃ leaves, (declaration.toTree number).1 = .node number .classVarDec none leaves ∧
      ∀ leaf ∈ leaves, Leaf leaf :=
  ⟨_, congrArg Prod.fst (declaration.toTree_eq number), declarationLeaves_leaves _ _ _ _ _⟩

theorem LocalVariables.toTree_leaves (declaration : LocalVariables) (number : Nat) :
    ∃ leaves, (declaration.toTree number).1 = .node number .varDec none leaves ∧
      ∀ leaf ∈ leaves, Leaf leaf :=
  ⟨_, congrArg Prod.fst (declaration.toTree_eq number), declarationLeaves_leaves _ _ _ _ _⟩

private theorem moreParameterTrees_leaves (more : List (Comma × Parameter)) (number : Nat) :
    ∀ tree ∈ (moreParameterTrees more [] number).1, Leaf tree := by
  induction more generalizing number with
  | nil => simp [moreParameterTrees]
  | cons pair more ih =>
    obtain ⟨comma, parameter⟩ := pair
    rw [moreParameterTrees_cons]
    exact List.forall_mem_cons.mpr ⟨Leaf.word _ _, List.forall_mem_cons.mpr
      ⟨parameter.type.leaf _, List.forall_mem_cons.mpr ⟨Leaf.name _ _, ih (number + 3)⟩⟩⟩

theorem listedParameters_leaves (first : Parameter) (more : List (Comma × Parameter))
    (number : Nat) :
    ∀ leaf ∈ (first.type.toTree (number + 1)).1 ::
      .node (number + 2) .identifier (some first.name.val) [] ::
        (moreParameterTrees more [] (number + 3)).1, Leaf leaf :=
  List.forall_mem_cons.mpr ⟨first.type.leaf (number + 1), List.forall_mem_cons.mpr
    ⟨Leaf.name first.name.val (number + 2), moreParameterTrees_leaves more (number + 3)⟩⟩

theorem Parameters.toTree_leaves (parameters : Parameters) (number : Nat) :
    ∃ leaves, (parameters.toTree number).1 = .node number .parameterList none leaves ∧
      ∀ leaf ∈ leaves, Leaf leaf := by
  cases parameters with
  | empty => exact ⟨[], rfl, nofun⟩
  | listed first more =>
    exact ⟨_, Parameters.toTree_listed first more number, listedParameters_leaves first more number⟩

section Rows

variable {α : Type} {toTree : α → Numbering Tree}

theorem treesOf_done (phrases : List α) (done : List Tree) (number : Nat) :
    (treesOf toTree phrases done number).1 = done.reverse ++ (treesOf toTree phrases [] number).1 := by
  induction phrases generalizing done number with
  | nil => simp [treesOf]
  | cons phrase phrases ih =>
    simp only [treesOf, Numbering.bind_apply, ih (_ :: done), ih [_]]
    simp

theorem treesOf_cons (phrase : α) (phrases : List α) (number : Nat) :
    (treesOf toTree (phrase :: phrases) [] number).1 =
      (toTree phrase number).1 :: (treesOf toTree phrases [] (toTree phrase number).2).1 := by
  rw [treesOf]
  simp [treesOf_done phrases [_]]

theorem treesOf_next {nodes : α → Nat} (next : ∀ x number, (toTree x number).2 = number + nodes x)
    (phrases : List α) (done : List Tree) (number : Nat) :
    (treesOf toTree phrases done number).2 = number + nodesOf nodes phrases := by
  induction phrases generalizing done number with
  | nil => rfl
  | cons phrase phrases ih =>
    simp only [treesOf, Numbering.bind_apply, ih, next, nodesOf]
    omega

theorem treesOf_forall {P : Tree → Prop} {phrases : List α}
    (each : ∀ x ∈ phrases, ∀ number, P (toTree x number).1) (number : Nat) :
    ∀ tree ∈ (treesOf toTree phrases [] number).1, P tree := by
  induction phrases generalizing number with
  | nil => simp [treesOf]
  | cons phrase phrases ih =>
    rw [treesOf_cons]
    exact List.forall_mem_cons.mpr ⟨each phrase (.head _) number,
      ih (fun x member => each x (.tail _ member)) _⟩

end Rows

theorem statementsTree_next (statements : List Statement) (number : Nat) :
    (statementsTree statements number).2 = number + 1 + statementNodes statements :=
  statementTrees_next statements [] (number + 1)

theorem SubroutineBody.toTree_eq (body : SubroutineBody) (number : Nat) :
    body.toTree number = (.node number .subroutineBody none
      ([(wordLeaf body.opening.val (number + 1)).1] ++
        (treesOf LocalVariables.toTree body.locals [] (number + 2)).1 ++
        [(statementsTree body.statements
            (number + 2 + nodesOf LocalVariables.nodes body.locals)).1,
          (wordLeaf body.closing.val (number + 2 + nodesOf LocalVariables.nodes body.locals + 1 +
            statementNodes body.statements)).1]),
      number + body.nodes) := by
  have locals := treesOf_next LocalVariables.toTree_next body.locals [] (number + 2)
  refine Prod.ext ?_ ?_
  · simp only [toTree, Numbering.bind_apply, Numbering.nextNumber_apply, Numbering.wordLeaf_next,
      Numbering.pure_apply, locals, statementsTree_next]
  · simp only [toTree, Numbering.bind_apply, Numbering.nextNumber_apply, Numbering.wordLeaf_next,
      Numbering.pure_apply, locals, statementsTree_next, nodes]
    omega

@[simp]
theorem SubroutineBody.toTree_next (body : SubroutineBody) (number : Nat) :
    (body.toTree number).2 = number + body.nodes := by
  rw [body.toTree_eq]

theorem SubroutineDeclaration.toTree_eq (subroutine : SubroutineDeclaration) (number : Nat) :
    subroutine.toTree number = (.node number .subroutineDec none
      [(wordLeaf subroutine.keyword.val (number + 1)).1,
        (subroutine.returnType.toTree (number + 2)).1,
        .node (number + 3) .identifier (some subroutine.name.val) [],
        (wordLeaf subroutine.opening.val (number + 4)).1,
        (subroutine.parameters.toTree (number + 5)).1,
        (wordLeaf subroutine.closing.val (number + 5 + subroutine.parameters.nodes)).1,
        (subroutine.body.toTree (number + 6 + subroutine.parameters.nodes)).1],
      number + subroutine.nodes) := by
  have shift : number + 5 + subroutine.parameters.nodes + 1 =
      number + 6 + subroutine.parameters.nodes := by omega
  refine Prod.ext ?_ ?_
  · simp [toTree, shift]
  · simp only [toTree, Numbering.bind_apply, Numbering.nextNumber_apply, Numbering.nameLeaf_apply,
      Numbering.wordLeaf_next, Numbering.pure_apply, ReturnType.toTree_next,
      Parameters.toTree_next, SubroutineBody.toTree_next, nodes]
    omega

@[simp]
theorem SubroutineDeclaration.toTree_next (subroutine : SubroutineDeclaration) (number : Nat) :
    (subroutine.toTree number).2 = number + subroutine.nodes := by
  rw [subroutine.toTree_eq]

theorem ClassDeclaration.toTree_eq (declaration : ClassDeclaration) (number : Nat) :
    declaration.toTree number = (.node number .classDec none
      ([(wordLeaf declaration.keyword.val (number + 1)).1,
        .node (number + 2) .identifier (some declaration.name.val) [],
        (wordLeaf declaration.opening.val (number + 3)).1] ++
        (treesOf ClassVariables.toTree declaration.declarations [] (number + 4)).1 ++
        (treesOf SubroutineDeclaration.toTree declaration.subroutines []
          (number + 4 + nodesOf ClassVariables.nodes declaration.declarations)).1 ++
        [(wordLeaf declaration.closing.val
          (number + 4 + nodesOf ClassVariables.nodes declaration.declarations +
            nodesOf SubroutineDeclaration.nodes declaration.subroutines)).1]),
      number + declaration.nodes) := by
  have first := treesOf_next ClassVariables.toTree_next declaration.declarations [] (number + 4)
  have second := treesOf_next SubroutineDeclaration.toTree_next declaration.subroutines []
    (number + 4 + nodesOf ClassVariables.nodes declaration.declarations)
  refine Prod.ext ?_ ?_
  · simp only [toTree, Numbering.bind_apply, Numbering.nextNumber_apply, Numbering.nameLeaf_apply,
      Numbering.wordLeaf_next, Numbering.pure_apply, first, second]
  · simp only [toTree, Numbering.bind_apply, Numbering.nextNumber_apply, Numbering.nameLeaf_apply,
      Numbering.wordLeaf_next, Numbering.pure_apply, first, second, nodes]
    omega

end JackCompiler
