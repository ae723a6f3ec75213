import JackCompiler.Proofs.Phrase.Declarations
import JackCompiler.Proofs.Tree

namespace JackCompiler

/-- The nodes of the trees have so many numbers from `low` on, each of them once. -/
private def Numbered (low size : Nat) (trees : List Tree) : Prop :=
  ((Tree.nodesAll trees).map Tree.number).Perm (List.range' low size)

section Numbered

variable {low size more number : Nat} {tree : Tree} {trees others : List Tree} {kind : NodeKind}
  {token? : Option Token}

private theorem Numbered.sized (numbered : Numbered low size trees) (same : size = more) :
    Numbered low more trees :=
  same ▸ numbered

private theorem Numbered.moved (numbered : Numbered low size trees) (same : low = more) :
    Numbered more size trees :=
  same ▸ numbered

private theorem numbered_nil : Numbered low 0 [] := .nil

private theorem numbered_append (first : Numbered low size trees)
    (rest : Numbered (low + size) more others) : Numbered low (size + more) (trees ++ others) := by
  rw [Numbered, Tree.nodesAll_eq, List.flatMap_append, List.map_append, ← Tree.nodesAll_eq,
    ← Tree.nodesAll_eq, ← List.range'_append_1]
  exact first.append rest

private theorem numbered_cons (first : Numbered low size [tree])
    (rest : Numbered (low + size) more trees) : Numbered low (size + more) (tree :: trees) :=
  numbered_append first rest

private theorem numbered_node (below : Numbered (number + 1) size trees) :
    Numbered number (size + 1) [.node number kind token? trees] := by
  rw [Numbered, List.range'_succ]
  simpa [Tree.nodesAll, Tree.nodes] using show List.Perm _ _ from below

private theorem numbered_leaf : Numbered number 1 [.node number kind token? []] :=
  numbered_node numbered_nil

private theorem numbered_wordLeaf (token : Token) : Numbered number 1 [(wordLeaf token number).1] :=
  numbered_leaf

private theorem numbered_literalLeaf (token : Token) :
    Numbered number 1 [(literalLeaf token number).1] :=
  numbered_leaf

private theorem numbered_opened {token : Token} (rest : Numbered (number + 2) size trees) :
    Numbered number (size + 2)
      [.node (number + 1) kind none (.node number .identifier (some token) [] :: trees)] := by
  -- The name was numbered first, and the node that it opens second.
  rw [Numbered, List.range'_succ, List.range'_succ]
  refine .trans ?_ (List.Perm.swap _ _ _)
  simpa [Tree.nodesAll, Tree.nodes] using show List.Perm _ _ from rest

private theorem numbered_operator {left right : Tree} (first : Numbered number size [left])
    (second : Numbered (number + size + 1) more [right]) :
    Numbered number (size + 1 + more) [.node (number + size) kind token? [left, right]] := by
  have both : Numbered number (size + 1 + more) ([left] ++ .node (number + size) kind token? [] ::
      [right]) := by
    refine .sized (numbered_append first (numbered_cons numbered_leaf second)) ?_
    omega
  -- The operator was numbered between its operands, and is met before both.
  refine .trans ?_ both
  simpa [Tree.nodesAll, Tree.nodes] using List.perm_middle.symm

private theorem expression_nodes_pos (e : Expression) : 0 < e.nodes := by
  have next := e.operandTree_next 0
  omega

private theorem numbered_expression {e : Expression}
    (operand : ∀ number, Numbered number (e.nodes - 1) [(e.operandTree number).1])
    (number : Nat) : Numbered number e.nodes [(e.toTree number).1] := by
  have positive := expression_nodes_pos e
  rw [Expression.toTree]
  exact .sized (numbered_node (operand (number + 1))) (by omega)

private theorem numbered_moreArguments {more : List (Comma × Expression)}
    (each : ∀ pair ∈ more, ∀ number, Numbered number pair.2.nodes [(pair.2.toTree number).1])
    (number : Nat) :
    Numbered number (moreArgumentNodes more) (moreArgumentTrees more [] number).1 := by
  induction more generalizing number with
  | nil =>
    rw [moreArgumentTrees, moreArgumentNodes]
    exact numbered_nil
  | cons pair more ih =>
    obtain ⟨comma, argument⟩ := pair
    have one : ∀ number, Numbered number argument.nodes [(argument.toTree number).1] :=
      each _ (.head _)
    rw [moreArgumentTrees_cons, moreArgumentNodes]
    exact .sized (numbered_cons (numbered_wordLeaf _) (numbered_cons (one _)
      (ih (fun pair member => each pair (.tail _ member)) _))) (by omega)

private theorem numbered_expressions :
    (∀ (e : Expression) number, Numbered number (e.nodes - 1) [(e.operandTree number).1]) ∧
    (∀ (t : Term) number, Numbered number t.nodes [(t.toTree number).1]) ∧
    (∀ (c : Call) number, Numbered number c.nodes [(c.toTree number).1]) ∧
    (∀ (a : Arguments) number, Numbered number a.nodes [(a.toTree number).1]) := by
  apply Expression.induction
  case term =>
    intro t ih number
    rw [Expression.operandTree, Expression.nodes]
    exact ih number
  case binary =>
    intro left operator right first second number
    have positive := expression_nodes_pos left
    have next := left.operandTree_next number
    have here : (left.operandTree number).2 = number + (left.nodes - 1) := by omega
    rw [Expression.operandTree, Expression.nodes]
    simp only [Numbering.bind_apply, Numbering.nextNumber_apply, Numbering.pure_apply, here]
    exact .sized (numbered_operator (first number) (second _)) (by omega)
  case literal =>
    intro value number
    rw [Term.toTree, Term.nodes]
    exact numbered_node (numbered_literalLeaf _)
  case name =>
    intro name number
    rw [Term.toTree, Term.nodes]
    exact numbered_node numbered_leaf
  case element =>
    intro array opening index closing ih number
    simp only [Term.toTree, Numbering.bind_apply, Numbering.nextNumber_apply,
      Numbering.nameLeaf_apply, Numbering.wordLeaf_next, Numbering.pure_apply,
      Expression.toTree_next]
    exact .sized (numbered_node (numbered_opened (numbered_cons (numbered_wordLeaf _)
      (numbered_cons (numbered_expression ih _) (numbered_wordLeaf _))))) (by
        simp only [Term.nodes]
        omega)
  case call =>
    intro c ih number
    rw [Term.toTree, Term.nodes]
    exact numbered_node (ih _)
  case group =>
    intro opening inner closing ih number
    simp only [Term.toTree, Numbering.bind_apply, Numbering.nextNumber_apply,
      Numbering.wordLeaf_next, Numbering.pure_apply, Expression.toTree_next]
    exact .sized (numbered_node (numbered_cons (numbered_wordLeaf _)
      (numbered_cons (numbered_expression ih _) (numbered_wordLeaf _)))) (by
        simp only [Term.nodes]
        omega)
  case unary =>
    intro operator operand ih number
    rw [Term.toTree, Term.nodes]
    exact numbered_node (numbered_node (ih _))
  case bare =>
    intro name opening arguments closing ih number
    simp only [Call.toTree, Numbering.bind_apply, Numbering.nextNumber_apply,
      Numbering.nameLeaf_apply, Numbering.wordLeaf_next, Numbering.pure_apply,
      Arguments.toTree_next]
    exact .sized (numbered_opened (numbered_cons (numbered_wordLeaf _)
      (numbered_cons (ih _) (numbered_wordLeaf _)))) (by
        simp only [Call.nodes]
        omega)
  case qualified =>
    intro qualifier dot name opening arguments closing ih number
    simp only [Call.toTree, Numbering.bind_apply, Numbering.nextNumber_apply,
      Numbering.nameLeaf_apply, Numbering.wordLeaf_next, Numbering.pure_apply,
      Arguments.toTree_next]
    exact .sized (numbered_opened (numbered_cons (numbered_wordLeaf _) (numbered_cons numbered_leaf
      (numbered_cons (numbered_wordLeaf _) (numbered_cons (ih _) (numbered_wordLeaf _))))))
        (by
          simp only [Call.nodes]
          omega)
  case empty =>
    intro number
    rw [Arguments.toTree, Arguments.nodes]
    exact numbered_leaf
  case listed =>
    intro first more one each number
    rw [Arguments.toTree_listed, Arguments.nodes]
    exact numbered_node (numbered_cons (numbered_expression one _) (numbered_moreArguments
      (fun pair member => numbered_expression (each pair member)) _))

private theorem numbered_statementTrees {statements : List Statement}
    (each : ∀ s ∈ statements, ∀ number, Numbered number s.nodes [(s.toTree number).1])
    (number : Nat) :
    Numbered number (statementNodes statements) (statementTrees statements [] number).1 := by
  induction statements generalizing number with
  | nil =>
    rw [statementTrees, statementNodes]
    exact numbered_nil
  | cons s statements ih =>
    rw [statementTrees_cons, statementNodes]
    exact numbered_cons (each s (.head _) _) (ih (fun s member => each s (.tail _ member)) _)

private theorem numbered_statements :
    (∀ (s : Statement) number, Numbered number s.nodes [(s.toTree number).1]) ∧
    (∀ (b : Block) number, Numbered number b.nodes (b.toTrees number).1) := by
  have inner (e : Expression) (number : Nat) : Numbered number e.nodes [(e.toTree number).1] :=
    numbered_expression (numbered_expressions.1 e) number
  apply Statement.induction
  case assign =>
    intro keyword target equals value semicolon number
    simp only [Statement.toTree, Numbering.bind_apply, Numbering.nextNumber_apply,
      Numbering.nameLeaf_apply, Numbering.wordLeaf_next, Numbering.pure_apply,
      Expression.toTree_next]
    exact .sized (numbered_node (numbered_cons (numbered_wordLeaf _) (numbered_cons
      (numbered_opened (numbered_cons (numbered_wordLeaf _) (inner value _)))
      (.moved (numbered_wordLeaf _) (by omega))))) (by
        simp only [Statement.nodes]
        omega)
  case assignElement =>
    intro keyword array opening index closing equals value semicolon number
    simp only [Statement.toTree, Numbering.bind_apply, Numbering.nextNumber_apply,
      Numbering.nameLeaf_apply, Numbering.wordLeaf_next, Numbering.pure_apply,
      Expression.toTree_next]
    exact .sized (numbered_node (numbered_cons (numbered_wordLeaf _) (numbered_cons
      (numbered_opened (numbered_cons (numbered_wordLeaf _) (numbered_cons (inner index _)
        (numbered_cons (numbered_wordLeaf _) (numbered_cons (numbered_wordLeaf _)
          (inner value _))))))
      (.moved (numbered_wordLeaf _) (by omega))))) (by
        simp only [Statement.nodes]
        omega)
  case ifThen =>
    intro keyword opening condition closing body ih number
    simp only [Statement.toTree, Numbering.bind_apply, Numbering.nextNumber_apply,
      Numbering.wordLeaf_next, Numbering.pure_apply, Expression.toTree_next]
    exact .sized (numbered_node (numbered_cons (numbered_wordLeaf _)
      (numbered_cons (numbered_wordLeaf _) (numbered_cons (inner condition _)
        (numbered_cons (numbered_wordLeaf _) (ih _)))))) (by
          simp only [Statement.nodes]
          omega)
  case ifElse =>
    intro keyword opening condition closing body otherwise alternative ih ih' number
    simp only [Statement.toTree, Numbering.bind_apply, Numbering.nextNumber_apply,
      Numbering.wordLeaf_next, Numbering.pure_apply, Expression.toTree_next, Block.toTrees_next,
      List.append_assoc, List.cons_append, List.nil_append]
    exact .sized (numbered_node (numbered_cons (numbered_wordLeaf _)
      (numbered_cons (numbered_wordLeaf _) (numbered_cons (inner condition _)
        (numbered_cons (numbered_wordLeaf _) (numbered_append (ih _)
          (numbered_cons (numbered_wordLeaf _) (ih' _)))))))) (by
            simp only [Statement.nodes]
            omega)
  case loop =>
    intro keyword opening condition closing body ih number
    simp only [Statement.toTree, Numbering.bind_apply, Numbering.nextNumber_apply,
      Numbering.wordLeaf_next, Numbering.pure_apply, Expression.toTree_next]
    exact .sized (numbered_node (numbered_cons (numbered_wordLeaf _)
      (numbered_cons (numbered_wordLeaf _) (numbered_cons (inner condition _)
        (numbered_cons (numbered_wordLeaf _) (ih _)))))) (by
          simp only [Statement.nodes]
          omega)
  case perform =>
    intro keyword call semicolon number
    simp only [Statement.toTree, Numbering.bind_apply, Numbering.nextNumber_apply,
      Numbering.wordLeaf_next, Numbering.pure_apply, Call.toTree_next]
    exact .sized (numbered_node (numbered_cons (numbered_wordLeaf _) (numbered_cons
      (numbered_expressions.2.2.1 call _) (numbered_wordLeaf _)))) (by
        simp only [Statement.nodes]
        omega)
  case returnNothing =>
    intro keyword semicolon number
    rw [Statement.toTree, Statement.nodes]
    exact numbered_node (numbered_cons (numbered_wordLeaf _) (numbered_wordLeaf _))
  case returnValue =>
    intro keyword value semicolon number
    simp only [Statement.toTree, Numbering.bind_apply, Numbering.nextNumber_apply,
      Numbering.wordLeaf_next, Numbering.pure_apply, Expression.toTree_next]
    exact .sized (numbered_node (numbered_cons (numbered_wordLeaf _) (numbered_cons (inner value _)
      (numbered_wordLeaf _)))) (by
        simp only [Statement.nodes]
        omega)
  case braced =>
    intro opening statements closing each number
    simp only [Block.toTrees, Numbering.bind_apply, Numbering.nextNumber_apply,
      Numbering.wordLeaf_next, Numbering.pure_apply, statementTrees_next]
    exact .sized (numbered_cons (numbered_wordLeaf _) (numbered_cons
      (numbered_node (numbered_statementTrees each _))
      (.moved (numbered_wordLeaf _) (by omega)))) (by
        simp only [Block.nodes]
        omega)

private theorem numbered_statementsTree (statements : List Statement) (number : Nat) :
    Numbered number (statementNodes statements + 1) [(statementsTree statements number).1] :=
  numbered_node (numbered_statementTrees (fun s _ => numbered_statements.1 s) (number + 1))

private theorem numbered_typeName (type : TypeName) (number : Nat) :
    Numbered number 1 [(type.toTree number).1] := by
  cases type with
  | builtIn word => exact numbered_wordLeaf _
  | named name => exact numbered_leaf

private theorem numbered_returnType (type : ReturnType) (number : Nat) :
    Numbered number 1 [(type.toTree number).1] := by
  cases type with
  | void word => exact numbered_wordLeaf _
  | value type => exact numbered_typeName type number

private theorem numbered_moreNames (more : List (Comma × Name)) (number : Nat) :
    Numbered number (2 * more.length) (moreNameTrees more [] number).1 := by
  induction more generalizing number with
  | nil => exact numbered_nil
  | cons pair more ih =>
    rw [moreNameTrees_cons, List.length_cons]
    exact .sized (numbered_cons (numbered_wordLeaf _) (numbered_cons numbered_leaf (ih _)))
      (by omega)

private theorem numbered_nameList (names : NameList) (number : Nat) :
    Numbered number names.nodes (names.toTrees number).1 := by
  rw [names.toTrees_eq, NameList.nodes]
  exact .sized (numbered_cons numbered_leaf (numbered_moreNames _ _)) (by omega)

private theorem numbered_declarationLeaves (first last : Token) (type : TypeName)
    (names : NameList) (number : Nat) :
    Numbered (number + 1) (names.nodes + 3) (declarationLeaves first last type names number) := by
  simp only [declarationLeaves, List.cons_append, List.nil_append]
  exact .sized (numbered_cons (numbered_wordLeaf _) (numbered_cons (numbered_typeName _ _)
    (numbered_append (numbered_nameList _ _) (numbered_wordLeaf _)))) (by omega)

private theorem numbered_classVariables (declaration : ClassVariables) (number : Nat) :
    Numbered number declaration.nodes [(declaration.toTree number).1] := by
  rw [declaration.toTree_eq, ClassVariables.nodes]
  exact numbered_node (numbered_declarationLeaves _ _ _ _ _)

private theorem numbered_localVariables (declaration : LocalVariables) (number : Nat) :
    Numbered number declaration.nodes [(declaration.toTree number).1] := by
  rw [declaration.toTree_eq, LocalVariables.nodes]
  exact numbered_node (numbered_declarationLeaves _ _ _ _ _)

private theorem numbered_moreParameters (more : List (Comma × Parameter)) (number : Nat) :
    Numbered number (3 * more.length) (moreParameterTrees more [] number).1 := by
  induction more generalizing number with
  | nil => exact numbered_nil
  | cons pair more ih =>
    rw [moreParameterTrees_cons, List.length_cons]
    exact .sized (numbered_cons (numbered_wordLeaf _) (numbered_cons (numbered_typeName _ _)
      (numbered_cons numbered_leaf (ih _)))) (by omega)

private theorem numbered_parameters (parameters : Parameters) (number : Nat) :
    Numbered number parameters.nodes [(parameters.toTree number).1] := by
  cases parameters with
  | empty => exact numbered_leaf
  | listed first more =>
    rw [Parameters.toTree_listed, Parameters.nodes]
    exact .sized (numbered_node (numbered_cons (numbered_typeName _ _) (numbered_cons numbered_leaf
      (numbered_moreParameters _ _)))) (by omega)

private theorem numbered_treesOf {α : Type} {toTree : α → Numbering Tree} {nodes : α → Nat}
    (next : ∀ x number, (toTree x number).2 = number + nodes x)
    (each : ∀ x number, Numbered number (nodes x) [(toTree x number).1])
    (phrases : List α) (number : Nat) :
    Numbered number (nodesOf nodes phrases) (treesOf toTree phrases [] number).1 := by
  induction phrases generalizing number with
  | nil => exact numbered_nil
  | cons phrase phrases ih =>
    rw [treesOf_cons, next, nodesOf]
    exact numbered_cons (each phrase number) (ih _)

private theorem numbered_body (body : SubroutineBody) (number : Nat) :
    Numbered number body.nodes [(body.toTree number).1] := by
  simp only [body.toTree_eq, SubroutineBody.nodes, List.cons_append, List.nil_append]
  exact .sized (numbered_node (numbered_cons (numbered_wordLeaf _) (numbered_append
    (numbered_treesOf LocalVariables.toTree_next numbered_localVariables _ _)
    (numbered_cons (numbered_statementsTree _ _)
      (.moved (numbered_wordLeaf _) (by omega)))))) (by omega)

private theorem numbered_subroutine (subroutine : SubroutineDeclaration) (number : Nat) :
    Numbered number subroutine.nodes [(subroutine.toTree number).1] := by
  rw [subroutine.toTree_eq, SubroutineDeclaration.nodes]
  exact .sized (numbered_node (numbered_cons (numbered_wordLeaf _) (numbered_cons
    (numbered_returnType _ _) (numbered_cons numbered_leaf (numbered_cons (numbered_wordLeaf _)
      (numbered_cons (numbered_parameters _ _) (numbered_cons (numbered_wordLeaf _)
        (.moved (numbered_body _ _) (by omega))))))))) (by omega)

private theorem numbered_class (declaration : ClassDeclaration) (number : Nat) :
    Numbered number declaration.nodes [(declaration.toTree number).1] := by
  simp only [declaration.toTree_eq, ClassDeclaration.nodes, List.append_assoc, List.cons_append,
    List.nil_append]
  exact .sized (numbered_node (numbered_cons (numbered_wordLeaf _) (numbered_cons numbered_leaf
    (numbered_cons (numbered_wordLeaf _) (numbered_append
      (numbered_treesOf ClassVariables.toTree_next numbered_classVariables _ _) (numbered_append
        (numbered_treesOf SubroutineDeclaration.toTree_next numbered_subroutine _ _)
        (numbered_wordLeaf _))))))) (by omega)

private theorem numbered_phrase (phrase : Phrase) (number : Nat) :
    ∃ size, Numbered number size (phrase.toTrees number).1 := by
  cases phrase with
  | classDeclaration phrase => exact ⟨_, numbered_class phrase number⟩
  | classVariables phrases =>
    exact ⟨_, numbered_treesOf ClassVariables.toTree_next numbered_classVariables phrases number⟩
  | subroutineDeclaration phrase => exact ⟨_, numbered_subroutine phrase number⟩
  | parameters phrase => exact ⟨_, numbered_parameters phrase number⟩
  | subroutineBody phrase => exact ⟨_, numbered_body phrase number⟩
  | statements phrases => exact ⟨_, numbered_statementsTree phrases number⟩
  | statement phrase => exact ⟨_, numbered_statements.1 phrase number⟩
  | expression phrase =>
    exact ⟨_, numbered_expression (numbered_expressions.1 phrase) number⟩
  | term phrase => exact ⟨_, numbered_expressions.2.1 phrase number⟩
  | arguments phrase => exact ⟨_, numbered_expressions.2.2.2 phrase number⟩

end Numbered

/-- The numbers of a tree are those below the count of its nodes, each of them once. -/
theorem Phrase.preorder_perm (phrase : Phrase) :
    phrase.toTree.preorder.Perm (List.range phrase.toTree.size) := by
  obtain ⟨size, below⟩ := numbered_phrase phrase 1
  have numbered : Numbered 0 (size + 1) [phrase.toTree] := numbered_node below
  have all : (phrase.toTree.nodes.map Tree.number).Perm (List.range' 0 (size + 1)) := by
    simpa [Numbered, Tree.nodesAll] using numbered
  have count : phrase.toTree.size = size + 1 := by
    simpa [Tree.size_eq] using all.length_eq
  rw [Tree.preorder_eq, count, List.range_eq_range']
  exact all

end JackCompiler
