import JackCompiler.Proofs.Phrase.Declarations
import JackCompiler.Proofs.Phrase.Tokens

namespace JackCompiler

private def Spells (tree : Tree) (tokens : List Token) : Prop :=
  ∀ done, tree.terminalsFrom done = tokens.reverse ++ done

private def SpellsAll (trees : List Tree) (tokens : List Token) : Prop :=
  ∀ done, Tree.terminalsAllFrom trees done = tokens.reverse ++ done

section Spells

variable {tree : Tree} {trees others : List Tree} {tokens more : List Token}

private theorem Spells.of_eq (spells : Spells tree tokens) (same : tokens = more) :
    Spells tree more :=
  same ▸ spells

private theorem spellsAll_nil : SpellsAll [] [] := fun _ => rfl

private theorem spellsAll_cons (first : Spells tree tokens) (rest : SpellsAll trees more) :
    SpellsAll (tree :: trees) (tokens ++ more) := by
  intro done
  rw [Tree.terminalsAllFrom, first, rest, List.reverse_append, List.append_assoc]

private theorem spellsAll_append (first : SpellsAll trees tokens) (rest : SpellsAll others more) :
    SpellsAll (trees ++ others) (tokens ++ more) := by
  intro done
  have split (done : List Token) : Tree.terminalsAllFrom (trees ++ others) done =
      Tree.terminalsAllFrom others (Tree.terminalsAllFrom trees done) := by
    clear first
    induction trees generalizing done with
    | nil => rfl
    | cons tree trees ih => exact ih _
  rw [split, first, rest, List.reverse_append, List.append_assoc]

private theorem spells_node {number : Nat} {kind : NodeKind} (all : SpellsAll trees tokens) :
    Spells (.node number kind none trees) tokens := by
  intro done
  cases kind <;> exact all done

private theorem spells_leaf {number : Nat} {kind : NodeKind} (token : Token)
    (leaf : kind ≠ .binaryOp) : Spells (.node number kind (some token) []) [token] := by
  intro done
  cases kind
  case binaryOp => exact absurd rfl leaf
  all_goals rfl

private theorem spells_nameLeaf (token : Token) (number : Nat) :
    Spells (.node number .identifier (some token) []) [token] :=
  spells_leaf token nofun

private theorem spells_wordLeaf (token : Token) (number : Nat) :
    Spells (wordLeaf token number).1 [token] := by
  change Spells (.node number (if token.kind = .keyword then .keyword else .symbol) _ []) _
  split
  · exact spells_leaf token nofun
  · exact spells_leaf token nofun

private theorem spells_literalLeaf (token : Token) (number : Nat) :
    Spells (literalLeaf token number).1 [token] := by
  obtain ⟨line, kind, value⟩ := token
  cases kind <;> exact spells_leaf _ nofun

private theorem spells_expression {e : Expression}
    (operand : ∀ number, Spells (e.operandTree number).1 e.tokens) (number : Nat) :
    Spells (e.toTree number).1 e.tokens := by
  rw [Expression.toTree, ← e.tokens.append_nil]
  exact spells_node (spellsAll_cons (operand _) spellsAll_nil)

private theorem spells_binary {left : Expression} {operator : Word binaryOperators} {right : Term}
    (first : ∀ number, Spells (left.operandTree number).1 left.tokens)
    (second : ∀ number, Spells (right.toTree number).1 right.tokens) (number : Nat) :
    Spells ((Expression.binary left operator right).operandTree number).1
      (Expression.binary left operator right).tokens := by
  intro done
  rw [Expression.operandTree, Expression.tokens]
  change Tree.terminalsAllFrom [(right.toTree _).1]
    (operator.val :: (left.operandTree number).1.terminalsFrom done) = _
  rw [first, spellsAll_cons (second _) spellsAll_nil]
  simp

private theorem spells_moreArguments {more : List (Comma × Expression)}
    (each : ∀ pair ∈ more, ∀ number, Spells (pair.2.toTree number).1 pair.2.tokens)
    (number : Nat) :
    SpellsAll (moreArgumentTrees more [] number).1 (moreArgumentTokens more) := by
  induction more generalizing number with
  | nil =>
    rw [moreArgumentTrees, moreArgumentTokens]
    exact spellsAll_nil
  | cons pair more ih =>
    obtain ⟨comma, argument⟩ := pair
    rw [moreArgumentTrees_cons, moreArgumentTokens]
    exact spellsAll_cons (spells_wordLeaf _ _) (spellsAll_cons (each _ (.head _) _)
      (ih (fun pair member => each pair (.tail _ member)) _))

private theorem spells_all :
    (∀ (e : Expression) number, Spells (e.operandTree number).1 e.tokens) ∧
    (∀ (t : Term) number, Spells (t.toTree number).1 t.tokens) ∧
    (∀ (c : Call) number, Spells (c.toTree number).1 c.tokens) ∧
    (∀ (a : Arguments) number, Spells (a.toTree number).1 a.tokens) := by
  apply Expression.induction
  case term =>
    intro t ih number
    rw [Expression.operandTree, Expression.tokens]
    exact ih number
  case binary => exact fun _ _ _ first second number => spells_binary first second number
  case literal =>
    intro value number
    rw [Term.toTree, Term.tokens]
    exact spells_node (spellsAll_cons (spells_literalLeaf _ _) spellsAll_nil)
  case name =>
    intro name number
    rw [Term.toTree, Term.tokens]
    exact spells_node (spellsAll_cons (spells_nameLeaf _ _) spellsAll_nil)
  case element =>
    intro array opening index closing ih number
    rw [Term.toTree, Term.tokens]
    exact (spells_node (spellsAll_cons (spells_node (spellsAll_cons (spells_nameLeaf _ _)
      (spellsAll_cons (spells_wordLeaf _ _) (spellsAll_cons (spells_expression ih _)
        (spellsAll_cons (spells_wordLeaf _ _) spellsAll_nil))))) spellsAll_nil)).of_eq (by simp)
  case call =>
    intro c ih number
    rw [Term.toTree, Term.tokens]
    exact (spells_node (spellsAll_cons (ih _) spellsAll_nil)).of_eq (by simp)
  case group =>
    intro opening inner closing ih number
    rw [Term.toTree, Term.tokens]
    exact (spells_node (spellsAll_cons (spells_wordLeaf _ _) (spellsAll_cons
      (spells_expression ih _) (spellsAll_cons (spells_wordLeaf _ _) spellsAll_nil)))).of_eq
        (by simp)
  case unary =>
    intro operator operand ih number
    have operation : Spells (.node (number + 1) .unaryOp (some operator.val)
        [(operand.toTree (number + 2)).1]) (operator.val :: operand.tokens) := by
      intro done
      change Tree.terminalsAllFrom [_] (operator.val :: done) = _
      rw [spellsAll_cons (ih _) spellsAll_nil]
      simp
    rw [Term.toTree, Term.tokens]
    exact (spells_node (spellsAll_cons operation spellsAll_nil)).of_eq (by simp)
  case bare =>
    intro name opening arguments closing ih number
    rw [Call.toTree, Call.tokens]
    exact (spells_node (spellsAll_cons (spells_nameLeaf _ _) (spellsAll_cons (spells_wordLeaf _ _)
      (spellsAll_cons (ih _) (spellsAll_cons (spells_wordLeaf _ _) spellsAll_nil))))).of_eq
        (by simp)
  case qualified =>
    intro qualifier dot name opening arguments closing ih number
    rw [Call.toTree, Call.tokens]
    exact (spells_node (spellsAll_cons (spells_nameLeaf _ _) (spellsAll_cons (spells_wordLeaf _ _)
      (spellsAll_cons (spells_nameLeaf _ _) (spellsAll_cons (spells_wordLeaf _ _)
        (spellsAll_cons (ih _) (spellsAll_cons (spells_wordLeaf _ _) spellsAll_nil))))))).of_eq
          (by simp)
  case empty =>
    intro number
    rw [Arguments.toTree, Arguments.tokens]
    exact spells_node spellsAll_nil
  case listed =>
    intro first more one each number
    rw [Arguments.toTree_listed, Arguments.tokens]
    exact spells_node (spellsAll_cons (spells_expression one _) (spells_moreArguments
      (fun pair member => spells_expression (each pair member)) _))

private theorem spells_statementTrees {statements : List Statement}
    (each : ∀ s ∈ statements, ∀ number, Spells (s.toTree number).1 s.tokens) (number : Nat) :
    SpellsAll (statementTrees statements [] number).1 (statementTokens statements) := by
  induction statements generalizing number with
  | nil =>
    rw [statementTrees, statementTokens]
    exact spellsAll_nil
  | cons s statements ih =>
    rw [statementTrees_cons, statementTokens]
    exact spellsAll_cons (each s (.head _) _) (ih (fun s member => each s (.tail _ member)) _)

private theorem spells_statementsTree {statements : List Statement}
    (each : ∀ s ∈ statements, ∀ number, Spells (s.toTree number).1 s.tokens) (number : Nat) :
    Spells (statementsTree statements number).1 (statementTokens statements) :=
  spells_node (spells_statementTrees each (number + 1))

private theorem spells_all_statements :
    (∀ (s : Statement) number, Spells (s.toTree number).1 s.tokens) ∧
    (∀ (b : Block) number, SpellsAll (b.toTrees number).1 b.tokens) := by
  have inner (e : Expression) (number : Nat) : Spells (e.toTree number).1 e.tokens :=
    spells_expression (spells_all.1 e) number
  apply Statement.induction
  case assign =>
    intro keyword target equals value semicolon number
    rw [Statement.toTree, Statement.tokens]
    exact (spells_node (spellsAll_cons (spells_wordLeaf _ _) (spellsAll_cons
      (spells_node (spellsAll_cons (spells_nameLeaf _ _) (spellsAll_cons (spells_wordLeaf _ _)
        (spellsAll_cons (inner value _) spellsAll_nil))))
      (spellsAll_cons (spells_wordLeaf _ _) spellsAll_nil)))).of_eq (by simp)
  case assignElement =>
    intro keyword array opening index closing equals value semicolon number
    rw [Statement.toTree, Statement.tokens]
    exact (spells_node (spellsAll_cons (spells_wordLeaf _ _) (spellsAll_cons
      (spells_node (spellsAll_cons (spells_nameLeaf _ _) (spellsAll_cons (spells_wordLeaf _ _)
        (spellsAll_cons (inner index _) (spellsAll_cons (spells_wordLeaf _ _)
          (spellsAll_cons (spells_wordLeaf _ _)
            (spellsAll_cons (inner value _) spellsAll_nil)))))))
      (spellsAll_cons (spells_wordLeaf _ _) spellsAll_nil)))).of_eq (by simp)
  case ifThen =>
    intro keyword opening condition closing body ih number
    rw [Statement.toTree, Statement.tokens]
    exact (spells_node (spellsAll_append (spellsAll_cons (spells_wordLeaf _ _)
      (spellsAll_cons (spells_wordLeaf _ _) (spellsAll_cons (inner condition _)
        (spellsAll_cons (spells_wordLeaf _ _) spellsAll_nil)))) (ih _))).of_eq (by simp)
  case ifElse =>
    intro keyword opening condition closing body otherwise alternative ih ih' number
    rw [Statement.toTree, Statement.tokens]
    exact (spells_node (spellsAll_append (spellsAll_append (spellsAll_append
      (spellsAll_cons (spells_wordLeaf _ _) (spellsAll_cons (spells_wordLeaf _ _)
        (spellsAll_cons (inner condition _) (spellsAll_cons (spells_wordLeaf _ _) spellsAll_nil))))
      (ih _)) (spellsAll_cons (spells_wordLeaf _ _) spellsAll_nil)) (ih' _))).of_eq (by simp)
  case loop =>
    intro keyword opening condition closing body ih number
    rw [Statement.toTree, Statement.tokens]
    exact (spells_node (spellsAll_append (spellsAll_cons (spells_wordLeaf _ _)
      (spellsAll_cons (spells_wordLeaf _ _) (spellsAll_cons (inner condition _)
        (spellsAll_cons (spells_wordLeaf _ _) spellsAll_nil)))) (ih _))).of_eq (by simp)
  case perform =>
    intro keyword call semicolon number
    rw [Statement.toTree, Statement.tokens]
    exact spells_node (spellsAll_cons (spells_wordLeaf _ _) (spellsAll_cons
      (spells_all.2.2.1 call _) (spellsAll_cons (spells_wordLeaf _ _) spellsAll_nil)))
  case returnNothing =>
    intro keyword semicolon number
    rw [Statement.toTree, Statement.tokens]
    exact spells_node (spellsAll_cons (spells_wordLeaf _ _)
      (spellsAll_cons (spells_wordLeaf _ _) spellsAll_nil))
  case returnValue =>
    intro keyword value semicolon number
    rw [Statement.toTree, Statement.tokens]
    exact spells_node (spellsAll_cons (spells_wordLeaf _ _) (spellsAll_cons (inner value _)
      (spellsAll_cons (spells_wordLeaf _ _) spellsAll_nil)))
  case braced =>
    intro opening statements closing each number
    rw [Block.toTrees, Block.tokens]
    exact spellsAll_cons (spells_wordLeaf _ _) (spellsAll_cons
      (spells_statementsTree each _) (spellsAll_cons (spells_wordLeaf _ _) spellsAll_nil))

private theorem SpellsAll.of_eq (spells : SpellsAll trees tokens) (same : tokens = more) :
    SpellsAll trees more :=
  same ▸ spells

private theorem spells_typeName (type : TypeName) (number : Nat) :
    Spells (type.toTree number).1 type.tokens := by
  cases type with
  | builtIn word => exact spells_wordLeaf _ _
  | named name => exact spells_nameLeaf _ _

private theorem spells_returnType (type : ReturnType) (number : Nat) :
    Spells (type.toTree number).1 type.tokens := by
  cases type with
  | void word => exact spells_wordLeaf _ _
  | value type => exact spells_typeName type number

private theorem spellsAll_moreNames (more : List (Comma × Name)) (number : Nat) :
    SpellsAll (moreNameTrees more [] number).1 (commaTokens nameTokens more) := by
  induction more generalizing number with
  | nil => exact spellsAll_nil
  | cons pair more ih =>
    rw [moreNameTrees_cons]
    exact (spellsAll_cons (spells_wordLeaf _ _) (spellsAll_cons (spells_nameLeaf _ _)
      (ih _))).of_eq (by simp [commaTokens, nameTokens])

private theorem spellsAll_nameList (names : NameList) (number : Nat) :
    SpellsAll (names.toTrees number).1 names.tokens := by
  rw [names.toTrees_eq]
  exact spellsAll_cons (spells_nameLeaf _ _) (spellsAll_moreNames _ _)

private theorem spellsAll_declarationLeaves (first last : Token) (type : TypeName)
    (names : NameList) (number : Nat) :
    SpellsAll (declarationLeaves first last type names number)
      (first :: (type.tokens ++ (names.tokens ++ [last]))) :=
  (spellsAll_append (spellsAll_append (spellsAll_cons (spells_wordLeaf _ _)
    (spellsAll_cons (spells_typeName type _) spellsAll_nil)) (spellsAll_nameList names _))
    (spellsAll_cons (spells_wordLeaf _ _) spellsAll_nil)).of_eq (by simp)

private theorem spells_classVariables (declaration : ClassVariables) (number : Nat) :
    Spells (declaration.toTree number).1 declaration.tokens := by
  rw [declaration.toTree_eq]
  exact spells_node (spellsAll_declarationLeaves _ _ _ _ _)

private theorem spells_localVariables (declaration : LocalVariables) (number : Nat) :
    Spells (declaration.toTree number).1 declaration.tokens := by
  rw [declaration.toTree_eq]
  exact spells_node (spellsAll_declarationLeaves _ _ _ _ _)

private theorem spellsAll_moreParameters (more : List (Comma × Parameter)) (number : Nat) :
    SpellsAll (moreParameterTrees more [] number).1 (commaTokens Parameter.tokens more) := by
  induction more generalizing number with
  | nil => exact spellsAll_nil
  | cons pair more ih =>
    rw [moreParameterTrees_cons]
    exact (spellsAll_cons (spells_wordLeaf _ _) (spellsAll_cons (spells_typeName _ _)
      (spellsAll_cons (spells_nameLeaf _ _) (ih _)))).of_eq
        (by simp [commaTokens, Parameter.tokens])

private theorem spells_parameters (parameters : Parameters) (number : Nat) :
    Spells (parameters.toTree number).1 parameters.tokens := by
  cases parameters with
  | empty => exact spells_node spellsAll_nil
  | listed first more =>
    rw [Parameters.toTree_listed]
    exact (spells_node (spellsAll_cons (spells_typeName _ _) (spellsAll_cons
      (spells_nameLeaf _ _) (spellsAll_moreParameters _ _)))).of_eq
        (by simp [Parameters.tokens, Parameter.tokens])

private theorem spellsAll_treesOf {α : Type} {toTree : α → Numbering Tree}
    {spelling : α → List Token} (each : ∀ x number, Spells (toTree x number).1 (spelling x))
    (phrases : List α) (number : Nat) :
    SpellsAll (treesOf toTree phrases [] number).1 (phrases.flatMap spelling) := by
  induction phrases generalizing number with
  | nil => exact spellsAll_nil
  | cons phrase phrases ih =>
    rw [treesOf_cons]
    exact spellsAll_cons (each phrase number) (ih _)

private theorem spells_body (body : SubroutineBody) (number : Nat) :
    Spells (body.toTree number).1 body.tokens := by
  rw [body.toTree_eq]
  exact (spells_node (spellsAll_append (spellsAll_append
    (spellsAll_cons (spells_wordLeaf _ _) spellsAll_nil)
    (spellsAll_treesOf spells_localVariables _ _))
    (spellsAll_cons (spells_statementsTree (fun s _ => spells_all_statements.1 s) _)
      (spellsAll_cons (spells_wordLeaf _ _) spellsAll_nil)))).of_eq
        (by simp [SubroutineBody.tokens])

private theorem spells_subroutine (subroutine : SubroutineDeclaration) (number : Nat) :
    Spells (subroutine.toTree number).1 subroutine.tokens := by
  rw [subroutine.toTree_eq]
  exact (spells_node (spellsAll_cons (spells_wordLeaf _ _)
    (spellsAll_cons (spells_returnType _ _) (spellsAll_cons (spells_nameLeaf _ _)
      (spellsAll_cons (spells_wordLeaf _ _) (spellsAll_cons (spells_parameters _ _)
        (spellsAll_cons (spells_wordLeaf _ _)
          (spellsAll_cons (spells_body _ _) spellsAll_nil)))))))).of_eq
            (by simp [SubroutineDeclaration.tokens])

private theorem spells_class (declaration : ClassDeclaration) (number : Nat) :
    Spells (declaration.toTree number).1 declaration.tokens := by
  rw [declaration.toTree_eq]
  exact (spells_node (spellsAll_append (spellsAll_append (spellsAll_append
    (spellsAll_cons (spells_wordLeaf _ _) (spellsAll_cons (spells_nameLeaf _ _)
      (spellsAll_cons (spells_wordLeaf _ _) spellsAll_nil)))
    (spellsAll_treesOf spells_classVariables _ _)) (spellsAll_treesOf spells_subroutine _ _))
    (spellsAll_cons (spells_wordLeaf _ _) spellsAll_nil))).of_eq
      (by simp [ClassDeclaration.tokens])

private theorem spellsAll_phrase (phrase : Phrase) (number : Nat) :
    SpellsAll (phrase.toTrees number).1 phrase.tokens := by
  have one {tree : Tree} {tokens : List Token} (spells : Spells tree tokens) :
      SpellsAll [tree] tokens := (spellsAll_cons spells spellsAll_nil).of_eq (by simp)
  cases phrase with
  | classDeclaration phrase => exact one (spells_class phrase number)
  | classVariables phrases => exact spellsAll_treesOf spells_classVariables phrases number
  | subroutineDeclaration phrase => exact one (spells_subroutine phrase number)
  | parameters phrase => exact one (spells_parameters phrase number)
  | subroutineBody phrase => exact one (spells_body phrase number)
  | statements phrases =>
    exact one (spells_statementsTree (fun s _ => spells_all_statements.1 s) number)
  | statement phrase => exact one (spells_all_statements.1 phrase number)
  | expression phrase => exact one (spells_expression (spells_all.1 phrase) number)
  | term phrase => exact one (spells_all.2.1 phrase number)
  | arguments phrase => exact one (spells_all.2.2.2 phrase number)

end Spells

theorem Expression.toTree_terminals (e : Expression) (number : Nat) :
    (e.toTree number).1.terminals = e.tokens := by
  rw [Tree.terminals, spells_expression (spells_all.1 e) number]
  simp

theorem statementsTree_terminals (statements : List Statement) (number : Nat) :
    (statementsTree statements number).1.terminals = statementTokens statements := by
  rw [Tree.terminals, spells_statementsTree (fun s _ => spells_all_statements.1 s) number]
  simp

theorem Phrase.toTree_terminals (phrase : Phrase) : phrase.toTree.terminals = phrase.tokens := by
  rw [Tree.terminals, Phrase.toTree, spells_node (spellsAll_phrase phrase 1)]
  simp

end JackCompiler
