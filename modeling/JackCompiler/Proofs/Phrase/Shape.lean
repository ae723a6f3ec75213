import JackCompiler.Proofs.Lexer
import JackCompiler.Proofs.Phrase.Declarations
import JackCompiler.Proofs.Tree

/-!
# Shapes of nodes

The children that a node of each kind has, as data, and the token that it carries. The tree of every
source that is read consists of such nodes only. Main statement: `parse_shaped`.
-/

namespace JackCompiler

/-! ## Shapes -/

/-- What a row of trees looks like, from the left. -/
inductive Shape
  | leaf (kind : NodeKind) (test : Token → Bool)
  | node (kinds : List NodeKind)
  | nothing
  | sequence (first second : Shape)
  | choice (first second : Shape)
  | many (shape : Shape)

namespace Shape

def row (shapes : List Shape) : Shape := shapes.foldr sequence nothing

def optional (shape : Shape) : Shape := choice shape nothing

def word (texts : List String) : Shape :=
  leaf .keyword fun token => token.kind == .keyword && texts.contains token.value

def mark (texts : List String) : Shape := leaf .symbol (Token.isSymbolOf texts)

def name : Shape := leaf .identifier Token.isName

def memberName : Shape := leaf .identifier Token.isMemberName

def expression : Shape := node [.expression]

def type : Shape := choice (word ["int", "char", "boolean"]) name

def commaList (shape : Shape) : Shape := row [shape, many (row [mark [","], shape])]

def block : List Shape := [mark ["\x7b"], node [.statements], mark ["\x7d"]]

def statementKinds : List NodeKind :=
  [.letStatement, .doStatement, .ifStatement, .whileStatement, .returnStatement]

def ofEntry : EntryPoint → Shape
  | .classDeclaration => node [.classDec]
  | .classVariables => many (node [.classVarDec])
  | .subroutineDeclaration => node [.subroutineDec]
  | .parameters => node [.parameterList]
  | .subroutineBody => node [.subroutineBody]
  | .statements => node [.statements]
  | .statement => node statementKinds
  | .expression => expression
  | .term => node [.term]
  | .arguments => node [.expressionList]

def ofKind (entry : EntryPoint) : NodeKind → Shape
  | .start => ofEntry entry
  | .classDec =>
    row [word ["class"], name, mark ["\x7b"], many (node [.classVarDec]),
      many (node [.subroutineDec]), mark ["\x7d"]]
  | .classVarDec => row [word ["static", "field"], type, commaList name, mark [";"]]
  | .subroutineDec =>
    row [word ["constructor", "function", "method"], choice (word ["void"]) type, name, mark ["("],
      node [.parameterList], mark [")"], node [.subroutineBody]]
  | .parameterList => optional (commaList (row [type, name]))
  | .subroutineBody =>
    row [mark ["\x7b"], many (node [.varDec]), node [.statements], mark ["\x7d"]]
  | .varDec => row [word ["var"], type, commaList name, mark [";"]]
  | .statements => many (node statementKinds)
  | .letStatement => row [word ["let"], node [.assignment, .arrayAssignment], mark [";"]]
  | .assignment => row [name, mark ["="], expression]
  | .arrayAssignment => row [name, mark ["["], expression, mark ["]"], mark ["="], expression]
  | .ifStatement =>
    choice (row ([word ["if"], mark ["("], expression, mark [")"]] ++ block))
      (row ([word ["if"], mark ["("], expression, mark [")"]] ++ block ++ [word ["else"]] ++ block))
  | .whileStatement => row ([word ["while"], mark ["("], expression, mark [")"]] ++ block)
  | .doStatement => row [word ["do"], node [.subroutineCall], mark [";"]]
  | .returnStatement =>
    choice (row [word ["return"], mark [";"]]) (row [word ["return"], expression, mark [";"]])
  | .expression => node [.term, .binaryOp]
  | .term =>
    choice (node [.integerConstant, .stringConstant, .identifier, .arrayAccess, .subroutineCall,
      .unaryOp]) <|
    choice (word ["true", "false", "null", "this"]) (row [mark ["("], expression, mark [")"]])
  | .binaryOp => row [node [.term, .binaryOp], node [.term]]
  | .unaryOp => node [.term]
  | .subroutineCall =>
    choice (row [name, mark ["("], node [.expressionList], mark [")"]])
      (row [name, mark ["."], memberName, mark ["("], node [.expressionList], mark [")"]])
  | .expressionList => optional (commaList expression)
  | .arrayAccess => row [name, mark ["["], expression, mark ["]"]]
  | .keyword | .symbol | .identifier | .integerConstant | .stringConstant => nothing

end Shape

def NodeKind.test? : NodeKind → Option (Token → Bool)
  | .keyword => some (·.kind == .keyword)
  | .symbol => some (·.kind == .symbol)
  | .identifier => some Token.isMemberName
  | .integerConstant => some (·.kind == .integerConstant)
  | .stringConstant => some (·.kind == .stringConstant)
  | .binaryOp => some (Token.isSymbolOf ["+", "-", "*", "/", "&", "|", "<", ">", "="])
  | .unaryOp => some (Token.isSymbolOf ["-", "~"])
  | _ => none

/-- The rows of trees that have a shape. -/
inductive Fits : Shape → List Tree → Prop
  | leaf {kind test tree token} (own : tree.kind = kind) (carried : tree.token? = some token)
    (passes : test token = true) : Fits (.leaf kind test) [tree]
  | node {kinds tree} (one : tree.kind ∈ kinds) : Fits (.node kinds) [tree]
  | nothing : Fits .nothing []
  | sequence {first second trees more} (left : Fits first trees) (right : Fits second more) :
    Fits (.sequence first second) (trees ++ more)
  | first {first second trees} (here : Fits first trees) : Fits (.choice first second) trees
  | second {first second trees} (here : Fits second trees) : Fits (.choice first second) trees
  | none {shape} : Fits (.many shape) []
  | more {shape trees more} (one : Fits shape trees) (rest : Fits (.many shape) more) :
    Fits (.many shape) (trees ++ more)

/-- A node with the children and the token that its kind asks for. -/
structure Tree.Regular (entry : EntryPoint) (tree : Tree) : Prop where
  children : Fits (.ofKind entry tree.kind) tree.children
  token : tree.token?.isSome = tree.kind.test?.isSome
  passes : ∀ test ∈ tree.kind.test?, ∀ token ∈ tree.token?, test token = true

/-- Trees of a shape, all of whose nodes are regular. -/
structure Grown (entry : EntryPoint) (shape : Shape) (trees : List Tree) : Prop where
  fits : Fits shape trees
  regular : ∀ tree ∈ trees, ∀ node, Part node tree → node.Regular entry

/-! ## Rows of trees -/

section Grown

variable {entry : EntryPoint} {shape other : Shape} {shapes : List Shape} {tree : Tree}
  {trees others : List Tree}

private theorem Grown.append {whole : Shape} (first : Grown entry shape trees)
    (rest : Grown entry other others) (fits : Fits shape trees → Fits other others →
      Fits whole (trees ++ others)) : Grown entry whole (trees ++ others) :=
  ⟨fits first.fits rest.fits, List.forall_mem_append.mpr ⟨first.regular, rest.regular⟩⟩

private theorem Grown.nothing : Grown entry (.row []) [] := ⟨.nothing, nofun⟩

private theorem Grown.first (here : Grown entry shape trees) :
    Grown entry (.choice shape other) trees :=
  ⟨.first here.fits, here.regular⟩

private theorem Grown.second (here : Grown entry other trees) :
    Grown entry (.choice shape other) trees :=
  ⟨.second here.fits, here.regular⟩

private theorem Grown.run (first : Grown entry shape trees)
    (rest : Grown entry (.row shapes) others) :
    Grown entry (.row (shape :: shapes)) (trees ++ others) :=
  first.append rest .sequence

private theorem Grown.one (first : Grown entry shape [tree])
    (rest : Grown entry (.row shapes) others) :
    Grown entry (.row (shape :: shapes)) (tree :: others) :=
  first.run rest

private theorem Grown.last (only : Grown entry shape trees) : Grown entry (.row [shape]) trees := by
  have row := only.run .nothing
  rwa [List.append_nil] at row

private theorem Grown.none : Grown entry (.many shape) [] := ⟨.none, nofun⟩

private theorem Grown.more (first : Grown entry shape trees)
    (rest : Grown entry (.many shape) others) : Grown entry (.many shape) (trees ++ others) :=
  first.append rest .more

private theorem Grown.rows {before after : List Shape} (first : Grown entry (.row before) trees)
    (rest : Grown entry (.row after) others) :
    Grown entry (.row (before ++ after)) (trees ++ others) := by
  refine first.append rest fun left right => ?_
  -- Only the shapes of the two rows matter from here on, and the first row is taken apart.
  clear first rest
  induction before generalizing trees with
  | nil =>
    cases left
    exact right
  | cons shape before ih =>
    cases left with
    | sequence left inner =>
      rw [List.append_assoc]
      exact .sequence left (ih inner)

private theorem Grown.commaList (first : Grown entry shape trees)
    (rest : Grown entry (.many (.row [.mark [","], shape])) others) :
    Grown entry (.commaList shape) (trees ++ others) :=
  first.run rest.last

private theorem Grown.among {kinds wide : List NodeKind} (here : Grown entry (.node kinds) trees)
    (within : ∀ kind ∈ kinds, kind ∈ wide) : Grown entry (.node wide) trees := by
  obtain ⟨fits, regular⟩ := here
  cases fits with
  | node one => exact ⟨.node (within _ one), regular⟩

private theorem grown_node {number : Nat} {kind : NodeKind} {kinds : List NodeKind}
    {token? : Option Token} (children : Grown entry (.ofKind entry kind) trees)
    (one : kind ∈ kinds) (token : token?.isSome = kind.test?.isSome)
    (passes : ∀ test ∈ kind.test?, ∀ token ∈ token?, test token = true) :
    Grown entry (.node kinds) [.node number kind token? trees] := by
  refine ⟨.node one, fun tree member node part => ?_⟩
  obtain rfl := List.mem_singleton.mp member
  cases part with
  | self => exact ⟨children.fits, token, passes⟩
  | inside below part => exact children.regular _ below node part

private theorem grown_bare {number : Nat} {kind : NodeKind} {kinds : List NodeKind}
    (children : Grown entry (.ofKind entry kind) trees) (one : kind ∈ kinds)
    (bare : kind.test? = .none) : Grown entry (.node kinds) [.node number kind .none trees] :=
  grown_node children one (by rw [bare]; rfl) (by simp [bare])

private theorem grown_leaf {number : Nat} {kind : NodeKind} {test : Token → Bool} {token : Token}
    (alone : Shape.ofKind entry kind = .nothing) (passes : test token = true)
    (own : ∃ wide, kind.test? = some wide ∧ wide token = true) :
    Grown entry (.leaf kind test) [.node number kind (some token) []] := by
  obtain ⟨wide, same, fine⟩ := own
  have children : Grown entry (.ofKind entry kind) [] := by
    rw [alone]
    exact .nothing
  refine ⟨.leaf rfl rfl passes, (grown_node children (.head []) (by rw [same]; rfl) ?_).regular⟩
  simpa [same] using fine

end Grown

/-! ## Leaves -/

section Leaves

variable {entry : EntryPoint} {number : Nat} {values : List String}

private theorem grown_name (name : Name) :
    Grown entry .name [.node number .identifier (some name.val) []] :=
  grown_leaf rfl name.property ⟨_, rfl, by
    have kind := name.property
    simp_all [Token.isName, Token.isMemberName]⟩

private theorem grown_memberName (name : MemberName) :
    Grown entry .memberName [.node number .identifier (some name.val) []] :=
  grown_leaf rfl name.property ⟨_, rfl, name.property⟩

private theorem grown_word (word : Word values) (proper : word.val.Proper)
    (reserved : ∀ v ∈ values, v ∈ keywords) :
    Grown entry (.word values) [(wordLeaf word.val number).1] := by
  obtain ⟨kind, one⟩ := proper.isKeyword word.property reserved
  change Grown _ _ [.node _ (if _ then _ else _) _ []]
  rw [if_pos kind]
  exact grown_leaf rfl (by simpa [kind] using one) ⟨_, rfl, by simp [kind]⟩

private theorem grown_mark (word : Word values) (proper : word.val.Proper)
    (marks : ∀ v ∈ values, v ∈ symbols.map String.singleton) :
    Grown entry (.mark values) [(wordLeaf word.val number).1] := by
  obtain ⟨kind, one⟩ := proper.isSymbol word.property marks
  change Grown _ _ [.node _ (if _ then _ else _) _ []]
  rw [if_neg (by simp [kind])]
  exact grown_leaf rfl (by simpa [Token.isSymbolOf, kind] using one) ⟨_, rfl, by simp [kind]⟩

private theorem grown_symbolWord (word : SymbolWord values) :
    Grown entry (.mark values) [(wordLeaf word.val number).1] := by
  have symbol := word.property
  simp only [Token.isSymbolOf, Bool.and_eq_true, beq_iff_eq] at symbol
  change Grown _ _ [.node _ (if _ then _ else _) _ []]
  rw [if_neg (by simp [symbol.1])]
  exact grown_leaf rfl word.property ⟨_, rfl, by simp [symbol.1]⟩

end Leaves

/-! ## Expressions -/

section Expressions

variable {entry : EntryPoint}

private theorem grown_expression {e : Expression}
    (operand : ∀ number, Grown entry (.node [.term, .binaryOp]) [(e.operandTree number).1])
    (number : Nat) : Grown entry .expression [(e.toTree number).1] := by
  rw [Expression.toTree]
  exact grown_bare (operand _) (.head _) rfl

private theorem grown_literal (value : Literal) (number : Nat) :
    Grown entry (.ofKind entry .term) [(literalLeaf value.val number).1] := by
  obtain ⟨⟨line, kind, text⟩, passes⟩ := value
  cases kind with
  | integerConstant => exact .first (grown_node .nothing (by simp) rfl (by simp [NodeKind.test?]))
  | stringConstant => exact .first (grown_node .nothing (by simp) rfl (by simp [NodeKind.test?]))
  | keyword =>
    have constant : text ∈ constantWords := by simpa [Token.isLiteral] using passes
    exact .second (.first (grown_leaf rfl (by simpa [constantWords] using constant) ⟨_, rfl, rfl⟩))
  | symbol | identifier | eof => cases passes

private theorem grown_moreArguments {more : List (Comma × Expression)}
    (commas : ∀ pair ∈ more, pair.1.val.Proper)
    (each : ∀ pair ∈ more, ∀ number, Grown entry .expression [(pair.2.toTree number).1])
    (number : Nat) :
    Grown entry (.many (.row [.mark [","], .expression])) (moreArgumentTrees more [] number).1 := by
  induction more generalizing number with
  | nil =>
    rw [moreArgumentTrees]
    exact .none
  | cons pair more ih =>
    obtain ⟨comma, argument⟩ := pair
    rw [moreArgumentTrees_cons]
    rw [List.forall_mem_cons] at commas each
    have mark : Grown entry _ [(wordLeaf comma.val number).1] :=
      grown_mark comma commas.1 (by decide)
    exact (mark.one (each.1 _).last).more (ih commas.2 each.2 _)

private theorem grown_expressions :
    (∀ e : Expression, (∀ t ∈ e.tokens, t.Proper) → ∀ number,
      Grown entry (.node [.term, .binaryOp]) [(e.operandTree number).1]) ∧
    (∀ t : Term, (∀ u ∈ t.tokens, u.Proper) → ∀ number,
      Grown entry (.node [.term]) [(t.toTree number).1]) ∧
    (∀ c : Call, (∀ t ∈ c.tokens, t.Proper) → ∀ number,
      Grown entry (.node [.subroutineCall]) [(c.toTree number).1]) ∧
    (∀ a : Arguments, (∀ t ∈ a.tokens, t.Proper) → ∀ number,
      Grown entry (.node [.expressionList]) [(a.toTree number).1]) := by
  apply Expression.induction
  case term =>
    intro t ih proper number
    rw [Expression.operandTree]
    exact (ih proper number).among (by simp)
  case binary =>
    intro left operator right first second proper number
    simp only [Expression.tokens, List.forall_mem_append, List.forall_mem_cons] at proper
    obtain ⟨proper₁, proper₂, proper₃⟩ := proper
    obtain ⟨kind, one⟩ := proper₂.isSymbol operator.property (by decide)
    rw [Expression.operandTree]
    -- The left operand may be a run of operators itself, the right one is a single term.
    refine grown_node (.one (first proper₁ _) (second proper₃ _).last) (by simp) rfl ?_
    simpa [NodeKind.test?, Token.isSymbolOf, kind, binaryOperators] using one
  case literal =>
    intro value _ number
    rw [Term.toTree]
    exact grown_bare (grown_literal value _) (.head _) rfl
  case name =>
    intro name _ number
    rw [Term.toTree]
    refine grown_bare (.first ⟨.node (by simp), ?_⟩) (.head _) rfl
    exact (grown_name name).regular
  case element =>
    intro array opening index closing ih proper number
    simp only [Term.tokens, List.forall_mem_append, List.forall_mem_cons] at proper
    obtain ⟨-, proper₁, proper₂, proper₃, -⟩ := proper
    rw [Term.toTree]
    refine grown_bare (.first (grown_bare ?_ (by simp) rfl)) (.head _) rfl
    exact (grown_name array).one ((grown_mark opening proper₁ (by decide)).one
      ((grown_expression (ih proper₂) _).one (grown_mark closing proper₃ (by decide)).last))
  case call =>
    intro c ih proper number
    rw [Term.toTree]
    exact grown_bare (.first ((ih proper _).among (by simp))) (.head _) rfl
  case group =>
    intro opening inner closing ih proper number
    simp only [Term.tokens, List.forall_mem_append, List.forall_mem_cons] at proper
    obtain ⟨-, proper₁, proper₂, -⟩ := proper
    rw [Term.toTree]
    refine grown_bare (.second (.second ?_)) (.head _) rfl
    exact (grown_symbolWord opening).one
      ((grown_expression (ih proper₁) _).one (grown_mark closing proper₂ (by decide)).last)
  case unary =>
    intro operator operand ih proper number
    simp only [Term.tokens, List.forall_mem_cons] at proper
    rw [Term.toTree]
    have passes : operator.val.isSymbolOf ["-", "~"] = true := operator.property
    exact grown_bare (.first (grown_node (ih proper.2 _) (by simp) rfl (by simpa [NodeKind.test?])))
      (.head _) rfl
  case bare =>
    intro name opening arguments closing ih proper number
    simp only [Call.tokens, List.forall_mem_append, List.forall_mem_cons] at proper
    obtain ⟨-, proper₁, proper₂, proper₃, -⟩ := proper
    rw [Call.toTree]
    refine grown_bare (.first ?_) (.head _) rfl
    exact (grown_name name).one ((grown_mark opening proper₁ (by decide)).one
      ((ih proper₂ _).one (grown_mark closing proper₃ (by decide)).last))
  case qualified =>
    intro qualifier dot name opening arguments closing ih proper number
    simp only [Call.tokens, List.forall_mem_append, List.forall_mem_cons] at proper
    obtain ⟨-, proper₁, -, proper₂, proper₃, proper₄, -⟩ := proper
    rw [Call.toTree]
    refine grown_bare (.second ?_) (.head _) rfl
    exact (grown_name qualifier).one ((grown_mark dot proper₁ (by decide)).one
      ((grown_memberName name).one ((grown_mark opening proper₂ (by decide)).one
        ((ih proper₃ _).one (grown_mark closing proper₄ (by decide)).last))))
  case empty =>
    intro _ number
    rw [Arguments.toTree]
    exact grown_bare (.second .nothing) (.head _) rfl
  case listed =>
    intro first more one each proper number
    rw [Arguments.tokens, List.forall_mem_append, moreArgumentTokens_eq] at proper
    obtain ⟨commas, inner⟩ := forall_mem_commaTokens proper.2
    rw [Arguments.toTree_listed]
    refine grown_bare (.first ?_) (.head _) rfl
    exact (grown_expression (one proper.1) _).commaList (grown_moreArguments commas
      (fun pair member => grown_expression (each pair member (inner pair member))) _)

end Expressions

/-! ## Statements -/

section Statements

variable {entry : EntryPoint}

private theorem Expression.grown {e : Expression} (proper : ∀ t ∈ e.tokens, t.Proper)
    (number : Nat) : Grown entry .expression [(e.toTree number).1] :=
  grown_expression (grown_expressions.1 e proper) number

private theorem grown_control {values : List String} {keyword : Word values} {opening : Word ["("]}
    {condition : Expression} {closing : Word [")"]} {first second third fourth : Nat}
    (reserved : ∀ v ∈ values, v ∈ keywords) (proper₁ : keyword.val.Proper)
    (proper₂ : opening.val.Proper) (proper₃ : ∀ t ∈ condition.tokens, t.Proper)
    (proper₄ : closing.val.Proper) :
    Grown entry (.row [.word values, .mark ["("], .expression, .mark [")"]])
      [(wordLeaf keyword.val first).1, (wordLeaf opening.val second).1,
        (condition.toTree third).1, (wordLeaf closing.val fourth).1] :=
  (grown_word keyword proper₁ reserved).one ((grown_mark opening proper₂ (by decide)).one
    ((condition.grown proper₃ _).one (grown_mark closing proper₄ (by decide)).last))

private theorem grown_statementTrees {statements : List Statement}
    (each : ∀ s ∈ statements, ∀ number,
      Grown entry (.node Shape.statementKinds) [(s.toTree number).1]) (number : Nat) :
    Grown entry (.ofKind entry .statements) (statementTrees statements [] number).1 := by
  induction statements generalizing number with
  | nil =>
    rw [statementTrees]
    exact .none
  | cons statement statements ih =>
    rw [List.forall_mem_cons] at each
    rw [statementTrees_cons]
    exact (each.1 number).more (ih each.2 _)

private theorem grown_statements :
    (∀ s : Statement, (∀ t ∈ s.tokens, t.Proper) → ∀ number,
      Grown entry (.node Shape.statementKinds) [(s.toTree number).1]) ∧
    (∀ b : Block, (∀ t ∈ b.tokens, t.Proper) → ∀ number,
      Grown entry (.row Shape.block) (b.toTrees number).1) := by
  apply Statement.induction
  case assign =>
    intro keyword target equals value semicolon proper number
    simp only [Statement.tokens, List.forall_mem_append, List.forall_mem_cons] at proper
    obtain ⟨proper₁, -, proper₂, proper₃, proper₄, -⟩ := proper
    rw [Statement.toTree]
    refine grown_bare (.one (grown_word keyword proper₁ (by decide)) (.one ?assignment ?last))
      (by decide) rfl
    case assignment =>
      refine grown_bare ?_ (by decide) rfl
      exact (grown_name target).one
        ((grown_mark equals proper₂ (by decide)).one (value.grown proper₃ _).last)
    case last => exact (grown_mark semicolon proper₄ (by decide)).last
  case assignElement =>
    intro keyword array opening index closing equals value semicolon proper number
    simp only [Statement.tokens, List.forall_mem_append, List.forall_mem_cons] at proper
    obtain ⟨proper₁, -, proper₂, proper₃, proper₄, proper₅, proper₆, proper₇, -⟩ := proper
    rw [Statement.toTree]
    refine grown_bare (.one (grown_word keyword proper₁ (by decide)) (.one ?assignment ?last))
      (by decide) rfl
    case assignment =>
      refine grown_bare ?_ (by decide) rfl
      exact (grown_name array).one ((grown_mark opening proper₂ (by decide)).one
        ((index.grown proper₃ _).one ((grown_mark closing proper₄ (by decide)).one
          ((grown_mark equals proper₅ (by decide)).one (value.grown proper₆ _).last))))
    case last => exact (grown_mark semicolon proper₇ (by decide)).last
  case ifThen =>
    intro keyword opening condition closing body ih proper number
    simp only [Statement.tokens, List.forall_mem_append, List.forall_mem_cons] at proper
    obtain ⟨proper₁, proper₂, proper₃, proper₄, proper₅⟩ := proper
    rw [Statement.toTree]
    refine grown_bare (.first (.rows ?_ (ih proper₅ _))) (by decide) rfl
    exact grown_control (by decide) proper₁ proper₂ proper₃ proper₄
  case ifElse =>
    intro keyword opening condition closing body otherwise alternative ih ih' proper number
    simp only [Statement.tokens, List.forall_mem_append, List.forall_mem_cons] at proper
    obtain ⟨proper₁, proper₂, proper₃, proper₄, proper₅, proper₆, proper₇⟩ := proper
    rw [Statement.toTree]
    refine grown_bare (.second (.rows (.rows (.rows ?_ (ih proper₅ _)) ?_) (ih' proper₇ _)))
      (by decide) rfl
    · exact grown_control (by decide) proper₁ proper₂ proper₃ proper₄
    · exact (grown_word otherwise proper₆ (by decide)).last
  case loop =>
    intro keyword opening condition closing body ih proper number
    simp only [Statement.tokens, List.forall_mem_append, List.forall_mem_cons] at proper
    obtain ⟨proper₁, proper₂, proper₃, proper₄, proper₅⟩ := proper
    rw [Statement.toTree]
    refine grown_bare (.rows ?_ (ih proper₅ _)) (by decide) rfl
    exact grown_control (by decide) proper₁ proper₂ proper₃ proper₄
  case perform =>
    intro keyword call semicolon proper number
    simp only [Statement.tokens, List.forall_mem_append, List.forall_mem_cons] at proper
    obtain ⟨proper₁, proper₂, proper₃, -⟩ := proper
    rw [Statement.toTree]
    refine grown_bare ?_ (by decide) rfl
    exact (grown_word keyword proper₁ (by decide)).one
      ((grown_expressions.2.2.1 call proper₂ _).one (grown_mark semicolon proper₃ (by decide)).last)
  case returnNothing =>
    intro keyword semicolon proper number
    simp only [Statement.tokens, List.forall_mem_cons] at proper
    obtain ⟨proper₁, proper₂, -⟩ := proper
    rw [Statement.toTree]
    refine grown_bare (.first ?_) (by decide) rfl
    exact (grown_word keyword proper₁ (by decide)).one
      (grown_mark semicolon proper₂ (by decide)).last
  case returnValue =>
    intro keyword value semicolon proper number
    simp only [Statement.tokens, List.forall_mem_append, List.forall_mem_cons] at proper
    obtain ⟨proper₁, proper₂, proper₃, -⟩ := proper
    rw [Statement.toTree]
    refine grown_bare (.second ?_) (by decide) rfl
    exact (grown_word keyword proper₁ (by decide)).one
      ((value.grown proper₂ _).one (grown_mark semicolon proper₃ (by decide)).last)
  case braced =>
    intro opening statements closing each proper number
    simp only [Block.tokens, List.forall_mem_append, List.forall_mem_cons] at proper
    obtain ⟨proper₁, proper₂, proper₃, -⟩ := proper
    rw [statementTokens_eq, List.forall_mem_flatMap] at proper₂
    have inner (number : Nat) :=
      grown_statementTrees (fun s member => each s member (proper₂ s member)) number
    rw [Block.toTrees]
    exact (grown_mark opening proper₁ (by decide)).one
      ((grown_bare (inner _) (.head _) rfl).one (grown_mark closing proper₃ (by decide)).last)

end Statements

/-! ## Declarations -/

section Declarations

variable {entry : EntryPoint}

private theorem TypeName.grown {type : TypeName} (proper : ∀ t ∈ type.tokens, t.Proper)
    (number : Nat) : Grown entry .type [(type.toTree number).1] := by
  cases type with
  | builtIn word => exact .first (grown_word word (proper _ (.head _)) (by decide))
  | named name => exact .second (grown_name name)

private theorem ReturnType.grown {type : ReturnType} (proper : ∀ t ∈ type.tokens, t.Proper)
    (number : Nat) :
    Grown entry (.choice (.word ["void"]) .type) [(type.toTree number).1] := by
  cases type with
  | void word => exact .first (grown_word word (proper _ (.head _)) (by decide))
  | value type => exact .second (type.grown proper number)

private theorem grown_moreNames {more : List (Comma × Name)}
    (commas : ∀ pair ∈ more, pair.1.val.Proper) (number : Nat) :
    Grown entry (.many (.row [.mark [","], .name])) (moreNameTrees more [] number).1 := by
  induction more generalizing number with
  | nil => exact .none
  | cons pair more ih =>
    obtain ⟨comma, name⟩ := pair
    rw [moreNameTrees_cons]
    rw [List.forall_mem_cons] at commas
    have mark : Grown entry _ [(wordLeaf comma.val number).1] :=
      grown_mark comma commas.1 (by decide)
    exact (mark.one (grown_name name).last).more (ih commas.2 _)

private theorem grown_declaration {values : List String} {first : Word values} {last : Word [";"]}
    {type : TypeName} {names : NameList} (reserved : ∀ v ∈ values, v ∈ keywords)
    (proper : ∀ t ∈ first.val :: (type.tokens ++ (names.tokens ++ [last.val])), t.Proper)
    (number : Nat) :
    Grown entry (.row [.word values, .type, .commaList .name, .mark [";"]])
      (declarationLeaves first.val last.val type names number) := by
  simp only [NameList.tokens, List.forall_mem_append, List.forall_mem_cons] at proper
  obtain ⟨proper₁, proper₂, ⟨-, proper₃⟩, proper₄, -⟩ := proper
  have more : Grown entry _ _ := grown_moreNames (forall_mem_commaTokens proper₃).1 (number + 3 + 1)
  rw [declarationLeaves, names.toTrees_eq]
  have both : Grown entry (.row [.word values, .type])
      [(wordLeaf first.val (number + 1)).1, (type.toTree (number + 2)).1] :=
    (grown_word first proper₁ reserved).one (type.grown proper₂ _).last
  have listed : Grown entry (.commaList .name)
      (.node (number + 3) .identifier (some names.first.val) [] :: _) :=
    (grown_name names.first).commaList more
  exact (both.rows listed.last).rows (grown_mark last proper₄ (by decide)).last

private theorem ClassVariables.grown {declaration : ClassVariables}
    (proper : ∀ t ∈ declaration.tokens, t.Proper) (number : Nat) :
    Grown entry (.node [.classVarDec]) [(declaration.toTree number).1] := by
  rw [declaration.toTree_eq]
  exact grown_bare (grown_declaration (by decide) proper number) (.head _) rfl

private theorem LocalVariables.grown {declaration : LocalVariables}
    (proper : ∀ t ∈ declaration.tokens, t.Proper) (number : Nat) :
    Grown entry (.node [.varDec]) [(declaration.toTree number).1] := by
  rw [declaration.toTree_eq]
  exact grown_bare (grown_declaration (by decide) proper number) (.head _) rfl

private theorem Parameter.grown {parameter : Parameter} (proper : ∀ t ∈ parameter.tokens, t.Proper)
    (first second : Nat) : Grown entry (.row [.type, .name])
      [(parameter.type.toTree first).1,
        .node second .identifier (some parameter.name.val) []] := by
  rw [Parameter.tokens, List.forall_mem_append] at proper
  exact (parameter.type.grown proper.1 first).one (grown_name parameter.name).last

private theorem grown_moreParameters {more : List (Comma × Parameter)}
    (commas : ∀ pair ∈ more, pair.1.val.Proper)
    (each : ∀ pair ∈ more, ∀ t ∈ pair.2.tokens, t.Proper) (number : Nat) :
    Grown entry (.many (.row [.mark [","], .row [.type, .name]]))
      (moreParameterTrees more [] number).1 := by
  induction more generalizing number with
  | nil => exact .none
  | cons pair more ih =>
    obtain ⟨comma, parameter⟩ := pair
    rw [moreParameterTrees_cons]
    rw [List.forall_mem_cons] at commas each
    have mark : Grown entry _ [(wordLeaf comma.val number).1] :=
      grown_mark comma commas.1 (by decide)
    exact (mark.one (parameter.grown each.1 _ _).last).more (ih commas.2 each.2 _)

private theorem Parameters.grown {parameters : Parameters}
    (proper : ∀ t ∈ parameters.tokens, t.Proper) (number : Nat) :
    Grown entry (.node [.parameterList]) [(parameters.toTree number).1] := by
  cases parameters with
  | empty => exact grown_bare (.second .nothing) (.head _) rfl
  | listed first more =>
    rw [Parameters.tokens, List.forall_mem_append] at proper
    obtain ⟨commas, each⟩ := forall_mem_commaTokens proper.2
    rw [Parameters.toTree_listed]
    refine grown_bare (.first ?_) (.head _) rfl
    exact (first.grown proper.1 _ _).commaList (grown_moreParameters commas each _)

private theorem grown_treesOf {α : Type} {toTree : α → Numbering Tree} {shape : Shape}
    {phrases : List α} (each : ∀ x ∈ phrases, ∀ number, Grown entry shape [(toTree x number).1])
    (number : Nat) : Grown entry (.many shape) (treesOf toTree phrases [] number).1 := by
  induction phrases generalizing number with
  | nil => exact .none
  | cons phrase phrases ih =>
    rw [List.forall_mem_cons] at each
    rw [treesOf_cons]
    exact (each.1 number).more (ih each.2 _)

private theorem grown_statementsTree {statements : List Statement}
    (proper : ∀ t ∈ statementTokens statements, t.Proper) (number : Nat) :
    Grown entry (.node [.statements]) [(statementsTree statements number).1] := by
  rw [statementTokens_eq, List.forall_mem_flatMap] at proper
  exact grown_bare (grown_statementTrees (fun s member => grown_statements.1 s (proper s member)) _)
    (.head _) rfl

private theorem SubroutineBody.grown {body : SubroutineBody} (proper : ∀ t ∈ body.tokens, t.Proper)
    (number : Nat) : Grown entry (.node [.subroutineBody]) [(body.toTree number).1] := by
  simp only [SubroutineBody.tokens, List.forall_mem_append, List.forall_mem_cons,
    List.forall_mem_flatMap] at proper
  obtain ⟨proper₁, proper₂, proper₃, proper₄, -⟩ := proper
  have locals : Grown entry _ _ :=
    grown_treesOf (fun x member => LocalVariables.grown (proper₂ x member)) (number + 2)
  rw [body.toTree_eq]
  refine grown_bare ?_ (.head _) rfl
  exact ((grown_mark body.opening proper₁ (by decide)).last.rows locals.last).rows
    ((grown_statementsTree proper₃ _).one (grown_mark body.closing proper₄ (by decide)).last)

private theorem SubroutineDeclaration.grown {subroutine : SubroutineDeclaration}
    (proper : ∀ t ∈ subroutine.tokens, t.Proper) (number : Nat) :
    Grown entry (.node [.subroutineDec]) [(subroutine.toTree number).1] := by
  simp only [SubroutineDeclaration.tokens, List.forall_mem_append, List.forall_mem_cons] at proper
  obtain ⟨proper₁, proper₂, -, proper₃, proper₄, proper₅, proper₆⟩ := proper
  rw [subroutine.toTree_eq]
  refine grown_bare ?_ (.head _) rfl
  exact (grown_word subroutine.keyword proper₁ (by decide)).one
    ((subroutine.returnType.grown proper₂ _).one ((grown_name subroutine.name).one
      ((grown_mark subroutine.opening proper₃ (by decide)).one
        ((subroutine.parameters.grown proper₄ _).one
          ((grown_mark subroutine.closing proper₅ (by decide)).one
            (subroutine.body.grown proper₆ _).last)))))

private theorem ClassDeclaration.grown {declaration : ClassDeclaration}
    (proper : ∀ t ∈ declaration.tokens, t.Proper) (number : Nat) :
    Grown entry (.node [.classDec]) [(declaration.toTree number).1] := by
  simp only [ClassDeclaration.tokens, List.forall_mem_append, List.forall_mem_cons,
    List.forall_mem_flatMap] at proper
  obtain ⟨proper₁, -, proper₂, proper₃, proper₄, proper₅, -⟩ := proper
  have fields (number : Nat) : Grown entry _ _ :=
    grown_treesOf (fun x member => ClassVariables.grown (proper₃ x member)) number
  have subroutines (number : Nat) : Grown entry _ _ :=
    grown_treesOf (fun x member => SubroutineDeclaration.grown (proper₄ x member)) number
  have head (first second third : Nat) : Grown entry (.row [.word ["class"], .name, .mark ["\x7b"]])
      [(wordLeaf declaration.keyword.val first).1,
        .node second .identifier (some declaration.name.val) [],
        (wordLeaf declaration.opening.val third).1] :=
    (grown_word declaration.keyword proper₁ (by decide)).one
      ((grown_name declaration.name).one (grown_mark declaration.opening proper₂ (by decide)).last)
  rw [declaration.toTree_eq]
  refine grown_bare ?_ (.head _) rfl
  exact (((head _ _ _).rows (fields _).last).rows (subroutines _).last).rows
    (grown_mark declaration.closing proper₅ (by decide)).last

private theorem Phrase.grown {phrase : Phrase} (proper : ∀ t ∈ phrase.tokens, t.Proper)
    (number : Nat) : Grown entry (.ofEntry phrase.entry) (phrase.toTrees number).1 := by
  cases phrase with
  | classDeclaration phrase => exact phrase.grown proper number
  | classVariables phrases =>
    rw [Phrase.tokens, List.forall_mem_flatMap] at proper
    exact grown_treesOf (fun x member => ClassVariables.grown (proper x member)) number
  | subroutineDeclaration phrase => exact phrase.grown proper number
  | parameters phrase => exact phrase.grown proper number
  | subroutineBody phrase => exact phrase.grown proper number
  | statements phrases => exact grown_statementsTree proper number
  | statement phrase => exact grown_statements.1 phrase proper number
  | expression phrase => exact phrase.grown proper number
  | term phrase => exact grown_expressions.2.1 phrase proper number
  | arguments phrase => exact grown_expressions.2.2.2 phrase proper number

end Declarations

/-! ## Whole inputs -/

theorem regular_of_parse {entry : EntryPoint} {source : List Char} {phrase : Phrase} {node : Tree}
    (read : parse entry (items source) = .ok phrase) (part : Part node phrase.toTree) :
    node.Regular entry := by
  have proper : ∀ t ∈ phrase.tokens, t.Proper := fun t member =>
    (source_tokens_wellFormed read t member).proper
  obtain ⟨-, -, -, -, rfl, -⟩ := parse_reads read
  have children : Grown phrase.entry (.ofKind phrase.entry .start) (phrase.toTrees 1).1 :=
    phrase.grown proper 1
  have whole : Grown phrase.entry (.node [.start]) [phrase.toTree] :=
    grown_bare children (.head _) rfl
  exact whole.regular _ (.head _) _ part

/-- Every node of the tree of a source that is read has the children that the production of its kind
prescribes, in order, and carries a token of its class or none. -/
theorem parse_shaped {entry : EntryPoint} {source : List Char} {phrase : Phrase}
    (read : parse entry (items source) = .ok phrase) :
    phrase.toTree.kind = .start ∧ ∀ node, Part node phrase.toTree → node.Regular entry :=
  ⟨rfl, fun _ part => regular_of_parse read part⟩

private def shapedSource : List Char := "let a[i] = b.put(-x, 3) + (y & 1) - z;".toList

theorem parse_shaped_element :
    ∃ phrase, parse .statement (items shapedSource) = .ok phrase ∧
      phrase.toTree.kind = .start ∧ ∀ node, Part node phrase.toTree → node.Regular .statement := by
  have accepted : (parse .statement (items shapedSource)).toOption.isSome = true := by
    decide +kernel
  cases read : parse .statement (items shapedSource) with
  | ok phrase => exact ⟨phrase, rfl, parse_shaped read⟩
  | error e => rw [read] at accepted; cases accepted

end JackCompiler
