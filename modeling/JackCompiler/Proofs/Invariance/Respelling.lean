import JackCompiler.Proofs.Lowering.Class
import Mathlib.Data.List.Forall2
import JackCompiler.Proofs.Phrase.Tokens

namespace JackCompiler

structure Respelling where
  line : Nat → Nat
  variableName : String → String

namespace Respelling

def unlined : Respelling := ⟨fun _ => 0, id⟩

def same : Respelling := ⟨id, id⟩

def rename (old new : String) : Respelling := ⟨id, fun name => if name = old then new else name⟩

end Respelling

class Lineless (test : Token → Bool) : Prop where
  anyLine (token : Token) (line : Nat) : test { token with line } = test token

instance (values : List String) : Lineless (Token.isOneOf values) := ⟨fun _ _ => rfl⟩

instance (values : List String) : Lineless (Token.isSymbolOf values) := ⟨fun _ _ => rfl⟩

instance : Lineless Token.isName := ⟨fun _ _ => rfl⟩

instance : Lineless Token.isMemberName := ⟨fun _ _ => rfl⟩

instance : Lineless Token.isLiteral := ⟨fun _ _ => rfl⟩

namespace Respelling

variable (r : Respelling)

def token (token : Token) : Token := { token with line := r.line token.line }

def nameToken (token : Token) : Token :=
  { token with line := r.line token.line, value := r.variableName token.value }

def leaf {test : Token → Bool} [Lineless test] (leaf : TokenWith test) : TokenWith test :=
  ⟨r.token leaf.val, (Lineless.anyLine _ _).trans leaf.property⟩

def name (name : Name) : Name := ⟨r.nameToken name.val, name.property⟩

theorem val_name (name : Name) : (r.name name).val = r.nameToken name.val := rfl

/-- How one token of a phrase may be spelled anew. -/
inductive Spells : Token → Token → Prop
  | token (token : Token) : Spells token (r.token token)
  | name (name : Name) : Spells name.val (r.nameToken name.val)

end Respelling

section Respell

variable (r : Respelling)

mutual

def Expression.respell : Expression → Expression
  | .term term => .term term.respell
  | .binary left operator right => .binary left.respell (r.leaf operator) right.respell

def Term.respell : Term → Term
  | .literal value => .literal (r.leaf value)
  | .name name => .name (r.name name)
  | .element array opening index closing =>
    .element (r.name array) (r.leaf opening) index.respell (r.leaf closing)
  | .call call => .call call.respell
  | .group opening inner closing => .group (r.leaf opening) inner.respell (r.leaf closing)
  | .unary operator operand => .unary (r.leaf operator) operand.respell

def Call.respell : Call → Call
  | .bare name opening arguments closing =>
    .bare (r.leaf name) (r.leaf opening) arguments.respell (r.leaf closing)
  | .qualified qualifier dot name opening arguments closing =>
    .qualified (r.name qualifier) (r.leaf dot) (r.leaf name) (r.leaf opening) arguments.respell
      (r.leaf closing)

def Arguments.respell : Arguments → Arguments
  | .empty => .empty
  | .listed first more => .listed first.respell (respellArguments more)

def respellArguments : List (Comma × Expression) → List (Comma × Expression)
  | [] => []
  | (comma, argument) :: more => (r.leaf comma, argument.respell) :: respellArguments more

end

mutual

def Statement.respell : Statement → Statement
  | .assign keyword target equals value semicolon =>
    .assign (r.leaf keyword) (r.name target) (r.leaf equals) (value.respell r) (r.leaf semicolon)
  | .assignElement keyword array opening index closing equals value semicolon =>
    .assignElement (r.leaf keyword) (r.name array) (r.leaf opening) (index.respell r)
      (r.leaf closing) (r.leaf equals) (value.respell r) (r.leaf semicolon)
  | .ifThen keyword opening condition closing body =>
    .ifThen (r.leaf keyword) (r.leaf opening) (condition.respell r) (r.leaf closing) body.respell
  | .ifElse keyword opening condition closing body otherwise alternative =>
    .ifElse (r.leaf keyword) (r.leaf opening) (condition.respell r) (r.leaf closing) body.respell
      (r.leaf otherwise) alternative.respell
  | .loop keyword opening condition closing body =>
    .loop (r.leaf keyword) (r.leaf opening) (condition.respell r) (r.leaf closing) body.respell
  | .perform keyword call semicolon =>
    .perform (r.leaf keyword) (call.respell r) (r.leaf semicolon)
  | .returnNothing keyword semicolon => .returnNothing (r.leaf keyword) (r.leaf semicolon)
  | .returnValue keyword value semicolon =>
    .returnValue (r.leaf keyword) (value.respell r) (r.leaf semicolon)

def Block.respell : Block → Block
  | .braced opening statements closing =>
    .braced (r.leaf opening) (respellStatements statements) (r.leaf closing)

def respellStatements : List Statement → List Statement
  | [] => []
  | statement :: statements => statement.respell :: respellStatements statements

end

def TypeName.respell : TypeName → TypeName
  | .builtIn word => .builtIn (r.leaf word)
  | .named name => .named (r.leaf name)

def ReturnType.respell : ReturnType → ReturnType
  | .void word => .void (r.leaf word)
  | .value type => .value (type.respell r)

def respellMore {α : Type} (respell : α → α) (more : List (Comma × α)) : List (Comma × α) :=
  more.map fun pair => (r.leaf pair.1, respell pair.2)

def NameList.respell (names : NameList) : NameList where
  first := r.name names.first
  more := respellMore r r.name names.more

def Parameter.respell (parameter : Parameter) : Parameter where
  type := parameter.type.respell r
  name := r.name parameter.name

def Parameters.respell : Parameters → Parameters
  | .empty => .empty
  | .listed first more => .listed (first.respell r) (respellMore r (Parameter.respell r) more)

def ClassVariables.respell (declaration : ClassVariables) : ClassVariables where
  scope := r.leaf declaration.scope
  type := declaration.type.respell r
  names := declaration.names.respell r
  semicolon := r.leaf declaration.semicolon

def LocalVariables.respell (declaration : LocalVariables) : LocalVariables where
  keyword := r.leaf declaration.keyword
  type := declaration.type.respell r
  names := declaration.names.respell r
  semicolon := r.leaf declaration.semicolon

def SubroutineBody.respell (body : SubroutineBody) : SubroutineBody where
  opening := r.leaf body.opening
  locals := body.locals.map (LocalVariables.respell r)
  statements := respellStatements r body.statements
  closing := r.leaf body.closing

def SubroutineDeclaration.respell (subroutine : SubroutineDeclaration) :
    SubroutineDeclaration where
  keyword := r.leaf subroutine.keyword
  returnType := subroutine.returnType.respell r
  name := r.leaf subroutine.name
  opening := r.leaf subroutine.opening
  parameters := subroutine.parameters.respell r
  closing := r.leaf subroutine.closing
  body := subroutine.body.respell r

def ClassDeclaration.respell (declaration : ClassDeclaration) : ClassDeclaration where
  keyword := r.leaf declaration.keyword
  name := r.leaf declaration.name
  opening := r.leaf declaration.opening
  declarations := declaration.declarations.map (ClassVariables.respell r)
  subroutines := declaration.subroutines.map (SubroutineDeclaration.respell r)
  closing := r.leaf declaration.closing

def Phrase.respell : Phrase → Phrase
  | .classDeclaration phrase => .classDeclaration (phrase.respell r)
  | .classVariables phrases => .classVariables (phrases.map (ClassVariables.respell r))
  | .subroutineDeclaration phrase => .subroutineDeclaration (phrase.respell r)
  | .parameters phrase => .parameters (phrase.respell r)
  | .subroutineBody phrase => .subroutineBody (phrase.respell r)
  | .statements phrases => .statements (respellStatements r phrases)
  | .statement phrase => .statement (phrase.respell r)
  | .expression phrase => .expression (phrase.respell r)
  | .term phrase => .term (phrase.respell r)
  | .arguments phrase => .arguments (phrase.respell r)

theorem respellArguments_eq (more : List (Comma × Expression)) :
    respellArguments r more = respellMore r (Expression.respell r) more := by
  induction more with
  | nil => rfl
  | cons pair more ih =>
    rw [respellArguments, ih]
    rfl

theorem respellStatements_eq (statements : List Statement) :
    respellStatements r statements = statements.map (Statement.respell r) := by
  induction statements with
  | nil => rfl
  | cons statement statements ih => rw [respellStatements, ih, List.map_cons]

end Respell

section Shape

variable (r : Respelling)

theorem Expression.operators_respell :
    (e : Expression) → (e.respell r).operators = e.operators
  | .term _ => rfl
  | .binary left _ _ => congrArg (· + 1) left.operators_respell

private theorem respellArguments_shape {more : List (Comma × Expression)}
    (each : ∀ pair ∈ more,
      (pair.2.respell r).nodes = pair.2.nodes ∧ (pair.2.respell r).nesting = pair.2.nesting) :
    moreArgumentNodes (respellArguments r more) = moreArgumentNodes more ∧
      moreArgumentNesting (respellArguments r more) = moreArgumentNesting more := by
  induction more with
  | nil => exact ⟨rfl, rfl⟩
  | cons pair more ih =>
    rw [List.forall_mem_cons] at each
    simp only [respellArguments, moreArgumentNodes, moreArgumentNesting, each.1, ih each.2,
      and_self]

private theorem expressions_shape :
    (∀ e : Expression, (e.respell r).nodes = e.nodes ∧ (e.respell r).nesting = e.nesting) ∧
    (∀ t : Term, (t.respell r).nodes = t.nodes ∧ (t.respell r).nesting = t.nesting) ∧
    (∀ c : Call, (c.respell r).nodes = c.nodes ∧ (c.respell r).nesting = c.nesting) ∧
    (∀ a : Arguments, (a.respell r).nodes = a.nodes ∧ (a.respell r).nesting = a.nesting) := by
  apply Expression.induction
  case listed =>
    intro first more one each
    simp only [Arguments.respell, Arguments.nodes, Arguments.nesting, one,
      respellArguments_shape r each, and_self]
  all_goals
    intros
    simp only [Expression.respell, Term.respell, Call.respell, Arguments.respell, Expression.nodes,
      Term.nodes, Call.nodes, Arguments.nodes, Expression.nesting, Term.nesting, Call.nesting,
      Arguments.nesting, Expression.operators_respell, *, and_self]

@[simp]
theorem Expression.nodes_respell (e : Expression) : (e.respell r).nodes = e.nodes :=
  ((expressions_shape r).1 e).1

@[simp]
theorem Expression.nesting_respell (e : Expression) : (e.respell r).nesting = e.nesting :=
  ((expressions_shape r).1 e).2

@[simp]
theorem Call.nodes_respell (c : Call) : (c.respell r).nodes = c.nodes :=
  ((expressions_shape r).2.2.1 c).1

@[simp]
theorem Call.nesting_respell (c : Call) : (c.respell r).nesting = c.nesting :=
  ((expressions_shape r).2.2.1 c).2

@[simp]
theorem Arguments.count_respell (a : Arguments) : (a.respell r).count = a.count := by
  cases a with
  | empty => rfl
  | listed first more => simp [Arguments.respell, Arguments.count, respellArguments_eq, respellMore]

private theorem respellStatements_shape {statements : List Statement}
    (each : ∀ s ∈ statements, (s.respell r).nodes = s.nodes ∧ (s.respell r).nesting = s.nesting) :
    statementNodes (respellStatements r statements) = statementNodes statements ∧
      deepestStatement (respellStatements r statements) = deepestStatement statements := by
  induction statements with
  | nil => exact ⟨rfl, rfl⟩
  | cons statement statements ih =>
    rw [List.forall_mem_cons] at each
    simp only [respellStatements, statementNodes, deepestStatement, each.1, ih each.2, and_self]

private theorem statements_shape :
    (∀ s : Statement, (s.respell r).nodes = s.nodes ∧ (s.respell r).nesting = s.nesting) ∧
    (∀ b : Block, (b.respell r).nodes = b.nodes ∧ (b.respell r).nesting = b.nesting) := by
  apply Statement.induction
  case braced =>
    intro opening statements closing each
    simp only [Block.respell, Block.nodes, Block.nesting, respellStatements_shape r each, and_self]
  all_goals
    intros
    simp only [Statement.respell, Statement.nodes, Statement.nesting, Expression.nodes_respell,
      Expression.nesting_respell, Call.nodes_respell, Call.nesting_respell, *, and_self]

@[simp]
theorem Statement.nodes_respell (s : Statement) : (s.respell r).nodes = s.nodes :=
  ((statements_shape r).1 s).1

@[simp]
theorem Block.nodes_respell (b : Block) : (b.respell r).nodes = b.nodes :=
  ((statements_shape r).2 b).1

theorem respellStatements_nodes (statements : List Statement) :
    statementNodes (respellStatements r statements) = statementNodes statements :=
  (respellStatements_shape r fun s _ => (statements_shape r).1 s).1

theorem SubroutineDeclaration.nesting_respell (s : SubroutineDeclaration) :
    (s.respell r).nesting = s.nesting :=
  congrArg (· + 1) (respellStatements_shape r fun s _ => (statements_shape r).1 s).2

theorem nodesOf_map {α : Type} {nodes : α → Nat} {respell : α → α} (phrases : List α)
    (each : ∀ phrase ∈ phrases, nodes (respell phrase) = nodes phrase) :
    nodesOf nodes (phrases.map respell) = nodesOf nodes phrases := by
  induction phrases with
  | nil => rfl
  | cons phrase phrases ih =>
    rw [List.forall_mem_cons] at each
    rw [List.map_cons, nodesOf, nodesOf, each.1, ih each.2]

@[simp]
theorem NameList.nodes_respell (names : NameList) : (names.respell r).nodes = names.nodes := by
  simp [NameList.respell, NameList.nodes, respellMore]

theorem localNodes_respell (body : SubroutineBody) :
    nodesOf LocalVariables.nodes (body.respell r).locals =
      nodesOf LocalVariables.nodes body.locals :=
  nodesOf_map body.locals fun declaration _ =>
    congrArg (· + 4) (declaration.names.nodes_respell r)

theorem classVariableNodes_respell (declarations : List ClassVariables) :
    nodesOf ClassVariables.nodes (declarations.map (ClassVariables.respell r)) =
      nodesOf ClassVariables.nodes declarations :=
  nodesOf_map declarations fun declaration _ =>
    congrArg (· + 4) (declaration.names.nodes_respell r)

@[simp]
theorem Parameters.nodes_respell (parameters : Parameters) :
    (parameters.respell r).nodes = parameters.nodes := by
  cases parameters with
  | empty => rfl
  | listed first more => simp [Parameters.respell, Parameters.nodes, respellMore]

@[simp]
theorem SubroutineDeclaration.nodes_respell (s : SubroutineDeclaration) :
    (s.respell r).nodes = s.nodes := by
  have statements := respellStatements_nodes r s.body.statements
  simp only [SubroutineDeclaration.nodes, SubroutineBody.nodes, SubroutineDeclaration.respell,
    Parameters.nodes_respell, localNodes_respell]
  rw [SubroutineBody.respell, statements]

end Shape

section Tokens

variable {r : Respelling}

private abbrev Spelling (r : Respelling) : List Token → List Token → Prop := List.Forall₂ r.Spells

private theorem Spelling.leaf {test : Token → Bool} [Lineless test] (leaf : TokenWith test)
    {tokens others : List Token} (rest : Spelling r tokens others) :
    Spelling r (leaf.val :: tokens) ((r.leaf leaf).val :: others) :=
  .cons (.token _) rest

private theorem Spelling.name (name : Name) {tokens others : List Token}
    (rest : Spelling r tokens others) :
    Spelling r (name.val :: tokens) ((r.name name).val :: others) :=
  .cons (.name _) rest

private theorem Spelling.append {tokens others more moreOthers : List Token}
    (first : Spelling r tokens others) (second : Spelling r more moreOthers) :
    Spelling r (tokens ++ more) (others ++ moreOthers) :=
  List.rel_append first second

private theorem spelling_arguments {more : List (Comma × Expression)}
    (each : ∀ pair ∈ more, Spelling r pair.2.tokens (pair.2.respell r).tokens) :
    Spelling r (moreArgumentTokens more) (moreArgumentTokens (respellArguments r more)) := by
  induction more with
  | nil => exact .nil
  | cons pair more ih =>
    rw [List.forall_mem_cons] at each
    exact .leaf _ (each.1.append (ih each.2))

private theorem spelling_expressions :
    (∀ e : Expression, Spelling r e.tokens (e.respell r).tokens) ∧
    (∀ t : Term, Spelling r t.tokens (t.respell r).tokens) ∧
    (∀ c : Call, Spelling r c.tokens (c.respell r).tokens) ∧
    (∀ a : Arguments, Spelling r a.tokens (a.respell r).tokens) := by
  apply Expression.induction
  case term => exact fun _ ih => ih
  case binary => exact fun _ operator _ left right => left.append (.leaf operator right)
  case literal => exact fun value => .leaf value .nil
  case name => exact fun n => .name n .nil
  case element =>
    exact fun array opening _ closing ih => .name array (.leaf opening (ih.append (.leaf closing .nil)))
  case call => exact fun _ ih => ih
  case group => exact fun opening _ closing ih => .leaf opening (ih.append (.leaf closing .nil))
  case unary => exact fun operator _ ih => .leaf operator ih
  case bare =>
    exact fun n opening _ closing ih => .leaf n (.leaf opening (ih.append (.leaf closing .nil)))
  case qualified =>
    exact fun qualifier dot n opening _ closing ih => .name qualifier (.leaf dot (.leaf n
      (.leaf opening (ih.append (.leaf closing .nil)))))
  case empty => exact .nil
  case listed => exact fun _ _ one each => one.append (spelling_arguments each)

private theorem spelling_statementList {statements : List Statement}
    (each : ∀ s ∈ statements, Spelling r s.tokens (s.respell r).tokens) :
    Spelling r (statementTokens statements) (statementTokens (respellStatements r statements)) := by
  induction statements with
  | nil => exact .nil
  | cons statement statements ih =>
    rw [List.forall_mem_cons] at each
    exact each.1.append (ih each.2)

private theorem spelling_statements :
    (∀ s : Statement, Spelling r s.tokens (s.respell r).tokens) ∧
    (∀ b : Block, Spelling r b.tokens (b.respell r).tokens) := by
  have expression := (@spelling_expressions r).1
  have call := (@spelling_expressions r).2.2.1
  apply Statement.induction
  case assign =>
    exact fun keyword target equals value semicolon => .leaf keyword (.name target (.leaf equals
      ((expression value).append (.leaf semicolon .nil))))
  case assignElement =>
    exact fun keyword array opening index closing equals value semicolon =>
      .leaf keyword (.name array (.leaf opening ((expression index).append (.leaf closing
        (.leaf equals ((expression value).append (.leaf semicolon .nil)))))))
  case ifThen =>
    exact fun keyword opening condition closing _ body =>
      .leaf keyword (.leaf opening ((expression condition).append (.leaf closing body)))
  case ifElse =>
    exact fun keyword opening condition closing _ otherwise _ body alternative =>
      .leaf keyword (.leaf opening ((expression condition).append (.leaf closing
        (body.append (.leaf otherwise alternative)))))
  case loop =>
    exact fun keyword opening condition closing _ body =>
      .leaf keyword (.leaf opening ((expression condition).append (.leaf closing body)))
  case perform =>
    exact fun keyword c semicolon => .leaf keyword ((call c).append (.leaf semicolon .nil))
  case returnNothing => exact fun keyword semicolon => .leaf keyword (.leaf semicolon .nil)
  case returnValue =>
    exact fun keyword value semicolon =>
      .leaf keyword ((expression value).append (.leaf semicolon .nil))
  case braced =>
    exact fun opening _ closing each =>
      .leaf opening ((spelling_statementList each).append (.leaf closing .nil))

private theorem spelling_type (type : TypeName) : Spelling r type.tokens (type.respell r).tokens := by
  cases type with
  | builtIn word => exact .leaf word .nil
  | named name => exact .leaf name .nil

private theorem spelling_returnType (type : ReturnType) :
    Spelling r type.tokens (type.respell r).tokens := by
  cases type with
  | void word => exact .leaf word .nil
  | value type => exact spelling_type type

private theorem spelling_flatMap {α : Type} {tokens : α → List Token} {respell : α → α}
    (each : ∀ phrase, Spelling r (tokens phrase) (tokens (respell phrase))) (phrases : List α) :
    Spelling r (phrases.flatMap tokens) ((phrases.map respell).flatMap tokens) := by
  induction phrases with
  | nil => exact .nil
  | cons phrase phrases ih => exact (each phrase).append ih

private theorem spelling_more {α : Type} {tokens : α → List Token} {respell : α → α}
    (each : ∀ phrase, Spelling r (tokens phrase) (tokens (respell phrase)))
    (more : List (Comma × α)) :
    Spelling r (commaTokens tokens more) (commaTokens tokens (respellMore r respell more)) :=
  spelling_flatMap (fun pair => .leaf pair.1 (each pair.2)) more

private theorem spelling_names (names : NameList) :
    Spelling r names.tokens (names.respell r).tokens :=
  .name names.first (spelling_more (fun name => .name name .nil) names.more)

private theorem spelling_parameter (parameter : Parameter) :
    Spelling r parameter.tokens (parameter.respell r).tokens :=
  (spelling_type parameter.type).append (.name parameter.name .nil)

private theorem spelling_parameters (parameters : Parameters) :
    Spelling r parameters.tokens (parameters.respell r).tokens := by
  cases parameters with
  | empty => exact .nil
  | listed first more => exact (spelling_parameter first).append (spelling_more spelling_parameter more)

theorem ClassVariables.tokens_respell (declaration : ClassVariables) :
    List.Forall₂ r.Spells declaration.tokens (declaration.respell r).tokens :=
  Spelling.leaf declaration.scope ((spelling_type declaration.type).append
    ((spelling_names declaration.names).append (.leaf declaration.semicolon .nil)))

private theorem spelling_locals (declaration : LocalVariables) :
    Spelling r declaration.tokens (declaration.respell r).tokens :=
  .leaf declaration.keyword ((spelling_type declaration.type).append
    ((spelling_names declaration.names).append (.leaf declaration.semicolon .nil)))

private theorem spelling_body (body : SubroutineBody) :
    Spelling r body.tokens (body.respell r).tokens :=
  .leaf body.opening ((spelling_flatMap spelling_locals body.locals).append
    ((spelling_statementList fun s _ => spelling_statements.1 s).append (.leaf body.closing .nil)))

theorem SubroutineDeclaration.tokens_respell (s : SubroutineDeclaration) :
    List.Forall₂ r.Spells s.tokens (s.respell r).tokens :=
  Spelling.leaf s.keyword ((spelling_returnType s.returnType).append (.leaf s.name
    (.leaf s.opening ((spelling_parameters s.parameters).append (.leaf s.closing
      (spelling_body s.body))))))

end Tokens

def CompileError.relined (line : Nat → Nat) : CompileError → CompileError
  | .lexical number fault => .lexical (line number) fault
  | .syntactic number fault => .syntactic (line number) fault
  | .duplicateSymbol name => .duplicateSymbol name
  | .undeclaredSymbol number name => .undeclaredSymbol (line number) name
  | .invariant fault => .invariant fault

def Occurrence.respell (r : Respelling) : Occurrence → Occurrence
  | .variable name => .variable (r.nameToken name)
  | .text literal => .text (r.token literal)
  | .call arguments => .call arguments
  | .leave hasValue => .leave hasValue

def Declared.respell (r : Respelling) (declared : Declared) : Declared :=
  { declared with name := r.variableName declared.name }

section Occurrences

open Respelling

variable (r : Respelling)

private theorem literalOccurrences_respell (token : Token) :
    literalOccurrences (r.token token) = (literalOccurrences token).map (Occurrence.respell r) := by
  have kind : (r.token token).kind = token.kind := rfl
  rw [literalOccurrences, literalOccurrences, kind]
  split <;> rfl

private theorem moreArgumentOccurrences_respell {more : List (Comma × Expression)}
    (each : ∀ pair ∈ more,
      (pair.2.respell r).occurrences = pair.2.occurrences.map (Occurrence.respell r)) :
    moreArgumentOccurrences (respellArguments r more) =
      (moreArgumentOccurrences more).map (Occurrence.respell r) := by
  induction more with
  | nil => rfl
  | cons pair more ih =>
    rw [List.forall_mem_cons] at each
    simp only [respellArguments, moreArgumentOccurrences, each.1, ih each.2, List.map_append]

private theorem expressions_occurrences_respell :
    (∀ e : Expression, (e.respell r).occurrences = e.occurrences.map (Occurrence.respell r)) ∧
    (∀ t : Term, (t.respell r).occurrences = t.occurrences.map (Occurrence.respell r)) ∧
    (∀ c : Call, (c.respell r).occurrences = c.occurrences.map (Occurrence.respell r)) ∧
    (∀ a : Arguments, (a.respell r).occurrences = a.occurrences.map (Occurrence.respell r)) := by
  apply Expression.induction
  case literal => exact fun value => literalOccurrences_respell r value.val
  case listed =>
    intro first more one each
    simp only [Arguments.respell, Arguments.occurrences, one, moreArgumentOccurrences_respell r each,
      List.map_append]
  all_goals
    intros
    simp only [Expression.respell, Term.respell, Call.respell, Arguments.respell,
      Expression.occurrences, Term.occurrences, Call.occurrences, Arguments.occurrences,
      Occurrence.respell, val_name, Arguments.count_respell, List.map_append, List.map_cons,
      List.map_nil, *]

private theorem statementOccurrences_respell_of {statements : List Statement}
    (each : ∀ s ∈ statements,
      (s.respell r).occurrences = s.occurrences.map (Occurrence.respell r)) :
    statementOccurrences (respellStatements r statements) =
      (statementOccurrences statements).map (Occurrence.respell r) := by
  induction statements with
  | nil => rfl
  | cons statement statements ih =>
    rw [List.forall_mem_cons] at each
    simp only [respellStatements, statementOccurrences, each.1, ih each.2, List.map_append]

private theorem statements_occurrences_respell :
    (∀ s : Statement, (s.respell r).occurrences = s.occurrences.map (Occurrence.respell r)) ∧
    (∀ b : Block, (b.respell r).occurrences = b.occurrences.map (Occurrence.respell r)) := by
  have expression := (expressions_occurrences_respell r).1
  have call := (expressions_occurrences_respell r).2.2.1
  apply Statement.induction
  case braced => exact fun _ _ _ each => statementOccurrences_respell_of r each
  all_goals
    intros
    simp only [Statement.respell, Statement.occurrences, Occurrence.respell, val_name,
      List.map_append, List.map_cons, List.map_nil, *]

theorem SubroutineDeclaration.occurrences_respell (s : SubroutineDeclaration) :
    (s.respell r).occurrences = s.occurrences.map (Occurrence.respell r) :=
  statementOccurrences_respell_of r fun statement _ => (statements_occurrences_respell r).1 statement

@[simp]
theorem TypeName.text_respell (type : TypeName) : (type.respell r).text = type.text := by
  cases type <;> rfl

@[simp]
theorem ReturnType.text_respell (type : ReturnType) : (type.respell r).text = type.text := by
  cases type with
  | void word => rfl
  | value type => exact type.text_respell r

@[simp]
theorem NameList.texts_respell (names : NameList) :
    (names.respell r).texts = names.texts.map r.variableName := by
  simp [texts, NameList.respell, respellMore, Respelling.name, Respelling.nameToken]

theorem ClassVariables.variableList_respell (declaration : ClassVariables) :
    (declaration.respell r).variableList = declaration.variableList.map (Declared.respell r) := by
  simp only [variableList, ClassVariables.respell, NameList.texts_respell, TypeName.text_respell,
    List.map_map]
  rfl

theorem LocalVariables.variableList_respell (declaration : LocalVariables) :
    (declaration.respell r).variableList = declaration.variableList.map (Declared.respell r) := by
  simp only [variableList, LocalVariables.respell, NameList.texts_respell, TypeName.text_respell,
    List.map_map]
  rfl

theorem Parameter.variable_respell (parameter : Parameter) :
    (parameter.respell r).variable = parameter.variable.respell r := by
  simp only [Parameter.variable, Parameter.respell, TypeName.text_respell]
  rfl

theorem Parameters.list_respell (parameters : Parameters) :
    (parameters.respell r).list = parameters.list.map (Parameter.respell r) := by
  cases parameters with
  | empty => rfl
  | listed first more => simp [Parameters.respell, list, respellMore]

theorem SubroutineDeclaration.declared_respell (s : SubroutineDeclaration) :
    (s.respell r).declared = s.declared.map (Declared.respell r) := by
  simp only [declared, SubroutineDeclaration.respell, SubroutineBody.respell,
    Parameters.list_respell, List.map_append, List.map_map, List.map_flatMap, List.flatMap_map,
    Function.comp_def, Parameter.variable_respell, LocalVariables.variableList_respell]

theorem SubroutineDeclaration.head_respell (s : SubroutineDeclaration) :
    (s.respell r).head = s.head := by
  simp only [head, SubroutineDeclaration.respell, ReturnType.text_respell]
  rfl

end Occurrences

section Same

open Respelling

@[simp]
theorem Respelling.leaf_same {test : Token → Bool} [Lineless test] (leaf : TokenWith test) :
    same.leaf leaf = leaf := rfl

@[simp]
theorem Respelling.name_same (name : Name) : same.name name = name := rfl

private theorem respellMore_same {α : Type} {respell : α → α} {more : List (Comma × α)}
    (each : ∀ pair ∈ more, respell pair.2 = pair.2) : respellMore same respell more = more := by
  rw [respellMore]
  conv_rhs => rw [← List.map_id more]
  exact List.map_congr_left fun pair member => by simp [each pair member]

private theorem expressions_same :
    (∀ e : Expression, e.respell same = e) ∧ (∀ t : Term, t.respell same = t) ∧
    (∀ c : Call, c.respell same = c) ∧ (∀ a : Arguments, a.respell same = a) := by
  apply Expression.induction
  case listed =>
    intro first more one each
    rw [Arguments.respell, one, respellArguments_eq, respellMore_same each]
  all_goals
    intros
    simp only [Expression.respell, Term.respell, Call.respell, Arguments.respell, leaf_same,
      name_same, *]

private theorem respellStatements_same_of {statements : List Statement}
    (each : ∀ s ∈ statements, s.respell same = s) : respellStatements same statements = statements := by
  rw [respellStatements_eq]
  conv_rhs => rw [← List.map_id statements]
  exact List.map_congr_left each

private theorem statements_same :
    (∀ s : Statement, s.respell same = s) ∧ (∀ b : Block, b.respell same = b) := by
  have expression := expressions_same.1
  have call := expressions_same.2.2.1
  apply Statement.induction
  case braced =>
    intro opening statements closing each
    rw [Block.respell, respellStatements_same_of each]
    rfl
  all_goals
    intros
    simp only [Statement.respell, leaf_same, name_same, *]

private theorem type_same (type : TypeName) : type.respell same = type := by
  cases type <;> rfl

private theorem returnType_same (type : ReturnType) : type.respell same = type := by
  cases type with
  | void word => rfl
  | value type => rw [ReturnType.respell, type_same]

private theorem names_same (names : NameList) : names.respell same = names := by
  rw [NameList.respell, respellMore_same fun _ _ => name_same _]
  rfl

private theorem parameter_same (parameter : Parameter) : parameter.respell same = parameter := by
  rw [Parameter.respell, type_same]
  rfl

private theorem parameters_same (parameters : Parameters) :
    parameters.respell same = parameters := by
  cases parameters with
  | empty => rfl
  | listed first more =>
    rw [Parameters.respell, parameter_same, respellMore_same fun _ _ => parameter_same _]

private theorem locals_same (declaration : LocalVariables) :
    declaration.respell same = declaration := by
  rw [LocalVariables.respell, type_same, names_same]
  rfl

private theorem body_same (body : SubroutineBody) : body.respell same = body := by
  rw [SubroutineBody.respell, respellStatements_same_of fun s _ => statements_same.1 s,
    List.map_congr_left fun declaration _ => locals_same declaration, List.map_id']
  rfl

theorem SubroutineDeclaration.respell_same (s : SubroutineDeclaration) : s.respell same = s := by
  rw [SubroutineDeclaration.respell, returnType_same, parameters_same, body_same]
  rfl

end Same

end JackCompiler
