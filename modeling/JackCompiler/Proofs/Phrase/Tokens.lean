import JackCompiler.Phrase.Parser
import JackCompiler.Proofs.Phrase.Induction

namespace JackCompiler

theorem Word.value_mem {values : List String} (word : Word values) : word.val.value ∈ values := by
  have passes := word.property
  simp only [Token.isOneOf, Bool.and_eq_true, List.contains_iff_mem] at passes
  exact passes.2

theorem Word.value_eq {value : String} (word : Word [value]) : word.val.value = value :=
  List.mem_singleton.mp word.value_mem

theorem SymbolWord.value_mem {values : List String} (word : SymbolWord values) :
    word.val.value ∈ values := by
  have passes := word.property
  simp only [Token.isSymbolOf, Bool.and_eq_true, List.contains_iff_mem] at passes
  exact passes.2

mutual

def Expression.tokens : Expression → List Token
  | .term term => term.tokens
  | .binary left operator right => left.tokens ++ operator.val :: right.tokens

def Term.tokens : Term → List Token
  | .literal value => [value.val]
  | .name name => [name.val]
  | .element array opening index closing =>
    array.val :: opening.val :: (index.tokens ++ [closing.val])
  | .call call => call.tokens
  | .group opening inner closing => opening.val :: (inner.tokens ++ [closing.val])
  | .unary operator operand => operator.val :: operand.tokens

def Call.tokens : Call → List Token
  | .bare name opening arguments closing =>
    name.val :: opening.val :: (arguments.tokens ++ [closing.val])
  | .qualified qualifier dot name opening arguments closing =>
    qualifier.val :: dot.val :: name.val :: opening.val :: (arguments.tokens ++ [closing.val])

def Arguments.tokens : Arguments → List Token
  | .empty => []
  | .listed first more => first.tokens ++ moreArgumentTokens more

def moreArgumentTokens : List (Comma × Expression) → List Token
  | [] => []
  | (comma, argument) :: more => comma.val :: (argument.tokens ++ moreArgumentTokens more)

end

mutual

def Statement.tokens : Statement → List Token
  | .assign keyword target equals value semicolon =>
    keyword.val :: target.val :: equals.val :: (value.tokens ++ [semicolon.val])
  | .assignElement keyword array opening index closing equals value semicolon =>
    keyword.val :: array.val :: opening.val ::
      (index.tokens ++ closing.val :: equals.val :: (value.tokens ++ [semicolon.val]))
  | .ifThen keyword opening condition closing body =>
    keyword.val :: opening.val :: (condition.tokens ++ closing.val :: body.tokens)
  | .ifElse keyword opening condition closing body otherwise alternative =>
    keyword.val :: opening.val :: (condition.tokens ++ closing.val ::
      (body.tokens ++ otherwise.val :: alternative.tokens))
  | .loop keyword opening condition closing body =>
    keyword.val :: opening.val :: (condition.tokens ++ closing.val :: body.tokens)
  | .perform keyword call semicolon => keyword.val :: (call.tokens ++ [semicolon.val])
  | .returnNothing keyword semicolon => [keyword.val, semicolon.val]
  | .returnValue keyword value semicolon => keyword.val :: (value.tokens ++ [semicolon.val])

def Block.tokens : Block → List Token
  | .braced opening statements closing =>
    opening.val :: (statementTokens statements ++ [closing.val])

def statementTokens : List Statement → List Token
  | [] => []
  | statement :: statements => statement.tokens ++ statementTokens statements

end

def commaTokens {α : Type} (tokens : α → List Token) (more : List (Comma × α)) : List Token :=
  more.flatMap fun pair => pair.1.val :: tokens pair.2

def TypeName.tokens : TypeName → List Token
  | .builtIn word => [word.val]
  | .named name => [name.val]

def ReturnType.tokens : ReturnType → List Token
  | .void word => [word.val]
  | .value type => type.tokens

def nameTokens (name : Name) : List Token := [name.val]

def NameList.tokens (names : NameList) : List Token :=
  names.first.val :: commaTokens nameTokens names.more

def Parameter.tokens (parameter : Parameter) : List Token :=
  parameter.type.tokens ++ [parameter.name.val]

def Parameters.tokens : Parameters → List Token
  | .empty => []
  | .listed first more => first.tokens ++ commaTokens Parameter.tokens more

def ClassVariables.tokens (declaration : ClassVariables) : List Token :=
  declaration.scope.val ::
    (declaration.type.tokens ++ (declaration.names.tokens ++ [declaration.semicolon.val]))

def LocalVariables.tokens (declaration : LocalVariables) : List Token :=
  declaration.keyword.val ::
    (declaration.type.tokens ++ (declaration.names.tokens ++ [declaration.semicolon.val]))

def SubroutineBody.tokens (body : SubroutineBody) : List Token :=
  body.opening.val ::
    (body.locals.flatMap LocalVariables.tokens ++
      (statementTokens body.statements ++ [body.closing.val]))

def SubroutineDeclaration.tokens (subroutine : SubroutineDeclaration) : List Token :=
  subroutine.keyword.val :: (subroutine.returnType.tokens ++ subroutine.name.val ::
    subroutine.opening.val :: (subroutine.parameters.tokens ++ subroutine.closing.val ::
      subroutine.body.tokens))

def ClassDeclaration.tokens (declaration : ClassDeclaration) : List Token :=
  declaration.keyword.val :: declaration.name.val :: declaration.opening.val ::
    (declaration.declarations.flatMap ClassVariables.tokens ++
      (declaration.subroutines.flatMap SubroutineDeclaration.tokens ++ [declaration.closing.val]))

namespace Phrase

def tokens : Phrase → List Token
  | .classDeclaration phrase => phrase.tokens
  | .classVariables phrases => phrases.flatMap ClassVariables.tokens
  | .subroutineDeclaration phrase => phrase.tokens
  | .parameters phrase => phrase.tokens
  | .subroutineBody phrase => phrase.tokens
  | .statements phrases => statementTokens phrases
  | .statement phrase => phrase.tokens
  | .expression phrase => phrase.tokens
  | .term phrase => phrase.tokens
  | .arguments phrase => phrase.tokens

def entry : Phrase → EntryPoint
  | .classDeclaration _ => .classDeclaration
  | .classVariables _ => .classVariables
  | .subroutineDeclaration _ => .subroutineDeclaration
  | .parameters _ => .parameters
  | .subroutineBody _ => .subroutineBody
  | .statements _ => .statements
  | .statement _ => .statement
  | .expression _ => .expression
  | .term _ => .term
  | .arguments _ => .arguments

end Phrase

theorem forall_mem_commaTokens {α : Type} {tokens : α → List Token} {more : List (Comma × α)}
    {P : Token → Prop} (each : ∀ t ∈ commaTokens tokens more, P t) :
    (∀ pair ∈ more, P pair.1.val) ∧ ∀ pair ∈ more, ∀ t ∈ tokens pair.2, P t := by
  rw [commaTokens, List.forall_mem_flatMap] at each
  exact ⟨fun pair member => each pair member _ (.head _),
    fun pair member t inside => each pair member t (.tail _ inside)⟩

theorem moreArgumentTokens_eq (more : List (Comma × Expression)) :
    moreArgumentTokens more = commaTokens Expression.tokens more := by
  induction more with
  | nil => rfl
  | cons pair more ih => simp [moreArgumentTokens, commaTokens, ih]

theorem statementTokens_eq (statements : List Statement) :
    statementTokens statements = statements.flatMap Statement.tokens := by
  induction statements with
  | nil => rfl
  | cons statement statements ih => simp [statementTokens, ih]

def Expression.operators : Expression → Nat
  | .term _ => 0
  | .binary left _ _ => left.operators + 1

mutual

/-- An operator stays open up to the end of its expression, so the operand after the last of `k`
operators lies `k` levels deeper than the first operand. -/
def Expression.nesting : Expression → Nat
  | .term term => term.nesting
  | .binary left _ right => max left.nesting (left.operators + 1 + right.nesting)

def Term.nesting : Term → Nat
  | .literal _ => 1
  | .name _ => 1
  | .element _ _ index _ => index.nesting + 1
  | .call call => call.nesting + 1
  | .group _ inner _ => inner.nesting + 1
  | .unary _ operand => operand.nesting + 1

def Call.nesting : Call → Nat
  | .bare _ _ arguments _ => arguments.nesting
  | .qualified _ _ _ _ arguments _ => arguments.nesting

def Arguments.nesting : Arguments → Nat
  | .empty => 0
  | .listed first more => max first.nesting (moreArgumentNesting more)

def moreArgumentNesting : List (Comma × Expression) → Nat
  | [] => 0
  | (_, argument) :: more => max argument.nesting (moreArgumentNesting more)

end

mutual

def Statement.nesting : Statement → Nat
  | .assign _ _ _ value _ => value.nesting
  | .assignElement _ _ _ index _ _ value _ => max index.nesting value.nesting
  | .ifThen _ _ condition _ body => max condition.nesting body.nesting
  | .ifElse _ _ condition _ body _ alternative =>
    max condition.nesting (max body.nesting alternative.nesting)
  | .loop _ _ condition _ body => max condition.nesting body.nesting
  | .perform _ call _ => call.nesting
  | .returnNothing _ _ => 0
  | .returnValue _ value _ => value.nesting

def Block.nesting : Block → Nat
  | .braced _ statements _ => deepestStatement statements + 1

def deepestStatement : List Statement → Nat
  | [] => 0
  | statement :: statements => max statement.nesting (deepestStatement statements)

end

def statementsNesting (statements : List Statement) : Nat := deepestStatement statements + 1

def SubroutineBody.nesting (body : SubroutineBody) : Nat := statementsNesting body.statements

def SubroutineDeclaration.nesting (subroutine : SubroutineDeclaration) : Nat :=
  subroutine.body.nesting

def ClassDeclaration.nesting (declaration : ClassDeclaration) : Nat :=
  (declaration.subroutines.map SubroutineDeclaration.nesting).foldr max 0

def Phrase.nesting : Phrase → Nat
  | .classDeclaration phrase => phrase.nesting
  | .classVariables _ => 0
  | .subroutineDeclaration phrase => phrase.nesting
  | .parameters _ => 0
  | .subroutineBody phrase => phrase.nesting
  | .statements phrases => statementsNesting phrases
  | .statement phrase => phrase.nesting
  | .expression phrase => phrase.nesting
  | .term phrase => phrase.nesting
  | .arguments phrase => phrase.nesting

theorem moreArgumentNesting_le (more : List (Comma × Expression)) (room : Nat) :
    moreArgumentNesting more ≤ room ↔ ∀ pair ∈ more, pair.2.nesting ≤ room := by
  induction more with
  | nil => simp [moreArgumentNesting]
  | cons pair more ih => rw [moreArgumentNesting, Nat.max_le, List.forall_mem_cons, ih]

theorem deepestStatement_le (statements : List Statement) (room : Nat) :
    deepestStatement statements ≤ room ↔ ∀ s ∈ statements, s.nesting ≤ room := by
  induction statements with
  | nil => simp [deepestStatement]
  | cons statement statements ih => rw [deepestStatement, Nat.max_le, List.forall_mem_cons, ih]

theorem ClassDeclaration.nesting_le (declaration : ClassDeclaration) (room : Nat) :
    declaration.nesting ≤ room ↔ ∀ s ∈ declaration.subroutines, s.nesting ≤ room := by
  unfold nesting
  induction declaration.subroutines with
  | nil => simp
  | cons subroutine subroutines ih =>
    rw [List.map_cons, List.foldr_cons, Nat.max_le, List.forall_mem_cons, ih]

end JackCompiler
