import JackCompiler.Phrase.Basic
import JackCompiler.Tree

namespace JackCompiler

abbrev Numbering := StateM Nat

def nextNumber : Numbering Nat := modifyGet fun number => (number, number + 1)

def leaf (kind : NodeKind) (token : Token) : Numbering Tree := do
  return .node (← nextNumber) kind (some token) []

def wordLeaf (token : Token) : Numbering Tree :=
  leaf (if token.kind = .keyword then .keyword else .symbol) token

def nameLeaf (token : Token) : Numbering Tree := leaf .identifier token

def literalLeaf (token : Token) : Numbering Tree :=
  leaf
    (match token.kind with
    | .integerConstant => .integerConstant
    | .stringConstant => .stringConstant
    | _ => .keyword)
    token

mutual

def Expression.toTree (expression : Expression) : Numbering Tree := do
  let number ← nextNumber
  return .node number .expression none [← expression.operandTree]

def Expression.operandTree : Expression → Numbering Tree
  | .term term => term.toTree
  | .binary left operator right => do
    let left ← left.operandTree
    let number ← nextNumber
    return .node number .binaryOp (some operator.val) [left, ← right.toTree]

def Term.toTree : Term → Numbering Tree
  | .literal value => do
    let number ← nextNumber
    return .node number .term none [← literalLeaf value.val]
  | .name name => do
    let number ← nextNumber
    return .node number .term none [← nameLeaf name.val]
  | .element array opening index closing => do
    let number ← nextNumber
    let array ← nameLeaf array.val
    let access ← nextNumber
    let opening ← wordLeaf opening.val
    let index ← index.toTree
    let closing ← wordLeaf closing.val
    return .node number .term none
      [.node access .arrayAccess none [array, opening, index, closing]]
  | .call call => do
    let number ← nextNumber
    return .node number .term none [← call.toTree]
  | .group opening inner closing => do
    let number ← nextNumber
    let opening ← wordLeaf opening.val
    let inner ← inner.toTree
    let closing ← wordLeaf closing.val
    return .node number .term none [opening, inner, closing]
  | .unary operator operand => do
    let number ← nextNumber
    let operation ← nextNumber
    let operand ← operand.toTree
    return .node number .term none [.node operation .unaryOp (some operator.val) [operand]]

def Call.toTree : Call → Numbering Tree
  | .bare name opening arguments closing => do
    let name ← nameLeaf name.val
    let number ← nextNumber
    let opening ← wordLeaf opening.val
    let arguments ← arguments.toTree
    let closing ← wordLeaf closing.val
    return .node number .subroutineCall none [name, opening, arguments, closing]
  | .qualified qualifier dot name opening arguments closing => do
    let qualifier ← nameLeaf qualifier.val
    let number ← nextNumber
    let dot ← wordLeaf dot.val
    let name ← nameLeaf name.val
    let opening ← wordLeaf opening.val
    let arguments ← arguments.toTree
    let closing ← wordLeaf closing.val
    return .node number .subroutineCall none [qualifier, dot, name, opening, arguments, closing]

def Arguments.toTree : Arguments → Numbering Tree
  | .empty => do
    return .node (← nextNumber) .expressionList none []
  | .listed first more => do
    let number ← nextNumber
    let first ← first.toTree
    return .node number .expressionList none (← moreArgumentTrees more [first])

def moreArgumentTrees : List (Comma × Expression) → List Tree → Numbering (List Tree)
  | [], done => return done.reverse
  | (comma, argument) :: more, done => do
    let comma ← wordLeaf comma.val
    let argument ← argument.toTree
    moreArgumentTrees more (argument :: comma :: done)

end

mutual

def Statement.toTree : Statement → Numbering Tree
  | .assign keyword target equals value semicolon => do
    let number ← nextNumber
    let keyword ← wordLeaf keyword.val
    let target ← nameLeaf target.val
    let assignment ← nextNumber
    let equals ← wordLeaf equals.val
    let value ← value.toTree
    let semicolon ← wordLeaf semicolon.val
    return .node number .letStatement none
      [keyword, .node assignment .assignment none [target, equals, value], semicolon]
  | .assignElement keyword array opening index closing equals value semicolon => do
    let number ← nextNumber
    let keyword ← wordLeaf keyword.val
    let array ← nameLeaf array.val
    let assignment ← nextNumber
    let opening ← wordLeaf opening.val
    let index ← index.toTree
    let closing ← wordLeaf closing.val
    let equals ← wordLeaf equals.val
    let value ← value.toTree
    let semicolon ← wordLeaf semicolon.val
    return .node number .letStatement none
      [keyword,
        .node assignment .arrayAssignment none [array, opening, index, closing, equals, value],
        semicolon]
  | .ifThen keyword opening condition closing body => do
    let number ← nextNumber
    let keyword ← wordLeaf keyword.val
    let opening ← wordLeaf opening.val
    let condition ← condition.toTree
    let closing ← wordLeaf closing.val
    let body ← body.toTrees
    return .node number .ifStatement none ([keyword, opening, condition, closing] ++ body)
  | .ifElse keyword opening condition closing body otherwise alternative => do
    let number ← nextNumber
    let keyword ← wordLeaf keyword.val
    let opening ← wordLeaf opening.val
    let condition ← condition.toTree
    let closing ← wordLeaf closing.val
    let body ← body.toTrees
    let otherwise ← wordLeaf otherwise.val
    let alternative ← alternative.toTrees
    return .node number .ifStatement none
      ([keyword, opening, condition, closing] ++ body ++ [otherwise] ++ alternative)
  | .loop keyword opening condition closing body => do
    let number ← nextNumber
    let keyword ← wordLeaf keyword.val
    let opening ← wordLeaf opening.val
    let condition ← condition.toTree
    let closing ← wordLeaf closing.val
    let body ← body.toTrees
    return .node number .whileStatement none ([keyword, opening, condition, closing] ++ body)
  | .perform keyword call semicolon => do
    let number ← nextNumber
    let keyword ← wordLeaf keyword.val
    let call ← call.toTree
    let semicolon ← wordLeaf semicolon.val
    return .node number .doStatement none [keyword, call, semicolon]
  | .returnNothing keyword semicolon => do
    let number ← nextNumber
    let keyword ← wordLeaf keyword.val
    let semicolon ← wordLeaf semicolon.val
    return .node number .returnStatement none [keyword, semicolon]
  | .returnValue keyword value semicolon => do
    let number ← nextNumber
    let keyword ← wordLeaf keyword.val
    let value ← value.toTree
    let semicolon ← wordLeaf semicolon.val
    return .node number .returnStatement none [keyword, value, semicolon]

def Block.toTrees : Block → Numbering (List Tree)
  | .braced opening statements closing => do
    let opening ← wordLeaf opening.val
    let number ← nextNumber
    let statements ← statementTrees statements []
    let closing ← wordLeaf closing.val
    return [opening, .node number .statements none statements, closing]

def statementTrees : List Statement → List Tree → Numbering (List Tree)
  | [], done => return done.reverse
  | statement :: statements, done => do
    let statement ← statement.toTree
    statementTrees statements (statement :: done)

end

def statementsTree (statements : List Statement) : Numbering Tree := do
  let number ← nextNumber
  return .node number .statements none (← statementTrees statements [])

def treesOf {α : Type} (toTree : α → Numbering Tree) : List α → List Tree → Numbering (List Tree)
  | [], done => return done.reverse
  | phrase :: phrases, done => do
    let tree ← toTree phrase
    treesOf toTree phrases (tree :: done)

def TypeName.toTree : TypeName → Numbering Tree
  | .builtIn word => wordLeaf word.val
  | .named name => nameLeaf name.val

def ReturnType.toTree : ReturnType → Numbering Tree
  | .void word => wordLeaf word.val
  | .value type => type.toTree

def moreNameTrees : List (Comma × Name) → List Tree → Numbering (List Tree)
  | [], done => return done.reverse
  | (comma, name) :: more, done => do
    let comma ← wordLeaf comma.val
    let name ← nameLeaf name.val
    moreNameTrees more (name :: comma :: done)

def NameList.toTrees (names : NameList) : Numbering (List Tree) := do
  let first ← nameLeaf names.first.val
  moreNameTrees names.more [first]

def moreParameterTrees : List (Comma × Parameter) → List Tree → Numbering (List Tree)
  | [], done => return done.reverse
  | (comma, parameter) :: more, done => do
    let comma ← wordLeaf comma.val
    let type ← parameter.type.toTree
    let name ← nameLeaf parameter.name.val
    moreParameterTrees more (name :: type :: comma :: done)

def Parameters.toTree : Parameters → Numbering Tree
  | .empty => do
    return .node (← nextNumber) .parameterList none []
  | .listed first more => do
    let number ← nextNumber
    let type ← first.type.toTree
    let name ← nameLeaf first.name.val
    return .node number .parameterList none (← moreParameterTrees more [name, type])

def ClassVariables.toTree (declaration : ClassVariables) : Numbering Tree := do
  let number ← nextNumber
  let scope ← wordLeaf declaration.scope.val
  let type ← declaration.type.toTree
  let names ← declaration.names.toTrees
  let semicolon ← wordLeaf declaration.semicolon.val
  return .node number .classVarDec none ([scope, type] ++ names ++ [semicolon])

def LocalVariables.toTree (declaration : LocalVariables) : Numbering Tree := do
  let number ← nextNumber
  let keyword ← wordLeaf declaration.keyword.val
  let type ← declaration.type.toTree
  let names ← declaration.names.toTrees
  let semicolon ← wordLeaf declaration.semicolon.val
  return .node number .varDec none ([keyword, type] ++ names ++ [semicolon])

def SubroutineBody.toTree (body : SubroutineBody) : Numbering Tree := do
  let number ← nextNumber
  let opening ← wordLeaf body.opening.val
  let locals ← treesOf LocalVariables.toTree body.locals []
  let statements ← statementsTree body.statements
  let closing ← wordLeaf body.closing.val
  return .node number .subroutineBody none ([opening] ++ locals ++ [statements, closing])

def SubroutineDeclaration.toTree (subroutine : SubroutineDeclaration) : Numbering Tree := do
  let number ← nextNumber
  let keyword ← wordLeaf subroutine.keyword.val
  let returnType ← subroutine.returnType.toTree
  let name ← nameLeaf subroutine.name.val
  let opening ← wordLeaf subroutine.opening.val
  let parameters ← subroutine.parameters.toTree
  let closing ← wordLeaf subroutine.closing.val
  let body ← subroutine.body.toTree
  return .node number .subroutineDec none
    [keyword, returnType, name, opening, parameters, closing, body]

def ClassDeclaration.toTree (declaration : ClassDeclaration) : Numbering Tree := do
  let number ← nextNumber
  let keyword ← wordLeaf declaration.keyword.val
  let name ← nameLeaf declaration.name.val
  let opening ← wordLeaf declaration.opening.val
  let declarations ← treesOf ClassVariables.toTree declaration.declarations []
  let subroutines ← treesOf SubroutineDeclaration.toTree declaration.subroutines []
  let closing ← wordLeaf declaration.closing.val
  return .node number .classDec none
    ([keyword, name, opening] ++ declarations ++ subroutines ++ [closing])

def Phrase.toTrees : Phrase → Numbering (List Tree)
  | .classDeclaration phrase => return [← phrase.toTree]
  | .classVariables phrases => treesOf ClassVariables.toTree phrases []
  | .subroutineDeclaration phrase => return [← phrase.toTree]
  | .parameters phrase => return [← phrase.toTree]
  | .subroutineBody phrase => return [← phrase.toTree]
  | .statements phrases => return [← statementsTree phrases]
  | .statement phrase => return [← phrase.toTree]
  | .expression phrase => return [← phrase.toTree]
  | .term phrase => return [← phrase.toTree]
  | .arguments phrase => return [← phrase.toTree]

def Phrase.toTree (phrase : Phrase) : Tree :=
  .node 0 .start none (phrase.toTrees 1).1

end JackCompiler
