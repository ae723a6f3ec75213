import JackCompiler.Forest
import JackCompiler.Phrase.Parser

namespace JackCompiler

/-- The state of a parser. -/
structure Growth where
  cursor : Cursor
  forest : Forest
  depth : Nat

abbrev Growing := StateT Growth (Except CompileError)

namespace Growing

variable {α : Type}

def current : Growing Token := fun state => .ok (state.cursor.token, state)

def fail (fault : SyntaxFault) : Growing α := fun state =>
  .error (.syntactic state.cursor.token.line fault)

def advance : Growing Unit := fun state => do
  let (_, cursor) ← Parse.advance state.cursor
  return ((), { state with cursor })

def add (parent : Nat) (kind : NodeKind) (token : Option Token) : Growing Nat := fun state =>
  .ok (state.forest.size, { state with forest := state.forest.add (some parent) kind token })

def adopt (parent child : Nat) : Growing Unit := fun state =>
  .ok ((), { state with forest := state.forest.adopt parent child })

def pivot (operator : Nat) (operands : List Nat) : Growing Unit := fun state =>
  .ok ((), { state with forest := state.forest.pivot operator operands })

def nest (phrase : NestedPhrase) : Growing Unit := fun state =>
  if maxNesting < state.depth + 1 then
    fail (.nestedTooDeeply phrase) state
  else
    .ok ((), { state with depth := state.depth + 1 })

def unnest (levels : Nat) : Growing Unit := fun state =>
  .ok ((), { state with depth := state.depth - levels })

def terminal (parent : Nat) (kind : NodeKind) : Growing Nat := do
  let token ← current
  if token.kind = .eof then
    fail .endOfFile
  else
    let node ← add parent kind (some token)
    advance
    return node

def consume (parent : Nat) : Growing Nat := do
  match (← current).kind with
  | .keyword => terminal parent .keyword
  | .symbol => terminal parent .symbol
  | .identifier => terminal parent .identifier
  | .integerConstant => terminal parent .integerConstant
  | .stringConstant => terminal parent .stringConstant
  | .eof => fail .endOfFile

def expect (values : List String) (parent : Nat) : Growing Nat := do
  let token ← current
  if token.isOneOf values then
    consume parent
  else
    fail (if token.kind = .eof then .endOfFileBefore values else .unexpected values token.value)

def accept (values : List String) (parent : Nat) : Growing Bool := do
  if (← current).isOneOf values then
    let _ ← consume parent
    return true
  else
    return false

def identifier (parent : Nat) : Growing Nat := do
  let token ← current
  if token.isName then
    terminal parent .identifier
  else
    fail (.noIdentifier token.value)

def memberName (parent : Nat) : Growing Nat := do
  if (← current).kind = .keyword then
    terminal parent .identifier
  else
    identifier parent

def within (kind : NodeKind) (fill : Nat → Growing α) (parent : Nat) : Growing Nat := do
  let node ← add parent kind none
  let _ ← fill node
  return node

def behind (kind : NodeKind) (fill : Nat → Growing α) (parent moved : Nat) : Growing Nat :=
  within kind
    (fun node => do
      adopt node moved
      fill node)
    parent

def nested (phrase : NestedPhrase) (work : Nat → Growing Nat) (parent : Nat) : Growing Nat := do
  nest phrase
  let node ← work parent
  unnest 1
  return node

def rounds (test : Token → Bool) (work : Growing α) : List Item → Growing Unit
  | [] => do
    if test (← current) then
      discard work
  | _ :: bound => do
    if test (← current) then
      let _ ← work
      rounds test work bound

def repeatWhile (test : Token → Bool) (work : Nat → Growing α) (parent : Nat) : Growing Unit := do
  rounds test (work parent) (← get).cursor.rest

def afterCommas (work : Nat → Growing α) : Nat → Growing Unit :=
  repeatWhile (Token.isOneOf [","]) fun parent => do
    let _ ← expect [","] parent
    work parent

def expressionList (expression : Nat → Growing Nat) : Nat → Growing Nat :=
  within .expressionList fun node => do
    if (← current).startsTerm then
      let _ ← expression node
      afterCommas expression node

def callEnd (expression : Nat → Growing Nat) (node : Nat) : Growing Nat := do
  let _ ← expect ["("] node
  let _ ← expressionList expression node
  expect [")"] node

def callRest (expression : Nat → Growing Nat) (node : Nat) : Growing Nat := do
  if ← accept ["."] node then
    let _ ← memberName node
    callEnd expression node
  else
    callEnd expression node

def subroutineCall (expression : Nat → Growing Nat) : Nat → Nat → Growing Nat :=
  behind .subroutineCall (callRest expression)

def index (expression : Nat → Growing Nat) (node : Nat) : Growing Nat := do
  let _ ← expect ["["] node
  let _ ← expression node
  expect ["]"] node

def arrayAccess (expression : Nat → Growing Nat) : Nat → Nat → Growing Nat :=
  behind .arrayAccess (index expression)

def operand (expression term : Nat → Growing Nat) (node : Nat) : Growing Unit := do
  let token ← current
  if token.isLiteral then
    discard (consume node)
  else if token.isName then
    let name ← identifier node
    if (← current).isOneOf [".", "("] then
      discard (subroutineCall expression node name)
    else if (← current).isOneOf ["["] then
      discard (arrayAccess expression node name)
  else if token.isSymbolOf ["("] then
    let _ ← consume node
    let _ ← expression node
    discard (expect [")"] node)
  else if token.isSymbolOf unaryOperators then
    let operator ← terminal node .unaryOp
    let argument ← term node
    pivot operator [argument]
  else
    fail (if token.kind = .eof then .endOfFileBeforeTerm else .noTerm token.value)

def termOf (expression term : Nat → Growing Nat) : Nat → Growing Nat :=
  nested .expression (within .term (operand expression term))

def expressionOf (term : Nat → Growing Nat) (operators : Nat → Nat → Nat → Growing Nat) :
    Nat → Growing Nat :=
  within .expression fun node => do
    let left ← term node
    let folds ← operators node left 0
    unnest folds

mutual

/-- A term. No more than so many levels are entered: the count of levels ends the way down. -/
def term : Nat → Nat → Growing Nat
  | 0 => fun _ => fail (.nestedTooDeeply .expression)
  | levels + 1 => termOf (expressionOf (term levels) (operators levels)) (term levels)

def operators : Nat → Nat → Nat → Nat → Growing Nat
  | 0, _, _, folds => do
    if (← current).isOneOf binaryOperators then
      fail (.nestedTooDeeply .expression)
    else
      return folds
  | levels + 1, node, left, folds => do
    if (← current).isOneOf binaryOperators then
      nest .expression
      let operator ← terminal node .binaryOp
      let right ← term levels node
      pivot operator [left, right]
      operators levels node operator (folds + 1)
    else
      return folds

end

def expression (levels : Nat) : Nat → Growing Nat := expressionOf (term levels) (operators levels)

def assigned (expression : Nat → Growing Nat) (node : Nat) : Growing Nat := do
  let _ ← expect ["="] node
  expression node

def letStatement (expression : Nat → Growing Nat) : Nat → Growing Nat :=
  within .letStatement fun node => do
    let _ ← expect ["let"] node
    let target ← identifier node
    if (← current).isOneOf ["["] then
      let _ ← behind .arrayAssignment
        (fun node => do
          let _ ← index expression node
          assigned expression node)
        node target
      expect [";"] node
    else
      let _ ← behind .assignment (assigned expression) node target
      expect [";"] node

def block (statements : Nat → Growing Nat) (node : Nat) : Growing Nat := do
  let _ ← expect ["\x7b"] node
  let _ ← statements node
  expect ["\x7d"] node

def ifStatement (expression statements : Nat → Growing Nat) : Nat → Growing Nat :=
  within .ifStatement fun node => do
    let _ ← expect ["if"] node
    let _ ← expect ["("] node
    let _ ← expression node
    let _ ← expect [")"] node
    let _ ← block statements node
    if ← accept ["else"] node then
      discard (block statements node)

def whileStatement (expression statements : Nat → Growing Nat) : Nat → Growing Nat :=
  within .whileStatement fun node => do
    let _ ← expect ["while"] node
    let _ ← expect ["("] node
    let _ ← expression node
    let _ ← expect [")"] node
    block statements node

def doStatement (expression : Nat → Growing Nat) : Nat → Growing Nat :=
  within .doStatement fun node => do
    let _ ← expect ["do"] node
    let callee ← identifier node
    let _ ← subroutineCall expression node callee
    expect [";"] node

def returnStatement (expression : Nat → Growing Nat) : Nat → Growing Nat :=
  within .returnStatement fun node => do
    let _ ← expect ["return"] node
    if ← accept [";"] node then
      return
    else
      let _ ← expression node
      discard (expect [";"] node)

def statementOf (expression statements : Nat → Growing Nat) (parent : Nat) : Growing Nat := do
  match (← current).value with
  | "let" => letStatement expression parent
  | "do" => doStatement expression parent
  | "if" => ifStatement expression statements parent
  | "while" => whileStatement expression statements parent
  | _ => returnStatement expression parent

def statements : Nat → Nat → Growing Nat
  | 0 => fun _ => fail (.nestedTooDeeply .statements)
  | levels + 1 =>
    nested .statements <| within .statements <|
      repeatWhile (Token.isOneOf statementWords)
        (statementOf (expression levels) (statements levels))

def typeName (parent : Nat) : Growing Unit := do
  if ← accept typeWords parent then
    return
  else
    discard (identifier parent)

def returnType (parent : Nat) : Growing Unit := do
  if ← accept ["void"] parent then
    return
  else
    typeName parent

def nameList (parent : Nat) : Growing Unit := do
  let _ ← identifier parent
  afterCommas identifier parent

def parameter (parent : Nat) : Growing Nat := do
  typeName parent
  identifier parent

def parameterList : Nat → Growing Nat :=
  within .parameterList fun node => do
    if (← current).startsType then
      let _ ← parameter node
      afterCommas parameter node

def variableDeclaration (kind : NodeKind) (words : List String) : Nat → Growing Nat :=
  within kind fun node => do
    let _ ← expect words node
    typeName node
    nameList node
    expect [";"] node

def classVariables : Nat → Growing Nat := variableDeclaration .classVarDec classVariableWords

def localVariables : Nat → Growing Nat := variableDeclaration .varDec ["var"]

def subroutineBody : Nat → Growing Nat :=
  within .subroutineBody fun node => do
    let _ ← expect ["\x7b"] node
    repeatWhile (Token.isOneOf ["var"]) localVariables node
    let _ ← statements maxNesting node
    expect ["\x7d"] node

def subroutineDeclaration : Nat → Growing Nat :=
  within .subroutineDec fun node => do
    let _ ← expect subroutineWords node
    returnType node
    let _ ← identifier node
    let _ ← expect ["("] node
    let _ ← parameterList node
    let _ ← expect [")"] node
    subroutineBody node

def classDeclarations : Nat → Growing Unit :=
  repeatWhile (Token.isOneOf classVariableWords) classVariables

def classDeclaration : Nat → Growing Nat :=
  within .classDec fun node => do
    let _ ← expect ["class"] node
    let _ ← identifier node
    let _ ← expect ["\x7b"] node
    classDeclarations node
    repeatWhile (Token.isOneOf subroutineWords) subroutineDeclaration node
    expect ["\x7d"] node

def phrase (entry : EntryPoint) (parent : Nat) : Growing Unit :=
  match entry with
  | .classDeclaration => discard (classDeclaration parent)
  | .classVariables => classDeclarations parent
  | .subroutineDeclaration => discard (subroutineDeclaration parent)
  | .parameters => discard (parameterList parent)
  | .subroutineBody => discard (subroutineBody parent)
  | .statements => discard (statements maxNesting parent)
  | .statement =>
    discard (statementOf (expression maxNesting) (statements maxNesting) parent)
  | .expression => discard (expression maxNesting parent)
  | .term => discard (term maxNesting parent)
  | .arguments => discard (expressionList (expression maxNesting) parent)

end Growing

def Forest.start : Forest := Forest.empty.add none .start none

/-- Reads a whole stream as one phrase below a start node, up to the end of file. -/
def grow (entry : EntryPoint) : List Item → Except CompileError Forest
  | [] => .error (.syntactic 1 .endOfFile)
  | .error e :: _ => .error e
  | .ok token :: rest => do
    let (_, after) ← Growing.phrase entry 0 ⟨⟨token, rest⟩, .start, 0⟩
    if after.cursor.token.kind = .eof then
      return after.forest
    else
      throw (.syntactic after.cursor.token.line (.trailing after.cursor.token.value))

end JackCompiler
