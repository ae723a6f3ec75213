import JackCompiler.Lexer
import JackCompiler.Phrase.Basic

/-!
# Reading phrases

Recursive descent with one token of lookahead: which phrase comes next is decided by the current
token alone, and a token is taken before the one after it is drawn from the stream. Terms and
blocks may nest only so deep; every reader that can nest is given the room that is left.
-/

namespace JackCompiler

/-- The deepest nesting of terms and blocks that is read. -/
def maxNesting : Nat := 256

structure Cursor where
  token : Token
  rest : List Item

abbrev Parse := StateT Cursor (Except CompileError)

namespace Parse

/-! ## Single tokens -/

def current : Parse Token := fun cursor => .ok (cursor.token, cursor)

def fail {α : Type} (fault : SyntaxFault) : Parse α := fun cursor =>
  .error (.syntactic cursor.token.line fault)

def advance : Parse Unit := fun cursor =>
  match cursor.rest with
  | [] => .error (.syntactic cursor.token.line .endOfFile)
  | .error e :: _ => .error e
  | .ok token :: rest => .ok ((), ⟨token, rest⟩)

def accept (test : Token → Bool) : Parse (Option (TokenWith test)) := do
  let token ← current
  if passes : test token = true then
    advance
    return some ⟨token, passes⟩
  else
    return none

def expect (values : List String) : Parse (Word values) := do
  match ← accept (Token.isOneOf values) with
  | some word => return word
  | none =>
    let token ← current
    fail (if token.kind = .eof then .endOfFileBefore values else .unexpected values token.value)

def name : Parse Name := do
  match ← accept Token.isName with
  | some name => return name
  | none => fail (.noIdentifier (← current).value)

def memberName : Parse MemberName := do
  match ← accept Token.isMemberName with
  | some name => return name
  | none => fail (.noIdentifier (← current).value)

/-! ## Repetition -/

def rounds {α : Type} (test : Token → Bool) (phrase : Parse α) :
    List Item → List α → Parse (List α)
  | [], done => do
    if test (← current) then
      return ((← phrase) :: done).reverse
    else
      return done.reverse
  | _ :: bound, done => do
    if test (← current) then
      let first ← phrase
      rounds test phrase bound (first :: done)
    else
      return done.reverse

def repeatWhile {α : Type} (test : Token → Bool) (phrase : Parse α) : Parse (List α) := do
  rounds test phrase (← get).rest []

def afterCommas {α : Type} (phrase : Parse α) : Parse (List (Comma × α)) :=
  repeatWhile (Token.isOneOf [","]) do
    let comma ← expect [","]
    return (comma, ← phrase)

/-! ## Expressions -/

def argumentsOf (expression : Parse Expression) : Parse Arguments := do
  if (← current).startsTerm then
    let first ← expression
    return .listed first (← afterCommas expression)
  else
    return .empty

def callAfter (expression : Parse Expression) (name : Name) : Parse Call := do
  match ← accept (Token.isOneOf ["."]) with
  | some dot =>
    let member ← memberName
    let opening ← expect ["("]
    let arguments ← argumentsOf expression
    return .qualified name dot member opening arguments (← expect [")"])
  | none =>
    let opening ← expect ["("]
    let arguments ← argumentsOf expression
    return .bare name opening arguments (← expect [")"])

def termAfter (expression : Parse Expression) (name : Name) : Parse Term := do
  if (← current).isOneOf [".", "("] then
    return .call (← callAfter expression name)
  else
    match ← accept (Token.isOneOf ["["]) with
    | some opening =>
      let index ← expression
      return .element name opening index (← expect ["]"])
    | none => return .name name

def termOf (expression : Parse Expression) (operand : Parse Term) : Parse Term := do
  match ← accept Token.isLiteral with
  | some value => return .literal value
  | none =>
    match ← accept Token.isName with
    | some name => termAfter expression name
    | none =>
      match ← accept (Token.isSymbolOf ["("]) with
      | some opening =>
        let inner ← expression
        return .group opening inner (← expect [")"])
      | none =>
        match ← accept (Token.isSymbolOf unaryOperators) with
        | some operator => return .unary operator (← operand)
        | none =>
          let token ← current
          fail (if token.kind = .eof then .endOfFileBeforeTerm else .noTerm token.value)

mutual

def term : Nat → Parse Term
  | 0 => fail (.nestedTooDeeply .expression)
  | room + 1 =>
    termOf
      (do
        let left ← term room
        operators room (.term left))
      (term room)

/-- The operators after an operand, each with its right operand. Every operator puts what was read
before it one level down, so it takes room from those that follow. -/
def operators : Nat → Expression → Parse Expression
  | 0, left => do
    if (← current).isOneOf binaryOperators then
      fail (.nestedTooDeeply .expression)
    else
      return left
  | room + 1, left => do
    if (← current).isOneOf binaryOperators then
      let operator ← expect binaryOperators
      let right ← term room
      operators room (.binary left operator right)
    else
      return left

end

def expression (room : Nat) : Parse Expression := do
  let left ← term room
  operators room (.term left)

theorem term_succ (room : Nat) : term (room + 1) = termOf (expression room) (term room) := rfl

/-! ## Statements -/

def blockOf (statements : Parse (List Statement)) : Parse Block := do
  let opening ← expect ["\x7b"]
  let statements ← statements
  return .braced opening statements (← expect ["\x7d"])

def letStatement (expression : Parse Expression) : Parse Statement := do
  let keyword ← expect ["let"]
  let target ← name
  match ← accept (Token.isOneOf ["["]) with
  | some opening =>
    let index ← expression
    let closing ← expect ["]"]
    let equals ← expect ["="]
    let value ← expression
    return .assignElement keyword target opening index closing equals value (← expect [";"])
  | none =>
    let equals ← expect ["="]
    let value ← expression
    return .assign keyword target equals value (← expect [";"])

def ifStatement (expression : Parse Expression) (block : Parse Block) : Parse Statement := do
  let keyword ← expect ["if"]
  let opening ← expect ["("]
  let condition ← expression
  let closing ← expect [")"]
  let body ← block
  match ← accept (Token.isOneOf ["else"]) with
  | some otherwise => return .ifElse keyword opening condition closing body otherwise (← block)
  | none => return .ifThen keyword opening condition closing body

def whileStatement (expression : Parse Expression) (block : Parse Block) : Parse Statement := do
  let keyword ← expect ["while"]
  let opening ← expect ["("]
  let condition ← expression
  let closing ← expect [")"]
  return .loop keyword opening condition closing (← block)

def doStatement (expression : Parse Expression) : Parse Statement := do
  let keyword ← expect ["do"]
  let callee ← name
  let call ← callAfter expression callee
  return .perform keyword call (← expect [";"])

def returnStatement (expression : Parse Expression) : Parse Statement := do
  let keyword ← expect ["return"]
  match ← accept (Token.isOneOf [";"]) with
  | some semicolon => return .returnNothing keyword semicolon
  | none =>
    let value ← expression
    return .returnValue keyword value (← expect [";"])

def statementOf (expression : Parse Expression) (block : Parse Block) : Parse Statement := do
  match (← current).value with
  | "let" => letStatement expression
  | "do" => doStatement expression
  | "if" => ifStatement expression block
  | "while" => whileStatement expression block
  | _ => returnStatement expression

def statements : Nat → Parse (List Statement)
  | 0 => fail (.nestedTooDeeply .statements)
  | room + 1 =>
    repeatWhile (Token.isOneOf statementWords)
      (statementOf (expression room) (blockOf (statements room)))

def statement (room : Nat) : Parse Statement :=
  statementOf (expression room) (blockOf (statements room))

/-! ## Declarations -/

def typeName : Parse TypeName := do
  match ← accept (Token.isOneOf typeWords) with
  | some word => return .builtIn word
  | none => return .named (← name)

def returnType : Parse ReturnType := do
  match ← accept (Token.isOneOf ["void"]) with
  | some word => return .void word
  | none => return .value (← typeName)

def nameList : Parse NameList := do
  let first ← name
  return ⟨first, ← afterCommas name⟩

def parameter : Parse Parameter := do
  let type ← typeName
  return ⟨type, ← name⟩

def parameters : Parse Parameters := do
  if (← current).startsType then
    let first ← parameter
    return .listed first (← afterCommas parameter)
  else
    return .empty

def classVariables : Parse ClassVariables := do
  let scope ← expect classVariableWords
  let type ← typeName
  let names ← nameList
  return ⟨scope, type, names, ← expect [";"]⟩

def localVariables : Parse LocalVariables := do
  let keyword ← expect ["var"]
  let type ← typeName
  let names ← nameList
  return ⟨keyword, type, names, ← expect [";"]⟩

def subroutineBody : Parse SubroutineBody := do
  let opening ← expect ["\x7b"]
  let locals ← repeatWhile (Token.isOneOf ["var"]) localVariables
  let statements ← statements maxNesting
  return ⟨opening, locals, statements, ← expect ["\x7d"]⟩

def subroutineDeclaration : Parse SubroutineDeclaration := do
  let keyword ← expect subroutineWords
  let returnType ← returnType
  let name ← name
  let opening ← expect ["("]
  let parameters ← parameters
  let closing ← expect [")"]
  return ⟨keyword, returnType, name, opening, parameters, closing, ← subroutineBody⟩

def classDeclarations : Parse (List ClassVariables) :=
  repeatWhile (Token.isOneOf classVariableWords) classVariables

def classDeclaration : Parse ClassDeclaration := do
  let keyword ← expect ["class"]
  let name ← name
  let opening ← expect ["\x7b"]
  let declarations ← classDeclarations
  let subroutines ← repeatWhile (Token.isOneOf subroutineWords) subroutineDeclaration
  return ⟨keyword, name, opening, declarations, subroutines, ← expect ["\x7d"]⟩

/-! ## Whole inputs -/

def phrase : EntryPoint → Parse Phrase
  | .classDeclaration => .classDeclaration <$> classDeclaration
  | .classVariables => .classVariables <$> classDeclarations
  | .subroutineDeclaration => .subroutineDeclaration <$> subroutineDeclaration
  | .parameters => .parameters <$> parameters
  | .subroutineBody => .subroutineBody <$> subroutineBody
  | .statements => .statements <$> statements maxNesting
  | .statement => .statement <$> statement maxNesting
  | .expression => .expression <$> expression maxNesting
  | .term => .term <$> term maxNesting
  | .arguments => .arguments <$> argumentsOf (expression maxNesting)

end Parse

def parse (entry : EntryPoint) : List Item → Except CompileError Phrase
  | [] => .error (.syntactic 1 .endOfFile)
  | .error e :: _ => .error e
  | .ok token :: rest => do
    let (phrase, cursor) ← Parse.phrase entry ⟨token, rest⟩
    if cursor.token.kind = .eof then
      return phrase
    else
      throw (.syntactic cursor.token.line (.trailing cursor.token.value))

end JackCompiler
