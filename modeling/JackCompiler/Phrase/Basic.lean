import JackCompiler.Token

namespace JackCompiler

mutual

inductive Expression
  | term (term : Term)
  | binary (left : Expression) (operator : Word binaryOperators) (right : Term)

inductive Term
  | literal (value : Literal)
  | name (name : Name)
  | element (array : Name) (opening : Word ["["]) (index : Expression) (closing : Word ["]"])
  | call (call : Call)
  | group (opening : SymbolWord ["("]) (inner : Expression) (closing : Word [")"])
  | unary (operator : SymbolWord unaryOperators) (operand : Term)

inductive Call
  | bare (name : Name) (opening : Word ["("]) (arguments : Arguments) (closing : Word [")"])
  | qualified (qualifier : Name) (dot : Word ["."]) (name : MemberName)
      (opening : Word ["("]) (arguments : Arguments) (closing : Word [")"])

inductive Arguments
  | empty
  | listed (first : Expression) (more : List (Comma × Expression))

end

mutual

inductive Statement
  | assign (keyword : Word ["let"]) (target : Name) (equals : Word ["="]) (value : Expression)
      (semicolon : Word [";"])
  | assignElement (keyword : Word ["let"]) (array : Name) (opening : Word ["["])
      (index : Expression) (closing : Word ["]"]) (equals : Word ["="]) (value : Expression)
      (semicolon : Word [";"])
  | ifThen (keyword : Word ["if"]) (opening : Word ["("]) (condition : Expression)
      (closing : Word [")"]) (body : Block)
  | ifElse (keyword : Word ["if"]) (opening : Word ["("]) (condition : Expression)
      (closing : Word [")"]) (body : Block) (otherwise : Word ["else"]) (alternative : Block)
  | loop (keyword : Word ["while"]) (opening : Word ["("]) (condition : Expression)
      (closing : Word [")"]) (body : Block)
  | perform (keyword : Word ["do"]) (call : Call) (semicolon : Word [";"])
  | returnNothing (keyword : Word ["return"]) (semicolon : Word [";"])
  | returnValue (keyword : Word ["return"]) (value : Expression) (semicolon : Word [";"])

inductive Block
  | braced (opening : Word ["\x7b"]) (statements : List Statement) (closing : Word ["\x7d"])

end

inductive TypeName
  | builtIn (word : Word typeWords)
  | named (name : Name)

inductive ReturnType
  | void (word : Word ["void"])
  | value (type : TypeName)

structure NameList where
  first : Name
  more : List (Comma × Name)

structure Parameter where
  type : TypeName
  name : Name

inductive Parameters
  | empty
  | listed (first : Parameter) (more : List (Comma × Parameter))

structure ClassVariables where
  scope : Word classVariableWords
  type : TypeName
  names : NameList
  semicolon : Word [";"]

structure LocalVariables where
  keyword : Word ["var"]
  type : TypeName
  names : NameList
  semicolon : Word [";"]

structure SubroutineBody where
  opening : Word ["\x7b"]
  locals : List LocalVariables
  statements : List Statement
  closing : Word ["\x7d"]

structure SubroutineDeclaration where
  keyword : Word subroutineWords
  returnType : ReturnType
  name : Name
  opening : Word ["("]
  parameters : Parameters
  closing : Word [")"]
  body : SubroutineBody

structure ClassDeclaration where
  keyword : Word ["class"]
  name : Name
  opening : Word ["\x7b"]
  declarations : List ClassVariables
  subroutines : List SubroutineDeclaration
  closing : Word ["\x7d"]

/-- What a whole input is read as. -/
inductive EntryPoint
  | classDeclaration
  | classVariables
  | subroutineDeclaration
  | parameters
  | subroutineBody
  | statements
  | statement
  | expression
  | term
  | arguments
  deriving DecidableEq

inductive Phrase
  | classDeclaration (declaration : ClassDeclaration)
  | classVariables (declarations : List ClassVariables)
  | subroutineDeclaration (declaration : SubroutineDeclaration)
  | parameters (list : Parameters)
  | subroutineBody (body : SubroutineBody)
  | statements (list : List Statement)
  | statement (statement : Statement)
  | expression (expression : Expression)
  | term (term : Term)
  | arguments (list : Arguments)

end JackCompiler
