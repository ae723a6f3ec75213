namespace JackCompiler

inductive TokenKind
  | keyword
  | symbol
  | identifier
  | integerConstant
  | stringConstant
  | eof
  deriving DecidableEq

def TokenKind.name : TokenKind → String
  | .keyword => "keyword"
  | .symbol => "symbol"
  | .identifier => "identifier"
  | .integerConstant => "integerConstant"
  | .stringConstant => "stringConstant"
  | .eof => "EOF"

def keywords : List String :=
  ["class", "constructor", "function", "method", "field", "static", "var", "int", "char",
    "boolean", "void", "true", "false", "null", "this", "let", "do", "if", "else", "while",
    "return"]

def symbols : List Char :=
  ['\x7b', '\x7d', '(', ')', '[', ']', '.', ',', ';', '+', '-', '*', '/', '&', '|', '<', '>',
    '=', '~']

def typeWords : List String := ["int", "char", "boolean"]

def classVariableWords : List String := ["static", "field"]

def subroutineWords : List String := ["constructor", "function", "method"]

def statementWords : List String := ["let", "do", "if", "while", "return"]

def constantWords : List String := ["true", "false", "null", "this"]

def unaryOperators : List String := ["-", "~"]

def binaryOperators : List String := ["+", "-", "*", "/", "&", "|", "<", ">", "="]

structure Token where
  line : Nat
  kind : TokenKind
  value : String
  deriving DecidableEq

namespace Token

def endOfFile (line : Nat) : Token := ⟨line, .eof, "EOF"⟩

def is (token : Token) (kind : TokenKind) (value : String) : Bool :=
  token.kind == kind && token.value == value

def isOneOf (values : List String) (token : Token) : Bool :=
  (token.kind == .keyword || token.kind == .symbol) && values.contains token.value

def isSymbolOf (values : List String) (token : Token) : Bool :=
  token.kind == .symbol && values.contains token.value

def isName (token : Token) : Bool := token.kind == .identifier

/-- After a dot a reserved word may stand for a name, since it names a member elsewhere. -/
def isMemberName (token : Token) : Bool := token.kind == .identifier || token.kind == .keyword

def isLiteral (token : Token) : Bool :=
  match token.kind with
  | .integerConstant | .stringConstant => true
  | .keyword => constantWords.contains token.value
  | .symbol | .identifier | .eof => false

def startsTerm (token : Token) : Bool :=
  token.isLiteral || token.isName || token.isSymbolOf ("(" :: unaryOperators)

def startsType (token : Token) : Bool := token.isOneOf typeWords || token.isName

/-- The contents of a string constant, without the quote at either end. Any other token gives
its text, and so does a string constant too short to hold two quotes. -/
def unquoted (token : Token) : String :=
  if token.kind = .stringConstant ∧ 2 ≤ token.value.utf8ByteSize then
    String.ofList (token.value.toList.drop 1).dropLast
  else
    token.value

end Token

abbrev TokenWith (test : Token → Bool) := { token : Token // test token = true }

abbrev Word (values : List String) := TokenWith (Token.isOneOf values)

abbrev SymbolWord (values : List String) := TokenWith (Token.isSymbolOf values)

abbrev Name := TokenWith Token.isName

abbrev MemberName := TokenWith Token.isMemberName

abbrev Literal := TokenWith Token.isLiteral

abbrev Comma := Word [","]

end JackCompiler
