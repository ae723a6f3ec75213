import JackCompiler.NodeKind
import JackCompiler.Text.Printable

namespace JackCompiler

def maxIntegerConstant : Nat := 32767

inductive LexicalFault
  | unterminatedComment
  | malformedString (text : String)
  | notAnInteger (word : String)
  | integerOutOfRange (word : String)
  | invalidIdentifier (word : String)
  deriving DecidableEq

def LexicalFault.message : LexicalFault → String
  | .unterminatedComment => "unterminated block comment"
  | .malformedString text => "malformed string: " ++ text
  | .notAnInteger word => "not an integer: '" ++ word ++ "'"
  | .integerOutOfRange word =>
    "integer constant out of range 0..=" ++ toString maxIntegerConstant ++ ": " ++ word
  | .invalidIdentifier word => "invalid identifier: '" ++ word ++ "'"

inductive NestedPhrase
  | statements
  | expression
  deriving DecidableEq

def NestedPhrase.name : NestedPhrase → String
  | .statements => "statements"
  | .expression => "expression"

inductive SyntaxFault
  | endOfFile
  | endOfFileBeforeTerm
  | endOfFileBefore (expected : List String)
  | unexpected (expected : List String) (found : String)
  | noIdentifier (found : String)
  | noTerm (found : String)
  | trailing (found : String)
  | nestedTooDeeply (phrase : NestedPhrase)
  deriving DecidableEq

def quotedList (texts : List String) : String :=
  "[" ++ String.intercalate ", " (texts.map fun text => "\"" ++ text ++ "\"") ++ "]"

def SyntaxFault.message : SyntaxFault → String
  | .endOfFile => "unexpected end of file"
  | .endOfFileBeforeTerm => "unexpected end of file, expected term"
  | .endOfFileBefore expected => "unexpected end of file, expected " ++ quotedList expected
  | .unexpected expected found =>
    "expected " ++ quotedList expected ++ ", found '" ++ found ++ "'"
  | .noIdentifier found => "expected identifier, found '" ++ found ++ "'"
  | .noTerm found => "expected term, found '" ++ found ++ "'"
  | .trailing found => "expected EOF, found '" ++ found ++ "'"
  | .nestedTooDeeply phrase => phrase.name ++ " nested too deeply"

inductive LoweringFault
  | nestedClass
  | nestedSubroutine
  | outsideClass
  | outsideSubroutine
  | missingFragment (index : Nat)
  | missingChild (kind : NodeKind) (index : Nat)
  | missingValue (kind : NodeKind)
  | unknownSubroutineKind (text : String)
  | unknownClassVariableKind (text : String)
  | parameterWithoutName
  | ifWithoutBody
  | unknownBinaryOperator (text : String)
  | unknownUnaryOperator (text : String)
  | keywordNotTerm (text : String)
  | badInteger (text : String)
  | integerOutOfRange (value : Int)
  | stringWithoutToken
  | unsupportedCharacter (c : Char)
  | inconsistentArguments (expressions separators : Nat)
  | valueFromVoid (subroutine : String)
  | noValueReturned (subroutine returnType : String)
  deriving DecidableEq

def LoweringFault.message : LoweringFault → String
  | .nestedClass => "nested class declaration"
  | .nestedSubroutine => "nested subroutine declaration"
  | .outsideClass => "code generated outside of a class"
  | .outsideSubroutine => "code generated outside of a subroutine"
  | .missingFragment index => "missing child fragment " ++ toString index
  | .missingChild kind index => kind.name ++ " node has no child " ++ toString index
  | .missingValue kind => kind.name ++ " node carries no value"
  | .unknownSubroutineKind text => "unknown subroutine kind '" ++ text ++ "'"
  | .unknownClassVariableKind text => "unknown class variable kind '" ++ text ++ "'"
  | .parameterWithoutName => "parameter without a name"
  | .ifWithoutBody => "if statement without a body"
  | .unknownBinaryOperator text => "unknown binary operator '" ++ text ++ "'"
  | .unknownUnaryOperator text => "unknown unary operator '" ++ text ++ "'"
  | .keywordNotTerm text => "keyword '" ++ text ++ "' is not a term"
  | .badInteger text => "bad integer constant " ++ text
  | .integerOutOfRange value => "integer constant " ++ toString value ++ " out of range"
  | .stringWithoutToken => "string constant without token"
  | .unsupportedCharacter c => "unsupported character " ++ quotedChar c
  | .inconsistentArguments expressions separators =>
    "inconsistent call arguments: " ++ toString expressions ++ " expressions, " ++
      toString separators ++ " separators"
  | .valueFromVoid subroutine => "void subroutine " ++ subroutine ++ " returns a value"
  | .noValueReturned subroutine returnType =>
    "subroutine " ++ subroutine ++ " must return a " ++ returnType

inductive CompileError
  | lexical (line : Nat) (fault : LexicalFault)
  | syntactic (line : Nat) (fault : SyntaxFault)
  | duplicateSymbol (name : String)
  | undeclaredSymbol (line : Nat) (name : String)
  | invariant (fault : LoweringFault)
  deriving DecidableEq

namespace CompileError

def line? : CompileError → Option Nat
  | .lexical line _ | .syntactic line _ | .undeclaredSymbol line _ => some line
  | .duplicateSymbol _ | .invariant _ => none

def message : CompileError → String
  | .lexical line fault => "tokenization error at line " ++ toString line ++ ": " ++ fault.message
  | .syntactic line fault => "syntax error at line " ++ toString line ++ ": " ++ fault.message
  | .duplicateSymbol name =>
    "symbol error: '" ++ name ++ "' is already declared in this scope"
  | .undeclaredSymbol line name =>
    "symbol error at line " ++ toString line ++ ": '" ++ name ++ "' is not declared"
  | .invariant fault => "code generation error: " ++ fault.message

end CompileError

end JackCompiler
