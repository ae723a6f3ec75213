namespace JackCompiler

inductive NodeKind
  | start
  | classDec
  | classVarDec
  | subroutineDec
  | parameterList
  | subroutineBody
  | varDec
  | statements
  | letStatement
  | assignment
  | arrayAssignment
  | ifStatement
  | whileStatement
  | doStatement
  | returnStatement
  | expression
  | term
  | binaryOp
  | unaryOp
  | subroutineCall
  | expressionList
  | arrayAccess
  | keyword
  | symbol
  | identifier
  | integerConstant
  | stringConstant
  deriving DecidableEq

def NodeKind.name : NodeKind → String
  | .start => "start"
  | .classDec => "class"
  | .classVarDec => "classVarDec"
  | .subroutineDec => "subroutineDec"
  | .parameterList => "parameterList"
  | .subroutineBody => "subroutineBody"
  | .varDec => "varDec"
  | .statements => "statements"
  | .letStatement => "letStatement"
  | .assignment => "assignment"
  | .arrayAssignment => "arrayAssignment"
  | .ifStatement => "ifStatement"
  | .whileStatement => "whileStatement"
  | .doStatement => "doStatement"
  | .returnStatement => "returnStatement"
  | .expression => "expression"
  | .term => "term"
  | .binaryOp => "binaryOp"
  | .unaryOp => "unaryOp"
  | .subroutineCall => "subroutineCall"
  | .expressionList => "expressionList"
  | .arrayAccess => "arrayAccess"
  | .keyword => "keyword"
  | .symbol => "symbol"
  | .identifier => "identifier"
  | .integerConstant => "integerConstant"
  | .stringConstant => "stringConstant"

end JackCompiler
