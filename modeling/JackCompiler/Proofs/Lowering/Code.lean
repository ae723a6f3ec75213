import JackCompiler.Lowering.Expression
import JackCompiler.Lowering.Statement
import JackCompiler.Proofs.Phrase.Numbering

namespace JackCompiler

/-- What a phrase asks of the declarations around it. -/
inductive Occurrence
  | variable (name : Token)
  | text (literal : Token)
  | call (arguments : Nat)
  | leave (hasValue : Bool)

def literalOccurrences (token : Token) : List Occurrence :=
  if token.kind = .stringConstant then [.text token] else []

def Arguments.count : Arguments → Nat
  | .empty => 0
  | .listed _ more => more.length + 1

mutual

def Expression.occurrences : Expression → List Occurrence
  | .term term => term.occurrences
  | .binary left _ right => left.occurrences ++ right.occurrences

def Term.occurrences : Term → List Occurrence
  | .literal value => literalOccurrences value.val
  | .name name => [.variable name.val]
  | .element array _ index _ => index.occurrences ++ [.variable array.val]
  | .call call => call.occurrences
  | .group _ inner _ => inner.occurrences
  | .unary _ operand => operand.occurrences

def Call.occurrences : Call → List Occurrence
  | .bare _ _ arguments _ => arguments.occurrences ++ [.call arguments.count]
  | .qualified _ _ _ _ arguments _ => arguments.occurrences ++ [.call arguments.count]

def Arguments.occurrences : Arguments → List Occurrence
  | .empty => []
  | .listed first more => first.occurrences ++ moreArgumentOccurrences more

def moreArgumentOccurrences : List (Comma × Expression) → List Occurrence
  | [] => []
  | (_, argument) :: more => argument.occurrences ++ moreArgumentOccurrences more

end

mutual

def Statement.occurrences : Statement → List Occurrence
  | .assign _ target _ value _ => value.occurrences ++ [.variable target.val]
  | .assignElement _ array _ index _ _ value _ =>
    index.occurrences ++ value.occurrences ++ [.variable array.val]
  | .ifThen _ _ condition _ body => condition.occurrences ++ body.occurrences
  | .ifElse _ _ condition _ body _ alternative =>
    condition.occurrences ++ body.occurrences ++ alternative.occurrences
  | .loop _ _ condition _ body => condition.occurrences ++ body.occurrences
  | .perform _ call _ => call.occurrences
  | .returnNothing _ _ => [.leave false]
  | .returnValue _ value _ => value.occurrences ++ [.leave true]

def Block.occurrences : Block → List Occurrence
  | .braced _ statements _ => statementOccurrences statements

def statementOccurrences : List Statement → List Occurrence
  | [] => []
  | statement :: statements => statement.occurrences ++ statementOccurrences statements

end

open Lowering

/-- What surrounds the body of a subroutine. -/
structure Context where
  comments : Bool
  className : String
  subroutine : Subroutine
  classVariables : SymbolTable
  subroutineVariables : SymbolTable
  kindOf : String → Option SubroutineKind

namespace Context

variable (context : Context)

def scope : Scope :=
  ⟨some context.className, some context.subroutine, context.classVariables,
    context.subroutineVariables⟩

def resolve (name : String) : Option Variable := Lowering.resolve context.scope name

def isVoid : Bool := context.subroutine.returnType == "void"

def load (name : Token) : Code :=
  match context.resolve name.value with
  | some found => [found.push]
  | none => []

def store (name : Token) : Code :=
  match context.resolve name.value with
  | some found => [found.pop]
  | none => []

def label (tag : String) (number : Nat) : String :=
  context.className ++ "." ++ tag ++ "$" ++ toString number

def fault? : Occurrence → Option CompileError
  | .variable name =>
    match context.resolve name.value with
    | some _ => none
    | none => some (.undeclaredSymbol name.line name.value)
  | .text literal =>
    (literal.unquoted.toList.find? fun c => 65536 ≤ c.toNat).map fun c =>
      .invariant (.unsupportedCharacter c)
  | .call _ => none
  | .leave hasValue =>
    match context.isVoid, hasValue with
    | true, false => none
    | false, true => none
    | true, true => some (.invariant (.valueFromVoid context.subroutine.name))
    | false, false =>
      some (.invariant
        (.noValueReturned context.subroutine.name context.subroutine.returnType))

def faults (occurrences : List Occurrence) : List CompileError :=
  occurrences.filterMap context.fault?

end Context

def binaryInstruction (operator : String) : Instruction :=
  match operator with
  | "+" => .arithmetic .add
  | "-" => .arithmetic .sub
  | "*" => .call "Math.multiply" 2
  | "/" => .call "Math.divide" 2
  | "&" => .arithmetic .and
  | "|" => .arithmetic .or
  | "<" => .arithmetic .lt
  | ">" => .arithmetic .gt
  | _ => .arithmetic .eq

def unaryInstruction (operator : String) : Instruction :=
  match operator with
  | "-" => .arithmetic .neg
  | _ => .arithmetic .not

def constantCode (word : String) : Code :=
  match word with
  | "true" => [.push .constant 1, .arithmetic .neg]
  | "this" => [.push .pointer 0]
  | _ => [.push .constant 0]

def textCode (text : List Char) : Code :=
  .push .constant (UInt16.ofNat text.length) :: .call "String.new" 1 ::
    text.flatMap characterCode

def literalCode (token : Token) : Code :=
  match token.kind with
  | .integerConstant => [.push .constant (UInt16.ofNat (decimalValue token.value.toList))]
  | .stringConstant => textCode token.unquoted.toList
  | _ => constantCode token.value

section

variable (context : Context)

mutual

def Expression.code : Expression → Code
  | .term term => term.code
  | .binary left operator right =>
    left.code ++ right.code ++ [binaryInstruction operator.val.value]

def Term.code : Term → Code
  | .literal value => literalCode value.val
  | .name name => context.load name.val
  | .element array _ index _ =>
    context.load array.val ++ index.code ++ [.arithmetic .add, .pop .pointer 1, .push .that 0]
  | .call call => call.code
  | .group _ inner _ => inner.code
  | .unary operator operand => operand.code ++ [unaryInstruction operator.val.value]

def Call.code : Call → Code
  | .bare name _ arguments _ =>
    .push .pointer 0 :: arguments.code ++
      [.call (context.className ++ "." ++ name.val.value) (UInt16.ofNat arguments.count + 1)]
  | .qualified qualifier _ name _ arguments _ =>
    match context.resolve qualifier.val.value with
    | some receiver =>
      receiver.push :: arguments.code ++
        [.call (receiver.typeName ++ "." ++ name.val.value) (UInt16.ofNat arguments.count + 1)]
    | none =>
      if context.kindOf name.val.value = some .method then
        .push .pointer 0 :: arguments.code ++
          [.call (qualifier.val.value ++ "." ++ name.val.value) (UInt16.ofNat arguments.count + 1)]
      else
        arguments.code ++
          [.call (qualifier.val.value ++ "." ++ name.val.value) (UInt16.ofNat arguments.count)]

def Arguments.code : Arguments → Code
  | .empty => []
  | .listed first more => first.code ++ moreArgumentCode more

def moreArgumentCode : List (Comma × Expression) → Code
  | [] => []
  | (_, argument) :: more => argument.code ++ moreArgumentCode more

end

mutual

/-- The code of a statement whose node has the given number, which the labels show. -/
def Statement.code (number : Nat) : Statement → Code
  | .assign _ target _ value _ =>
    marker context.comments "let" ++ (value.code context ++ context.store target.val)
  | .assignElement _ array _ index _ _ value _ =>
    marker context.comments "let" ++
      (context.load array.val ++ index.code context ++ [.arithmetic .add] ++ value.code context ++
        [.pop .temp 0, .pop .pointer 1, .push .temp 0, .pop .that 0])
  | .ifThen _ _ condition _ body =>
    marker context.comments "if" ++ condition.code context ++
      [.arithmetic .not, .ifGoto (context.label "IF_FALSE" number)] ++
      body.code (number + 4 + condition.nodes) ++
      [.goto (context.label "IF_END" number), .label (context.label "IF_FALSE" number)] ++
      [.label (context.label "IF_END" number)]
  | .ifElse _ _ condition _ body _ alternative =>
    marker context.comments "if" ++ condition.code context ++
      [.arithmetic .not, .ifGoto (context.label "IF_FALSE" number)] ++
      body.code (number + 4 + condition.nodes) ++
      [.goto (context.label "IF_END" number), .label (context.label "IF_FALSE" number)] ++
      (alternative.code (number + 5 + condition.nodes + body.nodes) ++
        [.goto (context.label "IF_END" number)]) ++
      [.label (context.label "IF_END" number)]
  | .loop _ _ condition _ body =>
    marker context.comments "while" ++ [.label (context.label "WHILE_START" number)] ++
      condition.code context ++
      [.arithmetic .not, .ifGoto (context.label "WHILE_END" number)] ++
      body.code (number + 4 + condition.nodes) ++
      [.goto (context.label "WHILE_START" number), .label (context.label "WHILE_END" number)]
  | .perform _ call _ => marker context.comments "do" ++ call.code context ++ [.pop .temp 0]
  | .returnNothing _ _ => marker context.comments "return" ++ [.push .constant 0] ++ [.ret]
  | .returnValue _ value _ => marker context.comments "return" ++ value.code context ++ [.ret]

def Block.code (number : Nat) : Block → Code
  | .braced _ statements _ => statementCode (number + 2) statements

def statementCode (number : Nat) : List Statement → Code
  | [] => []
  | statement :: statements =>
    statement.code number ++ statementCode (number + statement.nodes) statements

end

end

end JackCompiler
