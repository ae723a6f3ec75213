import JackCompiler.Lexer
import JackCompiler.Lowering.Declared

namespace JackCompiler.Lowering

def binaryOperator (text : String) : Lower Instruction :=
  match text with
  | "+" => .ok (.arithmetic .add)
  | "-" => .ok (.arithmetic .sub)
  | "*" => .ok (.call "Math.multiply" 2)
  | "/" => .ok (.call "Math.divide" 2)
  | "&" => .ok (.arithmetic .and)
  | "|" => .ok (.arithmetic .or)
  | "<" => .ok (.arithmetic .lt)
  | ">" => .ok (.arithmetic .gt)
  | "=" => .ok (.arithmetic .eq)
  | _ => fail (.unknownBinaryOperator text)

def unaryOperator (text : String) : Lower Instruction :=
  match text with
  | "-" => .ok (.arithmetic .neg)
  | "~" => .ok (.arithmetic .not)
  | _ => fail (.unknownUnaryOperator text)

def lowerBinary (tree : Tree) (fragments : List Code) : Lower Code := do
  let operator ← binaryOperator (← valueOf tree)
  let left ← fragment fragments 0
  let right ← fragment fragments 1
  return left ++ right ++ [operator]

def lowerUnary (tree : Tree) (fragments : List Code) : Lower Code := do
  let operator ← unaryOperator (← valueOf tree)
  let operand ← fragment fragments 0
  return operand ++ [operator]

def naturalValue? (digits : List Char) : Option Int :=
  if !digits.isEmpty && digits.all isDigit then some (decimalValue digits) else none

def integerValue? (text : List Char) : Option Int :=
  let value? :=
    match text with
    | '-' :: digits => (naturalValue? digits).map (- ·)
    | '+' :: digits => naturalValue? digits
    | digits => naturalValue? digits
  value?.filter fun value => -2147483648 ≤ value && value ≤ 2147483647

def integerCode (text : String) : Lower Code :=
  match integerValue? text.toList with
  | none => fail (.badInteger text)
  | some value =>
    if value.natAbs < 65536 then
      .ok (.push .constant (UInt16.ofNat value.natAbs) ::
        if value < 0 then [.arithmetic .neg] else [])
    else
      fail (.integerOutOfRange value)

def characterCode (c : Char) : Code :=
  [.push .constant (UInt16.ofNat c.toNat), .call "String.appendChar" 2]

/-- Builds a string one character at a time; a character must fit into sixteen bits. -/
def stringCode (text : List Char) : Lower Code :=
  match text.find? fun c => 65536 ≤ c.toNat with
  | some c => fail (.unsupportedCharacter c)
  | none =>
    .ok (.push .constant (UInt16.ofNat text.length) :: .call "String.new" 1 ::
      text.flatMap characterCode)

def keywordCode (text : String) : Lower Code :=
  match text with
  | "true" => .ok [.push .constant 1, .arithmetic .neg]
  | "false" => .ok [.push .constant 0]
  | "null" => .ok [.push .constant 0]
  | "this" => .ok [.push .pointer 0]
  | _ => fail (.keywordNotTerm text)

def lowerTerm (scope : Scope) (tree : Tree) (fragments : List Code) : Lower Code := do
  let first ← child tree 0
  match first.kind with
  | .integerConstant => integerCode (← valueOf first)
  | .stringConstant =>
    match first.token? with
    | some token => stringCode token.unquoted.toList
    | none => fail .stringWithoutToken
  | .keyword => keywordCode (← valueOf first)
  | .identifier => return [(← variableOf scope first).push]
  | .symbol => fragment fragments 1
  | _ => return fragments.flatten

def lowerArrayAccess (scope : Scope) (tree : Tree) (fragments : List Code) : Lower Code := do
  let array ← variableOf scope (← child tree 0)
  let index ← fragment fragments 2
  return array.push :: index ++ [.arithmetic .add, .pop .pointer 1, .push .that 0]

def argumentCount (list : Tree) : Lower UInt16 :=
  let expressions := list.children.countP (·.kind == .expression)
  let commas := list.children.countP fun part =>
    part.kind == .symbol && part.value? == some ","
  let separated := if expressions = 0 then commas = 0 else commas + 1 = expressions
  if separated ∧ expressions = list.children.length - commas then
    .ok (UInt16.ofNat expressions)
  else
    fail (.inconsistentArguments expressions commas)

def isQualified (tree : Tree) : Lower Bool := do
  let second ← child tree 1
  if second.kind = .symbol then
    return (← valueOf second) == "."
  else
    return false

def bareCall (scope : Scope) (name : String) (count : UInt16) (arguments : Code) :
    Lower Code := do
  let className ← classNameOf scope
  return .push .pointer 0 :: arguments ++ [.call (className ++ "." ++ name) (count + 1)]

def qualifiedCall (declared : List Declaration) (scope : Scope) (qualifier name : String)
    (count : UInt16) (arguments : Code) : Lower Code :=
  match resolve scope qualifier with
  | some receiver =>
    .ok (receiver.push :: arguments ++ [.call (receiver.typeName ++ "." ++ name) (count + 1)])
  | none => do
    if (← declaredKind name declared none) = some .method then
      return .push .pointer 0 :: arguments ++ [.call (qualifier ++ "." ++ name) (count + 1)]
    else
      return arguments ++ [.call (qualifier ++ "." ++ name) count]

def lowerCall (declared : List Declaration) (scope : Scope) (tree : Tree)
    (fragments : List Code) : Lower Code := do
  if ← isQualified tree then
    let name ← childValue tree 2
    let count ← argumentCount (← child tree 4)
    let arguments ← fragment fragments 4
    let qualifier ← childValue tree 0
    qualifiedCall declared scope qualifier name count arguments
  else
    let name ← childValue tree 0
    let count ← argumentCount (← child tree 2)
    let arguments ← fragment fragments 2
    bareCall scope name count arguments

end JackCompiler.Lowering
