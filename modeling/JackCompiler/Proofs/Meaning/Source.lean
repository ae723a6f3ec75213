import JackCompiler.Lexer
import JackCompiler.Proofs.Lowering.Class
import JackCompiler.Proofs.Meaning.Machine

namespace JackCompiler

open Machine

/-- A variable by its place among those of its kind. -/
structure Binding where
  kind : VariableKind
  index : Nat
  typeName : String

/-- What a name stands for among declared variables, of which those `seen` come first. -/
def bindingIn (name : String) (seen : List Declared) : List Declared → Option Binding
  | [] => none
  | d :: declared =>
    if d.name = name then some ⟨d.kind, seen.countP (·.kind == d.kind), d.typeName⟩
    else bindingIn name (d :: seen) declared

structure Bindings where
  className : String
  lookup : String → Option Binding
  isMethod : String → Bool

def ClassDeclaration.bindings (declaration : ClassDeclaration)
    (subroutine : SubroutineDeclaration) : Bindings where
  className := declaration.className
  lookup name := (bindingIn name [] (subroutine.variableList declaration.className)).or
    (bindingIn name [] declaration.variableList)
  isMethod name := declaration.kindOf name == some .method

/-- Something that may change the memory, and gives a result unless it needs what is not there. -/
abbrev Action (World α : Type) := StateT (Memory World) Option α

variable {World : Type}

def cell (address : Value) : Action World Value :=
  fun memory => (memory.heap address).map (·, memory)

def Machine.Calls.invoke (calls : Calls World) (name : String) (arguments : List Value) :
    Action World Value :=
  calls.answer name arguments

def Binding.value (frame : Frame) (binding : Binding) : Action World Value :=
  match binding.kind with
  | .static => fun memory => memory.statics[binding.index]?.map (·, memory)
  | .field => cell (frame.this + BitVec.ofNat 16 binding.index)
  | .argument => fun memory => frame.arguments[binding.index]?.map (·, memory)
  | .localVariable => fun memory => frame.locals[binding.index]?.map (·, memory)

def variableValue (bindings : Bindings) (frame : Frame) (name : Token) : Action World Value :=
  match bindings.lookup name.value with
  | some binding => binding.value frame
  | none => failure

def binaryValue (calls : Calls World) (operator : String) (x y : Value) : Action World Value :=
  match operator with
  | "+" => pure (x + y)
  | "-" => pure (x - y)
  | "*" => calls.invoke "Math.multiply" [x, y]
  | "/" => calls.invoke "Math.divide" [x, y]
  | "&" => pure (x &&& y)
  | "|" => pure (x ||| y)
  | "<" => pure (truth (x.slt y))
  | ">" => pure (truth (y.slt x))
  | _ => pure (truth (x == y))

def unaryValue (operator : String) (x : Value) : Value :=
  match operator with
  | "-" => -x
  | _ => ~~~x

def constantValue (frame : Frame) (word : String) : Value :=
  match word with
  | "true" => -1
  | "this" => frame.this
  | _ => 0

def textValue (calls : Calls World) (text : List Char) : Action World Value := do
  let empty ← calls.invoke "String.new" [BitVec.ofNat 16 text.length]
  text.foldlM (fun string c => calls.invoke "String.appendChar" [string, BitVec.ofNat 16 c.toNat])
    empty

def literalValue (calls : Calls World) (frame : Frame) (token : Token) : Action World Value :=
  match token.kind with
  | .integerConstant => pure (BitVec.ofNat 16 (decimalValue token.value.toList))
  | .stringConstant => textValue calls token.unquoted.toList
  | _ => pure (constantValue frame token.value)

section

variable (calls : Calls World) (bindings : Bindings) (frame : Frame)

mutual

def Expression.value : Expression → Action World Value
  | .term term => term.value
  | .binary left operator right => do
    let x ← left.value
    let y ← right.value
    binaryValue calls operator.val.value x y

def Term.value : Term → Action World Value
  | .literal value => literalValue calls frame value.val
  | .name name => variableValue bindings frame name.val
  | .element array _ index _ => do
    let base ← variableValue bindings frame array.val
    let offset ← index.value
    cell (base + offset)
  | .call call => call.value
  | .group _ inner _ => inner.value
  | .unary operator operand => do
    let x ← operand.value
    return unaryValue operator.val.value x

/-- A subroutine that is called by its name alone is a method of the current object. The qualifier
of another one is an object, if it is a variable, or a class. -/
def Call.value : Call → Action World Value
  | .bare name _ arguments _ => do
    let values ← arguments.values
    calls.invoke (bindings.className ++ "." ++ name.val.value) (frame.this :: values)
  | .qualified qualifier _ name _ arguments _ =>
    match bindings.lookup qualifier.val.value with
    | some binding => do
      let receiver ← binding.value frame
      let values ← arguments.values
      calls.invoke (binding.typeName ++ "." ++ name.val.value) (receiver :: values)
    | none => do
      let values ← arguments.values
      let receiver := if bindings.isMethod name.val.value then [frame.this] else []
      calls.invoke (qualifier.val.value ++ "." ++ name.val.value) (receiver ++ values)

def Arguments.values : Arguments → Action World (List Value)
  | .empty => pure []
  | .listed first more => do
    let value ← first.value
    let values ← moreArgumentValues more
    return value :: values

def moreArgumentValues : List (Comma × Expression) → Action World (List Value)
  | [] => pure []
  | (_, argument) :: more => do
    let value ← argument.value
    let values ← moreArgumentValues more
    return value :: values

end

end

structure Point (World : Type) where
  frame : Frame
  memory : Memory World

inductive Outcome
  | normal
  | returned (value : Value)

def storeCell (address value : Value) : Action World Unit :=
  fun memory => (memory.store address value).map ((), ·)

def Binding.store (binding : Binding) (value : Value) (point : Point World) :
    Option (Point World) :=
  match binding.kind with
  | .static => (replace point.memory.statics binding.index value).map fun statics =>
    { point with memory := { point.memory with statics } }
  | .field => (point.memory.store (point.frame.this + BitVec.ofNat 16 binding.index) value).map
    fun memory => { point with memory }
  | .argument => (replace point.frame.arguments binding.index value).map fun arguments =>
    { point with frame := { point.frame with arguments } }
  | .localVariable => (replace point.frame.locals binding.index value).map fun locals =>
    { point with frame := { point.frame with locals } }

section

variable (calls : Calls World) (bindings : Bindings)

def assignElement (frame : Frame) (array : Token) (index value : Expression) :
    Action World Unit := do
  let base ← variableValue bindings frame array
  let offset ← index.value calls bindings frame
  let value ← value.value calls bindings frame
  storeCell (base + offset) value

/-- Statements lead from a point to another one. A condition holds if its value is all ones. -/
inductive Runs : List Statement → Point World → Outcome → Point World → Prop
  | nil {point} : Runs [] point .normal point
  | cons {statement rest before middle after outcome} :
    Runs [statement] before .normal middle → Runs rest middle outcome after →
      Runs (statement :: rest) before outcome after
  | stop {statement rest before after value} :
    Runs [statement] before (.returned value) after →
      Runs (statement :: rest) before (.returned value) after
  | assign {keyword target equals e semicolon frame memory value middle binding after} :
    e.value calls bindings frame memory = some (value, middle) →
      bindings.lookup target.val.value = some binding →
      binding.store value ⟨frame, middle⟩ = some after →
      Runs [.assign keyword target equals e semicolon] ⟨frame, memory⟩ .normal after
  | assignElement {keyword array opening index closing equals e semicolon frame memory after} :
    assignElement calls bindings frame array.val index e memory = some ((), after) →
      Runs [.assignElement keyword array opening index closing equals e semicolon]
        ⟨frame, memory⟩ .normal ⟨frame, after⟩
  | ifThenHolds {keyword opening condition closing body frame memory middle outcome after} :
    condition.value calls bindings frame memory = some (-1, middle) →
      Runs body.statements ⟨frame, middle⟩ outcome after →
      Runs [.ifThen keyword opening condition closing body] ⟨frame, memory⟩ outcome after
  | ifThenFails {keyword opening condition closing body frame memory value after} :
    condition.value calls bindings frame memory = some (value, after) → value ≠ -1 →
      Runs [.ifThen keyword opening condition closing body] ⟨frame, memory⟩ .normal ⟨frame, after⟩
  | ifElseHolds {keyword opening condition closing body otherwise alternative frame memory middle
      outcome after} :
    condition.value calls bindings frame memory = some (-1, middle) →
      Runs body.statements ⟨frame, middle⟩ outcome after →
      Runs [.ifElse keyword opening condition closing body otherwise alternative] ⟨frame, memory⟩
        outcome after
  | ifElseFails {keyword opening condition closing body otherwise alternative frame memory value
      middle outcome after} :
    condition.value calls bindings frame memory = some (value, middle) → value ≠ -1 →
      Runs alternative.statements ⟨frame, middle⟩ outcome after →
      Runs [.ifElse keyword opening condition closing body otherwise alternative] ⟨frame, memory⟩
        outcome after
  | loopEnds {keyword opening condition closing body frame memory value after} :
    condition.value calls bindings frame memory = some (value, after) → value ≠ -1 →
      Runs [.loop keyword opening condition closing body] ⟨frame, memory⟩ .normal ⟨frame, after⟩
  | loopRepeats {keyword opening condition closing body frame memory middle again outcome after} :
    condition.value calls bindings frame memory = some (-1, middle) →
      Runs body.statements ⟨frame, middle⟩ .normal again →
      Runs [.loop keyword opening condition closing body] again outcome after →
      Runs [.loop keyword opening condition closing body] ⟨frame, memory⟩ outcome after
  | loopReturns {keyword opening condition closing body frame memory middle value after} :
    condition.value calls bindings frame memory = some (-1, middle) →
      Runs body.statements ⟨frame, middle⟩ (.returned value) after →
      Runs [.loop keyword opening condition closing body] ⟨frame, memory⟩ (.returned value) after
  | perform {keyword call semicolon frame memory value after} :
    call.value calls bindings frame memory = some (value, after) →
      Runs [.perform keyword call semicolon] ⟨frame, memory⟩ .normal ⟨frame, after⟩
  | returnNothing {keyword semicolon point} :
    Runs [.returnNothing keyword semicolon] point (.returned 0) point
  | returnValue {keyword e semicolon frame memory value after} :
    e.value calls bindings frame memory = some (value, after) →
      Runs [.returnValue keyword e semicolon] ⟨frame, memory⟩ (.returned value) ⟨frame, after⟩

end

end JackCompiler
