namespace JackCompiler

inductive Segment
  | constant
  | argument
  | localVariable
  | static
  | this
  | that
  | pointer
  | temp
  deriving DecidableEq

def Segment.name : Segment → String
  | .constant => "constant"
  | .argument => "argument"
  | .localVariable => "local"
  | .static => "static"
  | .this => "this"
  | .that => "that"
  | .pointer => "pointer"
  | .temp => "temp"

inductive Command
  | add
  | sub
  | neg
  | eq
  | gt
  | lt
  | and
  | or
  | not
  deriving DecidableEq

def Command.name : Command → String
  | .add => "add"
  | .sub => "sub"
  | .neg => "neg"
  | .eq => "eq"
  | .gt => "gt"
  | .lt => "lt"
  | .and => "and"
  | .or => "or"
  | .not => "not"

inductive Instruction
  | push (segment : Segment) (index : UInt16)
  | pop (segment : Segment) (index : UInt16)
  | arithmetic (command : Command)
  | label (name : String)
  | goto (name : String)
  | ifGoto (name : String)
  | call (name : String) (arguments : UInt16)
  | function (name : String) (locals : UInt16)
  | ret
  | comment (text : String)
  deriving DecidableEq

abbrev Code := List Instruction

namespace Instruction

def isComment : Instruction → Bool
  | .comment _ => true
  | _ => false

def text : Instruction → String
  | .push segment index => "push " ++ segment.name ++ " " ++ toString index.toNat
  | .pop segment index => "pop " ++ segment.name ++ " " ++ toString index.toNat
  | .arithmetic command => command.name
  | .label name => "label " ++ name
  | .goto name => "goto " ++ name
  | .ifGoto name => "if-goto " ++ name
  | .call name arguments => "call " ++ name ++ " " ++ toString arguments.toNat
  | .function name locals => "function " ++ name ++ " " ++ toString locals.toNat
  | .ret => "return"
  | .comment text => "// " ++ text

/-- What a writer puts out for an instruction. -/
def line : Instruction → String
  | .push segment index => "push " ++ segment.name ++ " " ++ toString index.toNat ++ "\n"
  | .pop segment index => "pop " ++ segment.name ++ " " ++ toString index.toNat ++ "\n"
  | .arithmetic command => command.name ++ "\n"
  | .label name => "label " ++ name ++ "\n"
  | .goto name => "goto " ++ name ++ "\n"
  | .ifGoto name => "if-goto " ++ name ++ "\n"
  | .call name arguments => "call " ++ name ++ " " ++ toString arguments.toNat ++ "\n"
  | .function name locals => "function " ++ name ++ " " ++ toString locals.toNat ++ "\n"
  | .ret => "return\n"
  | .comment text => (Instruction.comment text).text ++ "\n"

theorem line_eq (instruction : Instruction) : instruction.line = instruction.text ++ "\n" := by
  cases instruction <;> rfl

end Instruction

namespace Code

def text (code : Code) : String := String.join (code.map fun i => i.text ++ "\n")

def writeTo (code : Code) (sink : String) : String :=
  code.foldl (fun sink instruction => sink ++ instruction.line) sink

theorem writeTo_eq (code : Code) (sink : String) : code.writeTo sink = sink ++ code.text := by
  rw [writeTo]
  induction code generalizing sink with
  | nil => simp [text]
  | cons instruction code ih =>
    rw [List.foldl_cons, ih, Instruction.line_eq, text, text, List.map_cons, String.join_cons,
      String.append_assoc]

end Code

end JackCompiler
