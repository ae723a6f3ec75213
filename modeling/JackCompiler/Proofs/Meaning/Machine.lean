import JackCompiler.Instruction
import Mathlib.Logic.Relation

/-!
# The stack machine

A run of code inside one call. A called subroutine is a single step: what it answers and leaves in
memory may be anything, but it cannot touch the frame of its caller or the stack below its
arguments. Every address may or may not exist, and a run stops at one that does not.
-/

namespace JackCompiler.Machine

abbrev Value := BitVec 16

/-- What calls may change: the heap, the static variables of the class, and all that code has no
address for. -/
structure Memory (World : Type) where
  heap : Value → Option Value
  statics : List Value
  world : World

/-- What belongs to one call. -/
structure Frame where
  locals : List Value
  arguments : List Value
  this : Value

structure Scratch where
  that : Value
  temp : Fin 8 → Value

structure State (World : Type) where
  memory : Memory World
  frame : Frame
  scratch : Scratch
  stack : List Value

/-- What calls do, given the name of a subroutine and its arguments. -/
structure Calls (World : Type) where
  answer : String → List Value → Memory World → Option (Value × Memory World)
  scratch : String → List Value → Memory World → Scratch → Scratch

variable {World : Type}

/-! ## Segments -/

def Memory.store (memory : Memory World) (address value : Value) : Option (Memory World) :=
  if (memory.heap address).isSome then
    some { memory with heap := fun other => if other = address then some value else memory.heap other }
  else
    none

def replace (values : List Value) (index : Nat) (value : Value) : Option (List Value) :=
  if index < values.length then some (values.set index value) else none

def State.read (state : State World) (index : Nat) : Segment → Option Value
  | .constant => some (BitVec.ofNat 16 index)
  | .argument => state.frame.arguments[index]?
  | .localVariable => state.frame.locals[index]?
  | .static => state.memory.statics[index]?
  | .this => state.memory.heap (state.frame.this + BitVec.ofNat 16 index)
  | .that => state.memory.heap (state.scratch.that + BitVec.ofNat 16 index)
  | .pointer =>
    match index with
    | 0 => some state.frame.this
    | 1 => some state.scratch.that
    | _ => none
  | .temp => if inside : index < 8 then some (state.scratch.temp ⟨index, inside⟩) else none

def State.write (state : State World) (index : Nat) (value : Value) :
    Segment → Option (State World)
  | .constant => none
  | .argument => (replace state.frame.arguments index value).map fun arguments =>
    { state with frame := { state.frame with arguments } }
  | .localVariable => (replace state.frame.locals index value).map fun locals =>
    { state with frame := { state.frame with locals } }
  | .static => (replace state.memory.statics index value).map fun statics =>
    { state with memory := { state.memory with statics } }
  | .this => (state.memory.store (state.frame.this + BitVec.ofNat 16 index) value).map
    fun memory => { state with memory }
  | .that => (state.memory.store (state.scratch.that + BitVec.ofNat 16 index) value).map
    fun memory => { state with memory }
  | .pointer =>
    match index with
    | 0 => some { state with frame := { state.frame with this := value } }
    | 1 => some { state with scratch := { state.scratch with that := value } }
    | _ => none
  | .temp =>
    if inside : index < 8 then
      some { state with scratch := { state.scratch with
        temp := fun register => if register = ⟨index, inside⟩ then value
          else state.scratch.temp register } }
    else
      none

/-! ## Instructions -/

def truth (holds : Bool) : Value := if holds then -1 else 0

def command : Command → List Value → Option (List Value)
  | .neg, x :: stack => some (-x :: stack)
  | .not, x :: stack => some (~~~x :: stack)
  | .add, y :: x :: stack => some ((x + y) :: stack)
  | .sub, y :: x :: stack => some ((x - y) :: stack)
  | .and, y :: x :: stack => some ((x &&& y) :: stack)
  | .or, y :: x :: stack => some ((x ||| y) :: stack)
  | .eq, y :: x :: stack => some (truth (x == y) :: stack)
  | .lt, y :: x :: stack => some (truth (x.slt y) :: stack)
  | .gt, y :: x :: stack => some (truth (y.slt x) :: stack)
  | _, _ => none

variable (calls : Calls World)

def run : Instruction → State World → Option (State World)
  | .push segment index, state =>
    (state.read index.toNat segment).map fun value => { state with stack := value :: state.stack }
  | .pop segment index, state =>
    match state.stack with
    | [] => none
    | value :: stack => { state with stack }.write index.toNat value segment
  | .arithmetic name, state => (command name state.stack).map fun stack => { state with stack }
  | .call name count, state =>
    let arguments := (state.stack.take count.toNat).reverse
    if count.toNat ≤ state.stack.length then
      (calls.answer name arguments state.memory).map fun (value, memory) =>
        { state with
          memory
          scratch := calls.scratch name arguments state.memory state.scratch
          stack := value :: state.stack.drop count.toNat }
    else
      none
  | .label _, state | .comment _, state => some state
  | .goto _, _ | .ifGoto _, _ | .function _ _, _ | .ret, _ => none

def exec : Code → State World → Option (State World)
  | [], state => some state
  | instruction :: code, state => (run calls instruction state).bind (exec code)

/-! ## Programs -/

structure Config (World : Type) where
  position : Nat
  state : State World

def target (program : Code) (name : String) : Option Nat :=
  program.findIdx? (· == .label name)

/-- A conditional jump is taken on any value but zero. There is no step from the end of a call. -/
def step (program : Code) (config : Config World) : Option (Config World) :=
  match program[config.position]? with
  | none => none
  | some (.goto name) => (target program name).map (⟨·, config.state⟩)
  | some (.ifGoto name) =>
    match config.state.stack with
    | [] => none
    | value :: stack =>
      if value = 0 then some ⟨config.position + 1, { config.state with stack }⟩
      else (target program name).map (⟨·, { config.state with stack }⟩)
  | some instruction => (run calls instruction config.state).map (⟨config.position + 1, ·⟩)

abbrev Reaches (program : Code) : Config World → Config World → Prop :=
  Relation.ReflTransGen fun before after => step calls program before = some after

/-! ## Runs of code -/

section Runs

variable {calls} {program code before after : Code} {position : Nat}

theorem exec_append (first second : Code) (state : State World) :
    exec calls (first ++ second) state = (exec calls first state).bind (exec calls second) := by
  induction first generalizing state with
  | nil => rfl
  | cons instruction first ih =>
    rw [List.cons_append, exec, exec]
    cases run calls instruction state with
    | none => rfl
    | some next => exact ih next

theorem exec_single (instruction : Instruction) (state : State World) :
    exec calls [instruction] state = run calls instruction state := by
  rw [exec]
  cases run calls instruction state <;> rfl

def CodeAt (program : Code) (position : Nat) (code : Code) : Prop := code <+: program.drop position

theorem codeAt_self (before code after : Code) :
    CodeAt (before ++ code ++ after) before.length code := by
  rw [CodeAt, List.append_assoc, List.drop_left]
  exact List.prefix_append code after

theorem CodeAt.left (located : CodeAt program position (before ++ after)) :
    CodeAt program position before :=
  (List.prefix_append before after).trans located

theorem CodeAt.right (located : CodeAt program position (before ++ after)) :
    CodeAt program (position + before.length) after := by
  obtain ⟨rest, whole⟩ := located
  refine ⟨rest, ?_⟩
  rw [← List.drop_drop, ← whole, List.append_assoc, List.drop_left]

theorem CodeAt.getElem? {index : Nat} (located : CodeAt program position code)
    (inside : index < code.length) : program[position + index]? = code[index]? := by
  obtain ⟨rest, whole⟩ := located
  rw [← List.getElem?_drop, ← whole, List.getElem?_append_left inside]

theorem CodeAt.head {instruction : Instruction}
    (located : CodeAt program position (instruction :: code)) :
    program[position]? = some instruction := by
  obtain ⟨rest, whole⟩ := located
  rw [← List.head?_drop, ← whole]
  rfl

theorem CodeAt.tail {instruction : Instruction}
    (located : CodeAt program position (instruction :: code)) :
    CodeAt program (position + 1) code :=
  (show CodeAt program position ([instruction] ++ code) from located).right

theorem step_of_run {instruction : Instruction} {state next : State World}
    (there : program[position]? = some instruction) (runs : run calls instruction state = some next) :
    step calls program ⟨position, state⟩ = some ⟨position + 1, next⟩ := by
  rw [step, there]
  cases instruction with
  | goto | ifGoto | function | ret => cases runs
  | _ => exact congrArg (Option.map _) runs

theorem reaches_of_exec {state final : State World} (located : CodeAt program position code)
    (runs : exec calls code state = some final) :
    Reaches calls program ⟨position, state⟩ ⟨position + code.length, final⟩ := by
  induction code generalizing position state with
  | nil =>
    cases runs
    exact .refl
  | cons instruction code ih =>
    obtain ⟨next, first, rest⟩ := Option.bind_eq_some_iff.mp runs
    have later := ih located.tail rest
    rw [List.length_cons, Nat.add_comm code.length, ← Nat.add_assoc]
    exact .head (step_of_run located.head first) later

end Runs

end JackCompiler.Machine
