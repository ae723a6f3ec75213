import JackCompiler.Proofs.Meaning.Machine

namespace JackCompiler

namespace Instruction

/-- How many values an instruction takes from the stack; those a call takes are its arguments. -/
def taken : Instruction → Nat
  | .push _ _ => 0
  | .pop _ _ => 1
  | .arithmetic .neg | .arithmetic .not => 1
  | .arithmetic _ => 2
  | .ifGoto _ => 1
  | .call _ arguments => arguments.toNat
  | .ret => 1
  | .label _ | .goto _ | .function _ _ | .comment _ => 0

def given : Instruction → Nat
  | .push _ _ | .arithmetic _ | .call _ _ => 1
  | .pop _ _ | .label _ | .goto _ | .ifGoto _ | .function _ _ | .ret | .comment _ => 0

def jump? : Instruction → Option String
  | .goto name | .ifGoto name => some name
  | _ => none

def falls : Instruction → Bool
  | .goto _ | .ret => false
  | _ => true

end Instruction

inductive Flows (program : Code) : Nat → Nat → Prop
  | next {position : Nat} {instruction : Instruction} :
    program[position]? = some instruction → instruction.falls = true →
    Flows program position (position + 1)
  | jump {position target : Nat} {instruction : Instruction} {name : String} :
    program[position]? = some instruction → instruction.jump? = some name →
    program[target]? = some (.label name) → Flows program position target

/-- A way through a program, and how much deeper the stack is at its end. -/
inductive Path (program : Code) (start : Nat) : Nat → Int → Prop
  | start : Path program start start 0
  | step {position next : Nat} {depth : Int} {instruction : Instruction} :
    Path program start position depth → program[position]? = some instruction →
    Flows program position next →
    Path program start next (depth - instruction.taken + instruction.given)

namespace Machine

variable {World : Type} {calls : Calls World} {program : Code}

theorem getElem?_target {name : String} {position : Nat}
    (found : target program name = some position) :
    program[position]? = some (.label name) := by
  obtain ⟨inside, same, -⟩ := List.findIdx?_eq_some_iff_getElem.mp found
  rw [List.getElem?_eq_getElem inside, eq_of_beq same]

private theorem write_stack {state next : State World} {index : Nat} {value : Value}
    {segment : Segment} (written : state.write index value segment = some next) :
    next.stack = state.stack := by
  cases segment <;> simp only [State.write, Option.map_eq_some_iff, reduceCtorEq] at written
  case pointer => split at written <;> cases written <;> rfl
  case temp => split at written <;> cases written; rfl
  all_goals
    obtain ⟨_, _, rfl⟩ := written
    rfl

private theorem command_length {name : Command} {before after : List Value}
    (runs : command name before = some after) :
    after.length + (Instruction.arithmetic name).taken = before.length + 1 := by
  unfold command at runs
  split at runs <;> cases runs <;> rfl

theorem run_length {instruction : Instruction} {state next : State World}
    (runs : run calls instruction state = some next) :
    next.stack.length + instruction.taken = state.stack.length + instruction.given := by
  cases instruction with
  | push segment index =>
    obtain ⟨value, -, rfl⟩ := Option.map_eq_some_iff.mp runs
    rfl
  | pop segment index =>
    obtain ⟨memory, frame, scratch, stack⟩ := state
    cases stack with
    | nil => cases runs
    | cons value stack =>
      rw [write_stack runs]
      rfl
  | arithmetic name =>
    obtain ⟨stack, found, rfl⟩ := Option.map_eq_some_iff.mp runs
    exact command_length found
  | call name count =>
    rw [run] at runs
    split at runs
    case isTrue enough =>
      obtain ⟨answer, -, rfl⟩ := Option.map_eq_some_iff.mp runs
      simp only [Instruction.taken, Instruction.given, List.length_cons, List.length_drop]
      omega
    case isFalse => cases runs
  | label name => cases runs; rfl
  | comment text => cases runs; rfl
  | goto | ifGoto | function | ret => cases runs

theorem flows_of_step {before after : Config World}
    (steps : step calls program before = some after) :
    ∃ instruction, program[before.position]? = some instruction ∧
      Flows program before.position after.position ∧
      after.state.stack.length + instruction.taken =
        before.state.stack.length + instruction.given := by
  obtain ⟨position, state⟩ := before
  rw [step] at steps
  split at steps
  case h_1 => cases steps
  case h_2 name there =>
    obtain ⟨place, found, rfl⟩ := Option.map_eq_some_iff.mp steps
    exact ⟨_, there, .jump there rfl (getElem?_target found), rfl⟩
  case h_3 name there =>
    obtain ⟨memory, frame, scratch, stack⟩ := state
    cases stack with
    | nil => cases steps
    | cons value stack =>
      simp only at steps
      split at steps
      · cases steps
        exact ⟨_, there, .next there rfl, rfl⟩
      · obtain ⟨place, found, rfl⟩ := Option.map_eq_some_iff.mp steps
        exact ⟨_, there, .jump there rfl (getElem?_target found), rfl⟩
  case h_4 instruction _ _ there =>
    obtain ⟨next, runs, rfl⟩ := Option.map_eq_some_iff.mp steps
    refine ⟨instruction, there, .next there ?_, run_length runs⟩
    cases instruction with
    | goto | ret => cases runs
    | _ => rfl

theorem path_of_reaches {before after : Config World} {start : Nat} {depth : Int}
    (reaches : Reaches calls program before after)
    (path : Path program start before.position depth) :
    Path program start after.position
      (depth + after.state.stack.length - before.state.stack.length) := by
  induction reaches with
  | refl =>
    rw [Int.add_sub_cancel]
    exact path
  | @tail middle after _ steps ih =>
    obtain ⟨instruction, there, flows, length⟩ := flows_of_step steps
    have same : depth + after.state.stack.length - before.state.stack.length =
        depth + middle.state.stack.length - before.state.stack.length - instruction.taken +
          instruction.given := by omega
    rw [same]
    exact .step ih there flows

end Machine

end JackCompiler
