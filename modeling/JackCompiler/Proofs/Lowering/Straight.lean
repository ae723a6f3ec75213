import JackCompiler.Proofs.Lowering.Code

namespace JackCompiler

open Lowering

def Instruction.isStraight : Instruction → Bool
  | .push _ _ | .pop _ _ | .arithmetic _ | .call _ _ => true
  | .label _ | .goto _ | .ifGoto _ | .function _ _ | .ret | .comment _ => false

def Straight (code : Code) : Prop := ∀ instruction ∈ code, instruction.isStraight = true

section Straight

variable {context : Context} {first second code : Code} {instruction : Instruction}

theorem straight_nil : Straight [] := nofun

theorem straight_cons (one : instruction.isStraight = true) (rest : Straight code) :
    Straight (instruction :: code) :=
  List.forall_mem_cons.mpr ⟨one, rest⟩

theorem Straight.append (one : Straight first) (rest : Straight second) :
    Straight (first ++ second) :=
  List.forall_mem_append.mpr ⟨one, rest⟩

theorem straight_load (name : Token) : Straight (context.load name) := by
  rw [Context.load]
  split
  · exact straight_cons rfl straight_nil
  · exact straight_nil

theorem straight_store (name : Token) : Straight (context.store name) := by
  rw [Context.store]
  split
  · exact straight_cons rfl straight_nil
  · exact straight_nil

private theorem straight_literal (token : Token) : Straight (literalCode token) := by
  rw [literalCode]
  split
  · exact straight_cons rfl straight_nil
  · refine straight_cons rfl (straight_cons rfl fun instruction member => ?_)
    obtain ⟨c, -, inside⟩ := List.mem_flatMap.mp member
    exact straight_cons rfl (straight_cons rfl straight_nil) instruction inside
  · unfold constantCode
    split
    · exact straight_cons rfl (straight_cons rfl straight_nil)
    · exact straight_cons rfl straight_nil
    · exact straight_cons rfl straight_nil

private theorem straight_binary (operator : String) : Straight [binaryInstruction operator] := by
  unfold binaryInstruction
  split <;> exact straight_cons rfl straight_nil

private theorem straight_unary (operator : String) : Straight [unaryInstruction operator] := by
  unfold unaryInstruction
  split <;> exact straight_cons rfl straight_nil

private theorem straight_moreArguments {more : List (Comma × Expression)}
    (each : ∀ pair ∈ more, Straight (pair.2.code context)) :
    Straight (moreArgumentCode context more) := by
  induction more with
  | nil => exact straight_nil
  | cons pair more ih =>
    rw [moreArgumentCode]
    exact (each pair (.head _)).append (ih fun pair member => each pair (.tail _ member))

private theorem straight_called {arguments : Arguments} (before : Code) (name : String)
    (count : UInt16) (first : Straight before) (inner : Straight (arguments.code context)) :
    Straight (before ++ arguments.code context ++ [.call name count]) :=
  (first.append inner).append (straight_cons rfl straight_nil)

private theorem straight_qualified {qualifier : Name} {dot : Word ["."]} {name : MemberName}
    {opening : Word ["("]} {arguments : Arguments} {closing : Word [")"]}
    (inner : Straight (arguments.code context)) :
    Straight ((Call.qualified qualifier dot name opening arguments closing).code context) := by
  rw [Call.code]
  split
  · exact straight_called [_] _ _ (straight_cons rfl straight_nil) inner
  · split
    · exact straight_called [_] _ _ (straight_cons rfl straight_nil) inner
    · exact straight_called [] _ _ straight_nil inner

private theorem straight_expressions :
    (∀ e : Expression, Straight (e.code context)) ∧ (∀ t : Term, Straight (t.code context)) ∧
    (∀ c : Call, Straight (c.code context)) ∧ (∀ a : Arguments, Straight (a.code context)) := by
  apply Expression.induction
  case term =>
    intro t ih
    rw [Expression.code]
    exact ih
  case binary =>
    intro left operator right first second
    rw [Expression.code]
    exact (first.append second).append (straight_binary _)
  case literal =>
    intro value
    rw [Term.code]
    exact straight_literal _
  case name =>
    intro name
    rw [Term.code]
    exact straight_load _
  case element =>
    intro array opening index closing ih
    rw [Term.code]
    exact ((straight_load _).append ih).append
      (straight_cons rfl (straight_cons rfl (straight_cons rfl straight_nil)))
  case call =>
    intro c ih
    rw [Term.code]
    exact ih
  case group =>
    intro opening inner closing ih
    rw [Term.code]
    exact ih
  case unary =>
    intro operator operand ih
    rw [Term.code]
    exact ih.append (straight_unary _)
  case bare =>
    intro name opening arguments closing ih
    rw [Call.code]
    exact straight_called [_] _ _ (straight_cons rfl straight_nil) ih
  case qualified => exact fun _ _ _ _ _ _ ih => straight_qualified ih
  case empty =>
    rw [Arguments.code]
    exact straight_nil
  case listed =>
    intro first more head each
    rw [Arguments.code]
    exact head.append (straight_moreArguments each)

theorem Expression.straight_code (e : Expression) : Straight (e.code context) :=
  straight_expressions.1 e

theorem Call.straight_code (c : Call) : Straight (c.code context) := straight_expressions.2.2.1 c

theorem straight_assignElement (array : Name) (index value : Expression) :
    Straight (context.load array.val ++ index.code context ++ [.arithmetic .add] ++
      value.code context ++ [.pop .temp 0, .pop .pointer 1, .push .temp 0, .pop .that 0]) := by
  have add : Straight [.arithmetic .add] := straight_cons rfl straight_nil
  have last : Straight [.pop .temp 0, .pop .pointer 1, .push .temp 0, .pop .that 0] :=
    straight_cons rfl (straight_cons rfl (straight_cons rfl (straight_cons rfl straight_nil)))
  exact ((((straight_load _).append index.straight_code).append add).append
    value.straight_code).append last

end Straight

end JackCompiler
