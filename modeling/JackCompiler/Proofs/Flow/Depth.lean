import JackCompiler.Proofs.Flow.Paths
import JackCompiler.Proofs.Meaning.Preservation

namespace JackCompiler

open Lowering Machine

def Instruction.isBorder : Instruction → Bool
  | .label _ | .goto _ | .ifGoto _ | .function _ _ | .ret => true
  | _ => false

/-- The instruction may be met at a depth. -/
structure Instruction.Fits (instruction : Instruction) (depth : Nat) : Prop where
  enough : instruction.taken ≤ depth
  border : instruction.isBorder = true → depth = instruction.taken

instance (instruction : Instruction) (depth : Nat) : Decidable (instruction.Fits depth) :=
  decidable_of_iff (instruction.taken ≤ depth ∧ (instruction.isBorder = true →
    depth = instruction.taken)) ⟨fun ⟨enough, border⟩ => ⟨enough, border⟩,
      fun fits => ⟨fits.enough, fits.border⟩⟩

/-- The depth after code that is read from a depth on, if every instruction fits where it is met. -/
def level : Code → Nat → Option Nat
  | [], depth => some depth
  | instruction :: code, depth =>
    if instruction.Fits depth then level code (depth - instruction.taken + instruction.given)
    else none

section Level

variable {program first second : Code} {instruction : Instruction} {position depth after : Nat}

theorem level_append (first second : Code) (depth : Nat) :
    level (first ++ second) depth = (level first depth).bind (level second) := by
  induction first generalizing depth with
  | nil => rfl
  | cons instruction first ih =>
    rw [List.cons_append, level, level]
    split
    · exact ih _
    · rfl

theorem level_append_of (one : level first depth = some after) :
    level (first ++ second) depth = level second after := by
  rw [level_append, one]
  rfl

theorem level_plain (plain : instruction.isBorder = false) (enough : instruction.taken ≤ depth)
    (code : Code) :
    level (instruction :: code) depth =
      level code (depth - instruction.taken + instruction.given) := by
  rw [level, if_pos ⟨enough, fun border => absurd (plain.symm.trans border) Bool.false_ne_true⟩]

end Level

structure Context.Settles (context : Context) (occurrences : List Occurrence) : Prop where
  names : ∀ name, .variable name ∈ occurrences → ∃ found, context.resolve name.value = some found
  calls : ∀ count, .call count ∈ occurrences → count < 65535

section Expressions

variable {context : Context} {small large : List Occurrence}

theorem Context.Settles.mono (settles : context.Settles large) (within : small ⊆ large) :
    context.Settles small :=
  ⟨fun name member => settles.names name (within member),
    fun count member => settles.calls count (within member)⟩

theorem Context.Settles.left {first second : List Occurrence}
    (settles : context.Settles (first ++ second)) : context.Settles first :=
  settles.mono (List.subset_append_left first second)

theorem Context.Settles.right {first second : List Occurrence}
    (settles : context.Settles (first ++ second)) : context.Settles second :=
  settles.mono (List.subset_append_right first second)

private def Moves (code : Code) (before after : Nat) : Prop :=
  ∀ depth, level code (depth + before) = some (depth + after)

section Moves

variable {first second code : Code} {before middle after : Nat} {instruction : Instruction}

private theorem moves_nil : Moves [] before before := fun _ => rfl

private theorem moves_append (one : Moves first before middle) (rest : Moves second middle after) :
    Moves (first ++ second) before after := by
  intro depth
  rw [level_append_of (one depth), rest]

private theorem moves_cons (one : Moves [instruction] before middle)
    (rest : Moves code middle after) : Moves (instruction :: code) before after :=
  moves_append one rest

private theorem Moves.above (moves : Moves code before after) (more : Nat) :
    Moves code (more + before) (more + after) := by
  intro depth
  rw [← Nat.add_assoc, ← Nat.add_assoc, moves]

private theorem moves_plain (plain : instruction.isBorder = false) :
    Moves [instruction] instruction.taken instruction.given := by
  intro depth
  rw [level_plain plain (Nat.le_add_left _ _), Nat.add_sub_cancel]
  rfl

private theorem Moves.level_zero (moves : Moves code 0 after) : level code 0 = some after := by
  simpa using moves 0

end Moves

private theorem moves_load {name : Token} (settles : context.Settles [.variable name]) :
    Moves (context.load name) 0 1 := by
  obtain ⟨found, same⟩ := settles.names name (.head _)
  rw [Context.load, same]
  exact moves_plain rfl

private theorem moves_store {name : Token} (settles : context.Settles [.variable name]) :
    Moves (context.store name) 1 0 := by
  obtain ⟨found, same⟩ := settles.names name (.head _)
  rw [Context.store, same]
  exact moves_plain rfl

private theorem moves_characters (text : List Char) : Moves (text.flatMap characterCode) 1 1 := by
  induction text with
  | nil => exact moves_nil
  | cons c text ih =>
    have push : Moves [.push .constant (UInt16.ofNat c.toNat)] 1 2 := (moves_plain rfl).above 1
    have append : Moves [.call "String.appendChar" 2] 2 1 := moves_plain rfl
    exact moves_append (moves_cons push append) ih

private theorem moves_literal (token : Token) : Moves (literalCode token) 0 1 := by
  rw [literalCode]
  split
  · exact moves_plain rfl
  · exact moves_cons (moves_plain rfl) (moves_cons (moves_plain rfl) (moves_characters _))
  · unfold constantCode
    split
    · exact moves_cons (moves_plain rfl) (moves_plain rfl)
    · exact moves_plain rfl
    · exact moves_plain rfl

private theorem moves_binary (operator : String) : Moves [binaryInstruction operator] 2 1 := by
  unfold binaryInstruction
  split <;> exact moves_plain rfl

private theorem moves_unary (operator : String) : Moves [unaryInstruction operator] 1 1 := by
  unfold unaryInstruction
  split <;> exact moves_plain rfl

private theorem moves_call (name : String) {given : UInt16} {count : Nat}
    (same : given.toNat = count) : Moves [.call name given] count 1 :=
  same ▸ moves_plain rfl

private theorem toNat_count {count : Nat} (few : count < 65535) :
    (UInt16.ofNat count).toNat = count :=
  UInt16.toNat_ofNat_of_lt' (Nat.lt_succ_of_lt few)

private theorem toNat_count_succ {count : Nat} (few : count < 65535) :
    (UInt16.ofNat count + 1).toNat = 1 + count := by
  have bound : 1 + count < 2 ^ 16 := by omega
  rw [UInt16.toNat_add, toNat_count few, Nat.add_comm]
  exact Nat.mod_eq_of_lt bound

private theorem moves_received {receiver : Instruction} {arguments : Arguments} (name : String)
    (push : Moves [receiver] 0 1) (inner : Moves (arguments.code context) 0 arguments.count)
    (few : arguments.count < 65535) :
    Moves (receiver :: arguments.code context ++
      [.call name (UInt16.ofNat arguments.count + 1)]) 0 1 :=
  -- The receiver is counted with the arguments, so that 65535 of them are too many.
  moves_append (moves_cons push (inner.above 1)) (moves_call name (toNat_count_succ few))

private theorem moves_moreArguments {more : List (Comma × Expression)}
    (settles : context.Settles (moreArgumentOccurrences more))
    (each : ∀ pair ∈ more, context.Settles pair.2.occurrences → Moves (pair.2.code context) 0 1) :
    Moves (moreArgumentCode context more) 0 more.length := by
  induction more with
  | nil => exact moves_nil
  | cons pair more ih =>
    obtain ⟨comma, argument⟩ := pair
    rw [moreArgumentOccurrences] at settles
    have rest := ih settles.right fun pair member => each pair (.tail _ member)
    rw [moreArgumentCode, List.length_cons, Nat.add_comm]
    exact moves_append (each _ (.head _) settles.left) (rest.above 1)

private theorem moves_expressions :
    (∀ e : Expression, context.Settles e.occurrences → Moves (e.code context) 0 1) ∧
    (∀ t : Term, context.Settles t.occurrences → Moves (t.code context) 0 1) ∧
    (∀ c : Call, context.Settles c.occurrences → Moves (c.code context) 0 1) ∧
    (∀ a : Arguments, context.Settles a.occurrences → Moves (a.code context) 0 a.count) := by
  apply Expression.induction
  case term =>
    intro t ih settles
    rw [Expression.code]
    rw [Expression.occurrences] at settles
    exact ih settles
  case binary =>
    intro left operator right first second settles
    rw [Expression.occurrences] at settles
    rw [Expression.code]
    exact moves_append (moves_append (first settles.left) ((second settles.right).above 1))
      (moves_binary _)
  case literal =>
    intro value settles
    rw [Term.code]
    exact moves_literal _
  case name =>
    intro name settles
    rw [Term.occurrences] at settles
    rw [Term.code]
    exact moves_load settles
  case element =>
    intro array opening index closing ih settles
    rw [Term.occurrences] at settles
    rw [Term.code]
    have access : Moves [.arithmetic .add, .pop .pointer 1, .push .that 0] 2 1 :=
      moves_cons (moves_plain rfl) (moves_cons (moves_plain rfl) (moves_plain rfl))
    exact moves_append (moves_append (moves_load settles.right) ((ih settles.left).above 1)) access
  case call =>
    intro c ih settles
    rw [Term.occurrences] at settles
    rw [Term.code]
    exact ih settles
  case group =>
    intro opening inner closing ih settles
    rw [Term.occurrences] at settles
    rw [Term.code]
    exact ih settles
  case unary =>
    intro operator operand ih settles
    rw [Term.occurrences] at settles
    rw [Term.code]
    exact moves_append (ih settles) (moves_unary _)
  case bare =>
    intro name opening arguments closing ih settles
    rw [Call.occurrences] at settles
    rw [Call.code]
    exact moves_received _ (moves_plain rfl) (ih settles.left) (settles.right.calls _ (.head _))
  case qualified =>
    intro qualifier dot name opening arguments closing ih settles
    rw [Call.occurrences] at settles
    have few := settles.right.calls _ (.head _)
    rw [Call.code]
    split
    · exact moves_received _ (moves_plain rfl) (ih settles.left) few
    · split
      · exact moves_received _ (moves_plain rfl) (ih settles.left) few
      · exact moves_append (ih settles.left) (moves_call _ (toNat_count few))
  case empty =>
    intro settles
    rw [Arguments.code]
    exact moves_nil
  case listed =>
    intro first more one each settles
    rw [Arguments.occurrences] at settles
    rw [Arguments.code, Arguments.count, Nat.add_comm]
    exact moves_append (one settles.left) ((moves_moreArguments settles.right each).above 1)

theorem Expression.level_code {e : Expression} (settles : context.Settles e.occurrences)
    (depth : Nat) : level (e.code context) depth = some (depth + 1) :=
  moves_expressions.1 e settles depth

theorem Call.level_code {c : Call} (settles : context.Settles c.occurrences)
    (depth : Nat) : level (c.code context) depth = some (depth + 1) :=
  moves_expressions.2.2.1 c settles depth

private theorem level_marker (comments : Bool) (text : String) (depth : Nat) :
    level (marker comments text) depth = some depth := by
  cases comments <;> rfl

private abbrev Even (context : Context) (s : Statement) : Prop :=
  context.Settles s.occurrences → ∀ number, level (s.code context number) 0 = some 0

private abbrev EvenBlock (context : Context) (b : Block) : Prop :=
  context.Settles b.occurrences → ∀ number, level (b.code context number) 0 = some 0

private theorem even_statements {statements : List Statement}
    (each : ∀ s ∈ statements, Even context s)
    (settles : context.Settles (statementOccurrences statements)) (number : Nat) :
    level (statementCode context number statements) 0 = some 0 := by
  induction statements generalizing number with
  | nil => rfl
  | cons s statements ih =>
    rw [statementOccurrences] at settles
    rw [statementCode, level_append_of (each s (.head _) settles.left number)]
    exact ih (fun s member => each s (.tail _ member)) settles.right _

private theorem even_assignElement {keyword : Word ["let"]} {array : Name} {opening : Word ["["]}
    {index : Expression} {closing : Word ["]"]} {equals : Word ["="]} {value : Expression}
    {semicolon : Word [";"]} :
    Even context (.assignElement keyword array opening index closing equals value semicolon) := by
  intro settles number
  rw [Statement.occurrences] at settles
  rw [Statement.code, level_append_of (level_marker _ _ _)]
  -- The value is computed above the address, and the last instructions take both.
  have address : Moves (context.load array.val ++ index.code context ++ [.arithmetic .add]) 0 1 :=
    moves_append (moves_append (moves_load settles.right)
      ((moves_expressions.1 index settles.left.left).above 1)) (moves_plain rfl)
  have value : Moves (value.code context) 1 2 :=
    (moves_expressions.1 value settles.left.right).above 1
  rw [level_append_of (moves_append address value).level_zero]
  rfl

private theorem even_all :
    (∀ s : Statement, Even context s) ∧ (∀ b : Block, EvenBlock context b) := by
  apply Statement.induction
  case assign =>
    intro keyword target equals value semicolon settles number
    rw [Statement.occurrences] at settles
    rw [Statement.code, level_append_of (level_marker _ _ _),
      level_append_of (Expression.level_code settles.left 0)]
    exact moves_store settles.right 0
  case assignElement => exact fun _ _ _ _ _ _ _ _ => even_assignElement
  case ifThen =>
    intro keyword opening condition closing body ih settles number
    rw [Statement.occurrences] at settles
    simp only [Statement.code, List.append_assoc]
    rw [level_append_of (level_marker _ _ _),
      level_append_of (Expression.level_code settles.left 0)]
    change level (body.code context _ ++ _) 0 = _
    rw [level_append_of (ih settles.right _)]
    rfl
  case ifElse =>
    intro keyword opening condition closing body otherwise alternative ih ih' settles number
    rw [Statement.occurrences] at settles
    simp only [Statement.code, List.append_assoc]
    rw [level_append_of (level_marker _ _ _),
      level_append_of (Expression.level_code settles.left.left 0)]
    change level (body.code context _ ++ _) 0 = _
    rw [level_append_of (ih settles.left.right _)]
    change level (alternative.code context _ ++ _) 0 = _
    rw [level_append_of (ih' settles.right _)]
    rfl
  case loop =>
    intro keyword opening condition closing body ih settles number
    rw [Statement.occurrences] at settles
    simp only [Statement.code, List.append_assoc]
    rw [level_append_of (level_marker _ _ _)]
    change level (condition.code context ++ _) 0 = _
    rw [level_append_of (Expression.level_code settles.left 0)]
    change level (body.code context _ ++ _) 0 = _
    rw [level_append_of (ih settles.right _)]
    rfl
  case perform =>
    intro keyword call semicolon settles number
    rw [Statement.occurrences] at settles
    rw [Statement.code, List.append_assoc, level_append_of (level_marker _ _ _),
      level_append_of (Call.level_code settles 0)]
    rfl
  case returnNothing =>
    intro keyword semicolon settles number
    rw [Statement.code, List.append_assoc, level_append_of (level_marker _ _ _)]
    rfl
  case returnValue =>
    intro keyword value semicolon settles number
    rw [Statement.occurrences] at settles
    rw [Statement.code, List.append_assoc, level_append_of (level_marker _ _ _),
      level_append_of (Expression.level_code settles.left 0)]
    rfl
  case braced =>
    intro opening statements closing each settles number
    rw [Block.occurrences] at settles
    rw [Block.code]
    exact even_statements each settles _

theorem level_statementCode {statements : List Statement}
    (settles : context.Settles (statementOccurrences statements)) (number : Nat) :
    level (statementCode context number statements) 0 = some 0 :=
  even_statements (fun s _ => even_all.1 s) settles number

end Expressions

section Units

variable {declaration : ClassDeclaration} {comments : Bool}

private theorem level_prologue (scope : Scope) (kind : SubroutineKind) :
    level (prologue scope kind) 0 = some 0 := by
  cases kind <;> rfl

theorem SubroutineBody.level_code {context : Context} {body : SubroutineBody}
    (settles : context.Settles (statementOccurrences body.statements)) (number : Nat) :
    level (body.code context number) 0 = some 0 := by
  simp only [code, List.append_assoc]
  rw [level_append_of (level_marker _ _ _)]
  change level (prologue _ _ ++ _) 0 = _
  rw [level_append_of (level_prologue _ _), level_append_of (level_statementCode settles _)]
  split <;> rfl

private theorem settles_of_faultless (faultless : declaration.faults = [])
    {s : SubroutineDeclaration} (member : s ∈ declaration.subroutines)
    (few : ∀ count, .call count ∈ s.occurrences → count < 65535) :
    (declaration.context comments s).Settles s.occurrences := by
  refine ⟨fun name used => ?_, few⟩
  have none : (declaration.context comments s).faults [.variable name] = [] :=
    faults_within faultless member (by simpa using used)
  simp only [Context.faults, Context.fault?, List.filterMap_cons] at none
  cases found : (declaration.context comments s).resolve name.value with
  | some resolved => exact ⟨resolved, rfl⟩
  | none =>
    rw [found] at none
    cases none

private theorem level_subroutineCode {subroutines : List SubroutineDeclaration}
    (settles : ∀ s ∈ subroutines, (declaration.context comments s).Settles s.occurrences)
    (number : Nat) : level (declaration.subroutineCode comments number subroutines) 0 = some 0 := by
  induction subroutines generalizing number with
  | nil => rfl
  | cons s subroutines ih =>
    have own : level (declaration.bodyCode comments s number) 0 = some 0 :=
      SubroutineBody.level_code (settles s (.head _)) _
    rw [ClassDeclaration.subroutineCode, level_append_of own]
    exact ih (fun s member => settles s (.tail _ member)) _

theorem ClassDeclaration.level_code (faultless : declaration.faults = [])
    (few : ∀ s ∈ declaration.subroutines, ∀ count, .call count ∈ s.occurrences → count < 65535) :
    level (declaration.code comments) 0 = some 0 := by
  simp only [code, List.append_assoc]
  rw [level_append_of (level_marker _ _ _), level_append_of (level_subroutineCode (fun s member =>
    settles_of_faultless faultless member (few s member)) _)]
  exact level_marker _ _ _

end Units

section Paths

variable {program : Code} {instruction : Instruction} {position start last : Nat} {depth : Int}

def depthAt (program : Code) (position : Nat) : Option Nat := level (program.take position) 0

theorem depthAt_step (balanced : level program 0 = some last)
    (there : program[position]? = some instruction) :
    ∃ depth, depthAt program position = some depth ∧ instruction.Fits depth ∧
      depthAt program (position + 1) = some (depth - instruction.taken + instruction.given) := by
  obtain ⟨inside, rfl⟩ := List.getElem?_eq_some_iff.mp there
  have whole : program =
      program.take position ++ program[position] :: program.drop (position + 1) := by
    rw [← List.drop_eq_getElem_cons inside, List.take_append_drop]
  rw [whole, level_append] at balanced
  obtain ⟨depth, before, after⟩ := Option.bind_eq_some_iff.mp balanced
  rw [level] at after
  split at after
  case isTrue fits =>
    refine ⟨depth, before, fits, ?_⟩
    rw [depthAt, List.take_succ_eq_append_getElem inside, level_append_of before, level, if_pos fits]
    rfl
  case isFalse => cases after

theorem depthAt_flow {next : Nat} {depth : Nat} (balanced : level program 0 = some last)
    (there : program[position]? = some instruction) (flows : Flows program position next)
    (here : depthAt program position = some depth) :
    instruction.Fits depth ∧
      depthAt program next = some (depth - instruction.taken + instruction.given) := by
  obtain ⟨other, same, fits, after⟩ := depthAt_step balanced there
  cases here.symm.trans same
  refine ⟨fits, ?_⟩
  cases flows with
  | next => exact after
  | jump here jumps labelled =>
    cases there.symm.trans here
    -- The code between is not looked at: the stack is empty after the jump and at the label.
    obtain ⟨joined, found, fits', -⟩ := depthAt_step balanced labelled
    rw [found, fits'.border rfl]
    cases instruction with
    | goto name | ifGoto name =>
      rw [fits.border rfl, Nat.sub_self]
      rfl
    | _ => cases jumps

theorem depthAt_path (balanced : level program 0 = some last)
    (entry : depthAt program start = some 0)
    (path : Path program start position depth) :
    ∃ height : Nat, depthAt program position = some height ∧ depth = height := by
  induction path with
  | start => exact ⟨0, entry, rfl⟩
  | @step position next depth instruction _ there flows ih =>
    obtain ⟨height, here, rfl⟩ := ih
    obtain ⟨fits, after⟩ := depthAt_flow balanced there flows here
    have enough := fits.enough
    exact ⟨_, after, by omega⟩

def Enters (program : Code) (position : Nat) : Prop :=
  ∃ name locals, program[position]? = some (.function name locals)

theorem depthAt_entry (balanced : level program 0 = some last) (enters : Enters program start) :
    depthAt program start = some 0 := by
  obtain ⟨name, locals, there⟩ := enters
  obtain ⟨depth, found, fits, -⟩ := depthAt_step balanced there
  rw [found, fits.border rfl]
  rfl

theorem depthAt_reaches {World : Type} {calls : Calls World} {state : State World}
    {after : Config World} (balanced : level program 0 = some last) (enters : Enters program start)
    (reaches : Reaches calls program ⟨start + 1, state⟩ after) :
    ∃ height, depthAt program after.position = some height ∧
      after.state.stack.length = state.stack.length + height := by
  have entry := depthAt_entry balanced enters
  obtain ⟨name, locals, there⟩ := enters
  have path := path_of_reaches reaches (.step .start there (.next there rfl))
  obtain ⟨height, found, same⟩ := depthAt_path balanced entry path
  refine ⟨height, found, ?_⟩
  simp only [Instruction.taken, Instruction.given] at same
  omega

/-- On every way from the start of a subroutine, the stack holds what the next instruction takes, as
much as on any other way there: nothing at a label, and the value that is returned at a return. -/
theorem path_depth {source : String} {declaration : ClassDeclaration} {code : Code}
    {comments : Bool}
    (read : parse .classDeclaration (items source.toList) = .ok (.classDeclaration declaration))
    (compiles : compile comments source = .ok code)
    (few : ∀ s ∈ declaration.subroutines, ∀ count, .call count ∈ s.occurrences → count < 65535)
    (enters : Enters code start) (path : Path code start position depth) :
    0 ≤ depth ∧
    (∀ other more, Enters code other → Path code other position more → more = depth) ∧
    ∀ instruction, code[position]? = some instruction →
      instruction.taken ≤ depth ∧
      (∀ name, instruction = .label name → depth = 0) ∧
      (instruction = .ret → depth = 1) := by
  obtain ⟨-, faultless, rfl⟩ := unit_compiled read compiles
  have balanced : level (declaration.code comments) 0 = some 0 :=
    ClassDeclaration.level_code faultless few
  obtain ⟨height, here, rfl⟩ := depthAt_path balanced (depthAt_entry balanced enters) path
  refine ⟨Int.natCast_nonneg height, fun other more enters' path' => ?_, fun instruction there => ?_⟩
  · obtain ⟨height', here', rfl⟩ := depthAt_path balanced (depthAt_entry balanced enters') path'
    cases here.symm.trans here'
    rfl
  · obtain ⟨height', here', fits, -⟩ := depthAt_step balanced there
    cases here.symm.trans here'
    refine ⟨Int.ofNat_le.mpr fits.enough, ?_, ?_⟩
    · rintro name rfl
      exact congrArg Nat.cast (fits.border rfl)
    · rintro rfl
      exact congrArg Nat.cast (fits.border rfl)

end Paths

private def pickText : String :=
  "class A { function int pick(int x) { if (x) { return 1; } return 2; } }"

private def pickCode : Code :=
  [.function "A.pick" 0, .push .argument 0, .arithmetic .not, .ifGoto "A.IF_FALSE$17",
    .push .constant 1, .ret, .goto "A.IF_END$17", .label "A.IF_FALSE$17", .label "A.IF_END$17",
    .push .constant 2, .ret]

private def isFew : Occurrence → Bool
  | .call count => count < 65535
  | _ => true

theorem path_depth_pick :
    ∃ depth, Path pickCode 0 10 depth ∧ depth = 1 ∧
      ∀ other more, Enters pickCode other → Path pickCode other 10 more → more = depth := by
  have enters : Enters pickCode 0 := ⟨"A.pick", 0, rfl⟩
  have condition : Path pickCode 0 1 _ := .step .start rfl (.next rfl rfl)
  have test : Path pickCode 0 2 _ := .step condition rfl (.next rfl rfl)
  have branch : Path pickCode 0 3 _ := .step test rfl (.next rfl rfl)
  have skipped : Path pickCode 0 7 _ := .step branch rfl (.jump rfl rfl rfl)
  have done : Path pickCode 0 8 _ := .step skipped rfl (.next rfl rfl)
  have value : Path pickCode 0 9 _ := .step done rfl (.next rfl rfl)
  have path : Path pickCode 0 10 _ := .step value rfl (.next rfl rfl)
  have checked : (faultlessUnit? pickText).map (fun declaration => (declaration.code false,
      declaration.subroutines.all (·.occurrences.all isFew))) = some (pickCode, true) := by
    decide +kernel
  obtain ⟨declaration, found, same⟩ := Option.map_eq_some_iff.mp checked
  obtain ⟨same, counted⟩ := Prod.mk.inj same
  obtain ⟨read, compiles⟩ := compile_of_faultlessUnit? false found
  rw [same] at compiles
  have few : ∀ s ∈ declaration.subroutines, ∀ count,
      .call count ∈ s.occurrences → count < 65535 := by
    intro s member count called
    simpa [isFew] using List.all_eq_true.mp (List.all_eq_true.mp counted s member) _ called
  obtain ⟨-, only, stands⟩ := path_depth read compiles few enters path
  exact ⟨_, path, (stands .ret rfl).2.2 rfl, only⟩

end JackCompiler
