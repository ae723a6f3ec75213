import JackCompiler.Proofs.Meaning.Expression
import JackCompiler.Proofs.Meaning.Labels

namespace JackCompiler

open Lowering Machine

variable {World α : Type} {calls : Calls World} {program : Code}

def Point.state (point : Point World) (scratch : Scratch) (stack : List Value) : State World :=
  ⟨point.memory, point.frame, scratch, stack⟩

/-- How a run of code between two positions ends: behind the code, or at a return in it. -/
def Ends (calls : Calls World) (program : Code) (start : Config World) (low high : Nat)
    (stack : List Value) (after : Point World) : Outcome → Prop
  | .normal => ∃ scratch, Reaches calls program start ⟨high, after.state scratch stack⟩
  | .returned value => ∃ place scratch, low ≤ place ∧ place < high ∧
    program[place]? = some .ret ∧
    Reaches calls program start ⟨place, after.state scratch (value :: stack)⟩

namespace Ends

variable {start middle : Config World} {low high low' high' : Nat} {stack : List Value}
  {after : Point World} {outcome : Outcome}

theorem head (reaches : Reaches calls program start middle)
    (ends : Ends calls program middle low high stack after outcome) :
    Ends calls program start low high stack after outcome := by
  cases outcome with
  | normal =>
    obtain ⟨scratch, rest⟩ := ends
    exact ⟨scratch, reaches.trans rest⟩
  | returned value =>
    obtain ⟨place, scratch, least, less, there, rest⟩ := ends
    exact ⟨place, scratch, least, less, there, reaches.trans rest⟩

theorem widen {value : Value}
    (ends : Ends calls program start low high stack after (.returned value)) (least : low' ≤ low)
    (most : high ≤ high') : Ends calls program start low' high' stack after (.returned value) := by
  obtain ⟨place, scratch, least', less, there, reaches⟩ := ends
  exact ⟨place, scratch, by omega, by omega, there, reaches⟩

theorem followed (ends : Ends calls program start low high stack after outcome)
    (least : low' ≤ low) (most : high ≤ high')
    (rest : ∀ scratch, Reaches calls program ⟨high, after.state scratch stack⟩
      ⟨high', after.state scratch stack⟩) :
    Ends calls program start low' high' stack after outcome := by
  cases outcome with
  | normal =>
    obtain ⟨scratch, reaches⟩ := ends
    exact ⟨scratch, reaches.trans (rest scratch)⟩
  | returned value => exact ends.widen least most

theorem skip {position : Nat} {text : String} {state : State World}
    (ends : Ends calls program ⟨position, state⟩ low high stack after outcome)
    (there : program[position]? = some (.comment text)) (less : position < high) :
    Ends calls program ⟨position + 1, state⟩ low high stack after outcome := by
  -- A run that starts at a comment goes on behind it.
  have next (final : Config World) (differs : final.position ≠ position)
      (reaches : Reaches calls program ⟨position, state⟩ final) :
      Reaches calls program ⟨position + 1, state⟩ final := by
    rcases Relation.ReflTransGen.cases_head reaches with same | ⟨second, first, rest⟩
    · exact absurd (congrArg Config.position same.symm) differs
    · have same : step calls program ⟨position, state⟩ = some ⟨position + 1, state⟩ :=
        step_of_run there rfl
      rw [same] at first
      cases first
      exact rest
  cases outcome with
  | normal =>
    obtain ⟨scratch, reaches⟩ := ends
    exact ⟨scratch, next _ (Nat.ne_of_gt less) reaches⟩
  | returned value =>
    obtain ⟨place, scratch, least, most, returns, reaches⟩ := ends
    refine ⟨place, scratch, least, most, returns, next _ ?_ reaches⟩
    rintro rfl
    rw [there] at returns
    cases returns

theorem behind_marker {position : Nat} {comments : Bool} {text : String} {code : Code}
    {state : State World} (ends : Ends calls program ⟨position, state⟩ low high stack after outcome)
    (located : CodeAt program position (marker comments text ++ code)) (less : position < high) :
    Ends calls program ⟨position + (marker comments text).length, state⟩ low high stack after
      outcome := by
  cases comments with
  | false => exact ends
  | true => exact ends.skip located.head less

end Ends

theorem reaches_next {start : Config World} {position finish : Nat} {instruction : Instruction}
    {state next : State World} (reaches : Reaches calls program start ⟨position, state⟩)
    (there : program[position]? = some instruction) (runs : run calls instruction state = some next)
    (same : finish = position + 1) : Reaches calls program start ⟨finish, next⟩ := by
  subst same
  exact reaches.tail (step_of_run there runs)

section Straight

variable {frame : Frame} {memory next : Memory World} {position : Nat} {code first : Code}
  {x : Action World α} {result : α} {before : List Value} {after : α → List Value}

theorem Turns.reaches (turns : Turns calls frame before code x after)
    (located : CodeAt program position code) (found : x memory = some (result, next))
    (scratch : Scratch) (stack : List Value) :
    ∃ scratch', Reaches calls program ⟨position, ⟨memory, frame, scratch, before ++ stack⟩⟩
      ⟨position + code.length, ⟨next, frame, scratch', after result ++ stack⟩⟩ := by
  have whole := turns memory scratch stack
  rw [found, Option.map_some, Option.map_eq_some_iff] at whole
  obtain ⟨state, runs, seen⟩ := whole
  obtain ⟨memory', frame', scratch', stack'⟩ := state
  cases seen
  exact ⟨scratch', reaches_of_exec located runs⟩

def Idle (calls : Calls World) (code : Code) : Prop := ∀ state, exec calls code state = some state

theorem idle_marker (comments : Bool) (text : String) : Idle calls (marker comments text) := by
  intro state
  cases comments <;> rfl

theorem Idle.label (idle : Idle calls code) (name : String) :
    Idle calls (code ++ [.label name]) := by
  intro state
  rw [exec_append, idle state]
  rfl

theorem Idle.turns (idle : Idle calls first) (turns : Turns calls frame before code x after) :
    Turns calls frame before (first ++ code) x after := by
  intro memory scratch stack
  rw [exec_append, idle]
  exact turns memory scratch stack

end Straight

section Conditions

variable {frame : Frame} {memory middle : Memory World} {position place : Nat}
  {before condition : Code} {name : String} {x : Action World Value} {value : Value}

theorem not_eq_zero_iff : ~~~value = 0 ↔ value = -1 := by
  constructor
  · intro zero
    rw [← BitVec.not_not (b := value), zero]
    rfl
  · rintro rfl
    rfl

def guardCode (before condition : Code) (name : String) : Code :=
  before ++ condition ++ [.arithmetic .not, .ifGoto name]

private theorem reaches_guard (idle : Idle calls before) (turns : Turns calls frame [] condition x one)
    (located : CodeAt program position (guardCode before condition name))
    (found : x memory = some (value, middle)) (scratch : Scratch) (stack : List Value) :
    ∃ scratch', Reaches calls program ⟨position, ⟨memory, frame, scratch, stack⟩⟩
      ⟨position + (before ++ condition).length + 1,
        ⟨middle, frame, scratch', ~~~value :: stack⟩⟩ := by
  obtain ⟨scratch', reaches⟩ := (idle.turns turns).reaches located.left found scratch stack
  refine ⟨scratch', reaches.tail ?_⟩
  exact step_of_run located.right.head rfl

theorem guard_passes (idle : Idle calls before) (turns : Turns calls frame [] condition x one)
    (located : CodeAt program position (guardCode before condition name))
    (found : x memory = some (-1, middle)) (scratch : Scratch) (stack : List Value) :
    ∃ scratch', Reaches calls program ⟨position, ⟨memory, frame, scratch, stack⟩⟩
      ⟨position + (guardCode before condition name).length,
        ⟨middle, frame, scratch', stack⟩⟩ := by
  obtain ⟨scratch', reaches⟩ := reaches_guard idle turns located found scratch stack
  refine ⟨scratch', reaches.tail ?_⟩
  rw [step, located.right.tail.head]
  simp [guardCode, Nat.add_assoc]

theorem guard_jumps (distinct : (labels program).Nodup) (idle : Idle calls before)
    (turns : Turns calls frame [] condition x one)
    (located : CodeAt program position (guardCode before condition name))
    (there : program[place]? = some (.label name))
    (found : x memory = some (value, middle)) (fails : value ≠ -1) (scratch : Scratch)
    (stack : List Value) :
    ∃ scratch', Reaches calls program ⟨position, ⟨memory, frame, scratch, stack⟩⟩
      ⟨place, ⟨middle, frame, scratch', stack⟩⟩ := by
  obtain ⟨scratch', reaches⟩ := reaches_guard idle turns located found scratch stack
  refine ⟨scratch', reaches.tail ?_⟩
  rw [step, located.right.tail.head]
  simp only
  rw [if_neg (mt not_eq_zero_iff.mp fails), target_eq distinct there]
  rfl

end Conditions

theorem reaches_label {position finish : Nat} {name : String} (state : State World)
    (there : program[position]? = some (.label name)) (same : finish = position + 1) :
    Reaches calls program ⟨position, state⟩ ⟨finish, state⟩ :=
  reaches_next .refl there rfl same

theorem reaches_goto {position place : Nat} {name : String} (distinct : (labels program).Nodup)
    (state : State World) (jumps : program[position]? = some (.goto name))
    (there : program[place]? = some (.label name)) :
    Reaches calls program ⟨position, state⟩ ⟨place, state⟩ := by
  apply Relation.ReflTransGen.single
  rw [step, jumps]
  simp only
  rw [target_eq distinct there]
  rfl

section Simple

variable {context : Context} {bindings : Bindings} {number position : Nat} {frame : Frame}
  {memory middle after : Memory World} {scratch : Scratch} {stack : List Value} {value : Value}

theorem run_pop {binding : Binding} (fits : binding.index < 65536) (name : String)
    {point : Point World} (stored : binding.store value ⟨frame, memory⟩ = some point) :
    run calls (binding.entry name).pop ⟨memory, frame, scratch, value :: stack⟩ =
      some (point.state scratch stack) := by
  rw [Variable.pop, run, Binding.ordinal_toNat fits]
  obtain ⟨kind, index, typeName⟩ := binding
  cases kind
  all_goals
    obtain ⟨changed, same, rfl⟩ := Option.map_eq_some_iff.mp stored
    exact Option.map_eq_some_iff.mpr ⟨changed, same, rfl⟩

private theorem ends_straight {code : Code} {x : Action World α} {result : α}
    (turns : Turns calls frame [] code x fun _ => []) (located : CodeAt program position code)
    (found : x memory = some (result, after)) :
    Ends calls program ⟨position, ⟨memory, frame, scratch, stack⟩⟩ position
      (position + code.length) stack ⟨frame, after⟩ .normal :=
  turns.reaches located found scratch stack

private theorem ends_assign {keyword : Word ["let"]} {target : Name} {equals : Word ["="]}
    {e : Expression} {semicolon : Word [";"]} {binding : Binding} {point : Point World}
    (turns : Turns calls frame [] (e.code context) (e.value calls bindings frame) one)
    (knows : context.Knows bindings)
    (located : CodeAt program position
      ((Statement.assign keyword target equals e semicolon).code context number))
    (found : e.value calls bindings frame memory = some (value, middle))
    (resolved : bindings.lookup target.val.value = some binding)
    (stored : binding.store value ⟨frame, middle⟩ = some point) :
    Ends calls program ⟨position, ⟨memory, frame, scratch, stack⟩⟩ position
      (position + ((Statement.assign keyword target equals e semicolon).code context
        number).length) stack point .normal := by
  have store : context.store target.val = [(binding.entry target.val.value).pop] := by
    rw [Context.store, knows.resolve_eq resolved]
  rw [Statement.code, store, ← List.append_assoc] at located ⊢
  obtain ⟨scratch', reaches⟩ :=
    ((idle_marker _ _).turns turns).reaches located.left found scratch stack
  refine ⟨scratch', reaches_next reaches located.right.head
    (run_pop (knows.fits _ _ resolved) _ stored) ?_⟩
  simp only [List.length_append, List.length_singleton, Nat.add_assoc]

theorem turns_storeCell (address value : Value) :
    Turns calls frame [value, address]
      [.pop .temp 0, .pop .pointer 1, .push .temp 0, .pop .that 0] (storeCell address value)
      fun _ => [] := by
  -- The value waits in a register while the address is taken from the stack.
  intro memory scratch stack
  change Option.map State.seen
      (((memory.store (address + BitVec.ofNat 16 0) value).map _).bind _) =
    ((memory.store address value).map ((), ·)).map _
  rw [show address + BitVec.ofNat 16 0 = address from BitVec.add_zero _]
  cases memory.store address value <;> rfl

theorem turns_address (base offset : Value) :
    Turns calls frame [offset, base] [.arithmetic .add] (pure (base + offset)) one :=
  .single fun _ _ _ => rfl

private theorem turns_assignElement {array : Token} {index e : Expression} {binding : Binding}
    (knows : context.Knows bindings) (resolved : bindings.lookup array.value = some binding)
    (first : Turns calls frame [] (index.code context) (index.value calls bindings frame) one)
    (second : Turns calls frame [] (e.code context) (e.value calls bindings frame) one) :
    Turns calls frame [] (context.load array ++ (index.code context ++ ([.arithmetic .add] ++
      (e.code context ++ [.pop .temp 0, .pop .pointer 1, .push .temp 0, .pop .that 0]))))
      (assignElement calls bindings frame array index e) fun _ => [] := by
  refine (turns_load knows resolved).bind fun base _ => ?_
  have offset : Turns calls frame [base] _ _ _ := first.lift [base]
  refine offset.bind fun offset _ => (turns_address base offset).pure_bind ?_
  have value : Turns calls frame [base + offset] _ _ _ := second.lift [base + offset]
  exact value.bind fun value _ => turns_storeCell (base + offset) value

private theorem turns_perform {call : Call}
    (turns : Turns calls frame [] (call.code context) (call.value calls bindings frame) one) :
    Turns calls frame [] (call.code context ++ [.pop .temp 0])
      (call.value calls bindings frame >>= fun _ => pure ()) fun _ => [] :=
  turns.bind fun _ _ => .single fun _ _ _ => rfl

private theorem ends_return {code : Code} {x : Action World Value}
    (turns : Turns calls frame [] code x one) (located : CodeAt program position (code ++ [.ret]))
    (found : x memory = some (value, after)) :
    Ends calls program ⟨position, ⟨memory, frame, scratch, stack⟩⟩ position
      (position + (code ++ [Instruction.ret]).length) stack ⟨frame, after⟩ (.returned value) := by
  obtain ⟨scratch', reaches⟩ := turns.reaches located.left found scratch stack
  refine ⟨_, scratch', Nat.le_add_right _ _, ?_, located.right.head, reaches⟩
  rw [List.length_append, List.length_singleton]
  omega

end Simple

section Branches

variable {frame : Frame} {memory middle : Memory World} {position number : Nat} {scratch : Scratch}
  {stack : List Value} {value : Value} {point : Point World} {outcome : Outcome}
  {x : Action World Value} {before condition body alternative : Code} {otherwise done : String}

def choiceCode (guard body alternative : Code) (otherwise done : String) : Code :=
  guard ++ body ++ [.goto done, .label otherwise] ++ alternative ++ [.label done]

private theorem ends_choice_holds (distinct : (labels program).Nodup) (idle : Idle calls before)
    (turns : Turns calls frame [] condition x one)
    (located : CodeAt program position
      (choiceCode (guardCode before condition otherwise) body alternative otherwise done))
    (found : x memory = some (-1, middle))
    (rest : ∀ place scratch, CodeAt program place body →
      Ends calls program ⟨place, ⟨middle, frame, scratch, stack⟩⟩ place (place + body.length) stack
        point outcome) :
    Ends calls program ⟨position, ⟨memory, frame, scratch, stack⟩⟩ position
      (position +
        (choiceCode (guardCode before condition otherwise) body alternative otherwise done).length)
      stack point outcome := by
  have inner := located.left.left
  have first := inner.left.right
  have jump := inner.right.head
  have label := located.right.head
  obtain ⟨scratch', enters⟩ := guard_passes idle turns inner.left.left found scratch stack
  refine ((rest _ scratch' first).followed ?_ ?_ fun scratch => ?_).head enters
  · omega
  · simp only [choiceCode, List.length_append]
    omega
  · rw [List.length_append, ← Nat.add_assoc] at jump
    refine (reaches_goto distinct _ jump label).trans (reaches_label _ label ?_)
    simp only [choiceCode, List.length_append, List.length_singleton, Nat.add_assoc]

private theorem ends_choice_fails (distinct : (labels program).Nodup) (idle : Idle calls before)
    (turns : Turns calls frame [] condition x one)
    (located : CodeAt program position
      (choiceCode (guardCode before condition otherwise) body alternative otherwise done))
    (found : x memory = some (value, middle)) (fails : value ≠ -1)
    (rest : ∀ place scratch, CodeAt program place alternative →
      program[place + alternative.length]? = some (.label done) →
      Ends calls program ⟨place, ⟨middle, frame, scratch, stack⟩⟩ place
        (place + alternative.length) stack point outcome) :
    Ends calls program ⟨position, ⟨memory, frame, scratch, stack⟩⟩ position
      (position +
        (choiceCode (guardCode before condition otherwise) body alternative otherwise done).length)
      stack point outcome := by
  have inner := located.left.left
  have target := inner.right.tail.head
  have second := located.left.right
  have label := located.right.head
  obtain ⟨scratch', enters⟩ := guard_jumps distinct idle turns inner.left.left target found fails
    scratch stack
  have entered := enters.trans (reaches_label _ target rfl)
  rw [List.length_append, List.length_cons, List.length_singleton, ← Nat.add_assoc] at second
  rw [List.length_append, List.length_append, List.length_cons, List.length_singleton,
    ← Nat.add_assoc, ← Nat.add_assoc] at label
  refine ((rest _ scratch' second label).followed ?_ ?_ fun scratch =>
    reaches_label _ label ?_).head entered
  · omega
  · simp only [choiceCode, List.length_append, List.length_cons]
    omega
  · simp only [choiceCode, List.length_append, List.length_cons, List.length_nil]
    omega

end Branches

section Loops

variable {frame : Frame} {memory middle : Memory World} {position : Nat} {scratch : Scratch}
  {stack : List Value} {value : Value} {again point : Point World} {outcome : Outcome}
  {x : Action World Value} {comments : Bool} {condition body : Code} {start done : String}

def loopCode (comments : Bool) (condition body : Code) (start done : String) : Code :=
  guardCode (marker comments "while" ++ [.label start]) condition done ++ body ++
    [.goto start, .label done]

private theorem idle_loop (comments : Bool) (start : String) :
    Idle calls (marker comments "while" ++ [.label start]) :=
  (idle_marker comments _).label start

private theorem ends_loop_fails (distinct : (labels program).Nodup)
    (turns : Turns calls frame [] condition x one)
    (located : CodeAt program position (loopCode comments condition body start done))
    (found : x memory = some (value, middle)) (fails : value ≠ -1) :
    Ends calls program ⟨position, ⟨memory, frame, scratch, stack⟩⟩ position
      (position + (loopCode comments condition body start done).length) stack ⟨frame, middle⟩
      .normal := by
  have label := located.right.tail.head
  obtain ⟨scratch', leaves⟩ := guard_jumps distinct (idle_loop comments start) turns
    located.left.left label found fails scratch stack
  refine ⟨scratch', leaves.trans (reaches_label _ label ?_)⟩
  simp only [loopCode, List.length_append, List.length_cons, List.length_nil]
  omega

private theorem ends_loop_returns (turns : Turns calls frame [] condition x one)
    (located : CodeAt program position (loopCode comments condition body start done))
    (found : x memory = some (-1, middle))
    (rest : ∀ place scratch, CodeAt program place body →
      Ends calls program ⟨place, ⟨middle, frame, scratch, stack⟩⟩ place (place + body.length) stack
        point (.returned value)) :
    Ends calls program ⟨position, ⟨memory, frame, scratch, stack⟩⟩ position
      (position + (loopCode comments condition body start done).length) stack point
      (.returned value) := by
  obtain ⟨scratch', enters⟩ := guard_passes (idle_loop comments start) turns
    located.left.left found scratch stack
  refine ((rest _ scratch' located.left.right).widen ?_ ?_).head enters
  · omega
  · simp only [loopCode, List.length_append]
    omega

private theorem ends_loop_repeats (distinct : (labels program).Nodup)
    (turns : Turns calls frame [] condition x one)
    (located : CodeAt program position (loopCode comments condition body start done))
    (found : x memory = some (-1, middle))
    (once : ∀ place scratch, CodeAt program place body →
      Ends calls program ⟨place, ⟨middle, frame, scratch, stack⟩⟩ place (place + body.length) stack
        again .normal)
    (rest : ∀ scratch, Ends calls program ⟨position, again.state scratch stack⟩ position
      (position + (loopCode comments condition body start done).length) stack point outcome) :
    Ends calls program ⟨position, ⟨memory, frame, scratch, stack⟩⟩ position
      (position + (loopCode comments condition body start done).length) stack point outcome := by
  -- The jump back leads behind the marker of the loop.
  have marked := located.left.left.left.left
  have label := marked.right.head
  have jump := located.right.head
  obtain ⟨scratch', enters⟩ := guard_passes (idle_loop comments start) turns
    located.left.left found scratch stack
  obtain ⟨scratch'', passes⟩ := once _ scratch' located.left.right
  rw [List.length_append, ← Nat.add_assoc] at jump
  have back := (enters.trans passes).trans (reaches_goto distinct _ jump label)
  -- The rest of the run starts before the marker, and its first step passes it.
  refine ((rest scratch'').behind_marker marked ?_).head back
  simp only [loopCode, List.length_append, List.length_cons]
  omega

end Loops

section Runs

variable {context : Context} {bindings : Bindings} {before middle after : Point World}
  {outcome : Outcome} {s : Statement} {rest statements : List Statement}

/-- The code of statements ends as they do, wherever it stands in a program. -/
private def Simulates (context : Context) (bindings : Bindings) (calls : Calls World)
    (program : Code) (statements : List Statement) (before : Point World) (outcome : Outcome)
    (after : Point World) : Prop :=
  Covered bindings (statementOccurrences statements) →
    ∀ number position scratch stack,
      CodeAt program position (statementCode context number statements) →
        Ends calls program ⟨position, before.state scratch stack⟩ position
          (position + (statementCode context number statements).length) stack after outcome

private theorem simulates_single
    (each : Covered bindings s.occurrences → ∀ number position scratch stack,
      CodeAt program position (s.code context number) →
        Ends calls program ⟨position, before.state scratch stack⟩ position
          (position + (s.code context number).length) stack after outcome) :
    Simulates context bindings calls program [s] before outcome after := by
  intro covered number position scratch stack
  rw [statementCode, statementCode, List.append_nil]
  rw [statementOccurrences, statementOccurrences, List.append_nil] at covered
  exact each covered number position scratch stack

private theorem simulates_cons
    (first : Simulates context bindings calls program [s] before .normal middle)
    (second : Simulates context bindings calls program rest middle outcome after) :
    Simulates context bindings calls program (s :: rest) before outcome after := by
  intro covered number position scratch stack located
  rw [statementOccurrences] at covered
  have one := first (by simpa [statementOccurrences] using covered.mono (by simp)) number
    position scratch stack
  rw [statementCode, statementCode, List.append_nil] at one
  rw [statementCode] at located ⊢
  obtain ⟨scratch', reaches⟩ := one located.left
  have more := second (covered.mono (by simp)) _ _ scratch' stack located.right
  rw [List.length_append, ← Nat.add_assoc]
  cases outcome with
  | normal => exact more.head reaches
  | returned value => exact (more.widen (Nat.le_add_right _ _) (Nat.le_refl _)).head reaches

private theorem simulates_stop {value : Value}
    (first : Simulates context bindings calls program [s] before (.returned value) after) :
    Simulates context bindings calls program (s :: rest) before (.returned value) after := by
  intro covered number position scratch stack located
  rw [statementOccurrences] at covered
  have one := first (by simpa [statementOccurrences] using covered.mono (by simp)) number
    position scratch stack
  rw [statementCode, statementCode, List.append_nil] at one
  rw [statementCode] at located ⊢
  apply (one located.left).widen (Nat.le_refl _)
  rw [List.length_append, ← Nat.add_assoc]
  exact Nat.le_add_right _ _

private theorem Simulates.block {body : Block} {frame : Frame} {memory : Memory World}
    (inner : Simulates context bindings calls program body.statements ⟨frame, memory⟩ outcome after)
    (covered : Covered bindings body.occurrences) (number : Nat) (stack : List Value) (place : Nat)
    (scratch : Scratch) (located : CodeAt program place (body.code context number)) :
    Ends calls program ⟨place, ⟨memory, frame, scratch, stack⟩⟩ place
      (place + (body.code context number).length) stack after outcome := by
  obtain ⟨opening, statements, closing⟩ := body
  rw [Block.occurrences] at covered
  rw [Block.code] at located ⊢
  exact inner covered _ place scratch stack located

private theorem simulates_assign {keyword : Word ["let"]} {target : Name} {equals : Word ["="]}
    {e : Expression} {semicolon : Word [";"]} {binding : Binding} {frame : Frame}
    {memory next : Memory World} {value : Value} (knows : context.Knows bindings)
    (found : e.value calls bindings frame memory = some (value, next))
    (resolved : bindings.lookup target.val.value = some binding)
    (stored : binding.store value ⟨frame, next⟩ = some after) :
    Simulates context bindings calls program [.assign keyword target equals e semicolon]
      ⟨frame, memory⟩ .normal after := by
  apply simulates_single
  intro covered number position scratch stack located
  rw [Statement.occurrences] at covered
  exact ends_assign (e.turns knows (covered.mono (by simp))) knows located found resolved stored

private theorem simulates_assignElement {keyword : Word ["let"]} {array : Name}
    {opening : Word ["["]} {index : Expression} {closing : Word ["]"]} {equals : Word ["="]}
    {e : Expression} {semicolon : Word [";"]} {frame : Frame} {memory next : Memory World}
    (knows : context.Knows bindings)
    (found : assignElement calls bindings frame array.val index e memory = some ((), next)) :
    Simulates context bindings calls program
      [.assignElement keyword array opening index closing equals e semicolon]
      ⟨frame, memory⟩ .normal ⟨frame, next⟩ := by
  apply simulates_single
  intro covered number position scratch stack located
  rw [Statement.occurrences] at covered
  obtain ⟨binding, resolved⟩ := covered.names array.val (by simp)
  rw [Statement.code] at located ⊢
  simp only [List.append_assoc] at located ⊢
  exact ends_straight ((idle_marker _ _).turns (turns_assignElement knows resolved
    (index.turns knows (covered.mono (by simp))) (e.turns knows (covered.mono (by simp)))))
    located found

private theorem simulates_perform {keyword : Word ["do"]} {call : Call} {semicolon : Word [";"]}
    {frame : Frame} {memory next : Memory World} {value : Value} (knows : context.Knows bindings)
    (found : call.value calls bindings frame memory = some (value, next)) :
    Simulates context bindings calls program [.perform keyword call semicolon] ⟨frame, memory⟩
      .normal ⟨frame, next⟩ := by
  apply simulates_single
  intro covered number position scratch stack located
  rw [Statement.occurrences] at covered
  rw [Statement.code, List.append_assoc] at located ⊢
  have dropped : (call.value calls bindings frame >>= fun _ => pure ()) memory = some ((), next) :=
    Option.bind_eq_some_iff.mpr ⟨_, found, rfl⟩
  exact ends_straight ((idle_marker _ _).turns (turns_perform (call.turns knows covered))) located
    dropped

private theorem simulates_returnNothing {keyword : Word ["return"]} {semicolon : Word [";"]}
    {point : Point World} :
    Simulates context bindings calls program [.returnNothing keyword semicolon] point (.returned 0)
      point := by
  apply simulates_single
  intro covered number position scratch stack located
  have zero : Turns calls point.frame [] [.push .constant 0] (pure 0) one := turns_constant 0
  rw [Statement.code] at located ⊢
  exact ends_return ((idle_marker _ _).turns zero) located rfl

private theorem simulates_returnValue {keyword : Word ["return"]} {e : Expression}
    {semicolon : Word [";"]} {frame : Frame} {memory next : Memory World} {value : Value}
    (knows : context.Knows bindings)
    (found : e.value calls bindings frame memory = some (value, next)) :
    Simulates context bindings calls program [.returnValue keyword e semicolon] ⟨frame, memory⟩
      (.returned value) ⟨frame, next⟩ := by
  apply simulates_single
  intro covered number position scratch stack located
  rw [Statement.occurrences] at covered
  rw [Statement.code] at located ⊢
  exact ends_return ((idle_marker _ _).turns (e.turns knows (covered.mono (by simp)))) located found

variable {keyword : Word ["if"]} {opening : Word ["("]} {condition : Expression}
  {closing : Word [")"]} {body alternative : Block} {otherwise : Word ["else"]} {frame : Frame}
  {memory next : Memory World} {value : Value}

private theorem simulates_ifThenHolds (distinct : (labels program).Nodup)
    (knows : context.Knows bindings)
    (found : condition.value calls bindings frame memory = some (-1, next))
    (inner : Simulates context bindings calls program body.statements ⟨frame, next⟩ outcome after) :
    Simulates context bindings calls program [.ifThen keyword opening condition closing body]
      ⟨frame, memory⟩ outcome after := by
  apply simulates_single
  intro covered number position scratch stack located
  rw [Statement.occurrences] at covered
  rw [Statement.code, ← List.append_nil (_ ++ [Instruction.goto _, .label _])] at located ⊢
  exact ends_choice_holds distinct (idle_marker _ _)
    (condition.turns knows (covered.mono (by simp))) located found
    (inner.block (covered.mono (by simp)) _ stack)

private theorem simulates_ifThenFails (distinct : (labels program).Nodup)
    (knows : context.Knows bindings)
    (found : condition.value calls bindings frame memory = some (value, next)) (fails : value ≠ -1) :
    Simulates context bindings calls program [.ifThen keyword opening condition closing body]
      ⟨frame, memory⟩ .normal ⟨frame, next⟩ := by
  apply simulates_single
  intro covered number position scratch stack located
  rw [Statement.occurrences] at covered
  rw [Statement.code, ← List.append_nil (_ ++ [Instruction.goto _, .label _])] at located ⊢
  exact ends_choice_fails distinct (idle_marker _ _)
    (condition.turns knows (covered.mono (by simp))) located found fails
    fun place scratch _ _ => ⟨scratch, .refl⟩

private theorem simulates_ifElseHolds (distinct : (labels program).Nodup)
    (knows : context.Knows bindings)
    (found : condition.value calls bindings frame memory = some (-1, next))
    (inner : Simulates context bindings calls program body.statements ⟨frame, next⟩ outcome after) :
    Simulates context bindings calls program
      [.ifElse keyword opening condition closing body otherwise alternative]
      ⟨frame, memory⟩ outcome after := by
  apply simulates_single
  intro covered number position scratch stack located
  rw [Statement.occurrences] at covered
  rw [Statement.code] at located ⊢
  exact ends_choice_holds distinct (idle_marker _ _)
    (condition.turns knows (covered.mono (by simp))) located found
    (inner.block (covered.mono (by simp)) _ stack)

private theorem simulates_ifElseFails (distinct : (labels program).Nodup)
    (knows : context.Knows bindings)
    (found : condition.value calls bindings frame memory = some (value, next)) (fails : value ≠ -1)
    (inner : Simulates context bindings calls program alternative.statements ⟨frame, next⟩ outcome
      after) :
    Simulates context bindings calls program
      [.ifElse keyword opening condition closing body otherwise alternative]
      ⟨frame, memory⟩ outcome after := by
  apply simulates_single
  intro covered number position scratch stack located
  rw [Statement.occurrences] at covered
  rw [Statement.code] at located ⊢
  refine ends_choice_fails distinct (idle_marker _ _)
    (condition.turns knows (covered.mono (by simp))) located found fails
    fun place scratch second label => ?_
  have jump := second.right.head
  rw [List.length_append, List.length_singleton, ← Nat.add_assoc] at label ⊢
  exact (inner.block (covered.mono (by simp)) _ stack place scratch second.left).followed
    (Nat.le_refl _) (Nat.le_succ _) fun scratch => reaches_goto distinct _ jump label

variable {keyword' : Word ["while"]}

private theorem simulates_loopEnds (distinct : (labels program).Nodup)
    (knows : context.Knows bindings)
    (found : condition.value calls bindings frame memory = some (value, next)) (fails : value ≠ -1) :
    Simulates context bindings calls program [.loop keyword' opening condition closing body]
      ⟨frame, memory⟩ .normal ⟨frame, next⟩ := by
  apply simulates_single
  intro covered number position scratch stack located
  rw [Statement.occurrences] at covered
  rw [Statement.code] at located ⊢
  exact ends_loop_fails distinct (condition.turns knows (covered.mono (by simp))) located found fails

private theorem simulates_loopRepeats {again : Point World} (distinct : (labels program).Nodup)
    (knows : context.Knows bindings)
    (found : condition.value calls bindings frame memory = some (-1, next))
    (once : Simulates context bindings calls program body.statements ⟨frame, next⟩ .normal again)
    (rest : Simulates context bindings calls program
      [.loop keyword' opening condition closing body] again outcome after) :
    Simulates context bindings calls program [.loop keyword' opening condition closing body]
      ⟨frame, memory⟩ outcome after := by
  apply simulates_single
  intro covered number position scratch stack located
  have more (scratch : Scratch) := rest
    (by rwa [statementOccurrences, statementOccurrences, List.append_nil]) number position scratch
    stack
  rw [statementCode, statementCode, List.append_nil] at more
  rw [Statement.occurrences] at covered
  rw [Statement.code] at located more ⊢
  exact ends_loop_repeats distinct (condition.turns knows (covered.mono (by simp))) located found
    (once.block (covered.mono (by simp)) _ stack) fun scratch => more scratch located

private theorem simulates_loopReturns (knows : context.Knows bindings)
    (found : condition.value calls bindings frame memory = some (-1, next))
    (inner : Simulates context bindings calls program body.statements ⟨frame, next⟩
      (.returned value) after) :
    Simulates context bindings calls program [.loop keyword' opening condition closing body]
      ⟨frame, memory⟩ (.returned value) after := by
  apply simulates_single
  intro covered number position scratch stack located
  rw [Statement.occurrences] at covered
  rw [Statement.code] at located ⊢
  exact ends_loop_returns (condition.turns knows (covered.mono (by simp))) located found
    (inner.block (covered.mono (by simp)) _ stack)

private theorem simulates_all (distinct : (labels program).Nodup) (knows : context.Knows bindings)
    (runs : Runs calls bindings statements before outcome after) :
    Simulates context bindings calls program statements before outcome after := by
  -- On the run and not on the statements: a loop goes on with a run of the same loop.
  induction runs with
  | nil => exact fun _ _ _ scratch _ _ => ⟨scratch, .refl⟩
  | cons _ _ first second => exact simulates_cons first second
  | stop _ first => exact simulates_stop first
  | assign found resolved stored => exact simulates_assign knows found resolved stored
  | assignElement found => exact simulates_assignElement knows found
  | ifThenHolds found _ inner => exact simulates_ifThenHolds distinct knows found inner
  | ifThenFails found fails => exact simulates_ifThenFails distinct knows found fails
  | ifElseHolds found _ inner => exact simulates_ifElseHolds distinct knows found inner
  | ifElseFails found fails _ inner =>
    exact simulates_ifElseFails distinct knows found fails inner
  | loopEnds found fails => exact simulates_loopEnds distinct knows found fails
  | loopRepeats found _ _ once rest => exact simulates_loopRepeats distinct knows found once rest
  | loopReturns found _ inner => exact simulates_loopReturns knows found inner
  | perform found => exact simulates_perform knows found
  | returnNothing => exact simulates_returnNothing
  | returnValue found => exact simulates_returnValue knows found

/-- In a program with distinct labels, the code of statements ends as the statements do. -/
theorem Runs.ends (distinct : (labels program).Nodup) (knows : context.Knows bindings)
    (covered : Covered bindings (statementOccurrences statements)) {number position : Nat}
    (located : CodeAt program position (statementCode context number statements))
    (runs : Runs calls bindings statements before outcome after) (scratch : Scratch)
    (stack : List Value) :
    Ends calls program ⟨position, before.state scratch stack⟩ position
      (position + (statementCode context number statements).length) stack after outcome :=
  simulates_all distinct knows runs covered number position scratch stack located

end Runs

end JackCompiler
