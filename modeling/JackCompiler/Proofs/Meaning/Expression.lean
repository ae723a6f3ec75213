import JackCompiler.Proofs.Meaning.Resolution

namespace JackCompiler

open Lowering Machine

variable {World α β : Type} {calls : Calls World} {frame : Frame}

/-- What is left to see of a state but for the scratch registers. -/
def Machine.State.seen (state : State World) : Memory World × Frame × List Value :=
  (state.memory, state.frame, state.stack)

/-- On top of any stack, the code turns the values `before` into those `after` says, and it does to
the memory what the action does. -/
def Turns (calls : Calls World) (frame : Frame) (before : List Value) (code : Code)
    (x : Action World α) (after : α → List Value) : Prop :=
  ∀ memory scratch stack,
    (exec calls code ⟨memory, frame, scratch, before ++ stack⟩).map State.seen =
      (x memory).map fun result => (result.2, frame, after result.1 ++ stack)

namespace Turns

variable {before below : List Value} {first second code : Code} {x : Action World α}
  {y : α → Action World β} {middle after : α → List Value} {last : β → List Value}

theorem bind (turns : Turns calls frame before first x middle)
    (rest : ∀ r, (∃ memory next, x memory = some (r, next)) →
      Turns calls frame (middle r) second (y r) last) :
    Turns calls frame before (first ++ second) (x >>= y) last := by
  intro memory scratch stack
  have start := turns memory scratch stack
  rw [exec_append]
  change _ = ((x memory).bind fun result => y result.1 result.2).map _
  cases result : x memory with
  | none =>
    rw [result, Option.map_none, Option.map_eq_none_iff] at start
    rw [start]
    rfl
  | some result' =>
    obtain ⟨r, next⟩ := result'
    rw [result, Option.map_some, Option.map_eq_some_iff] at start
    obtain ⟨state, runs, seen⟩ := start
    obtain ⟨memory', frame', scratch', stack'⟩ := state
    cases seen
    rw [runs]
    exact rest r ⟨memory, next, result⟩ next scratch' stack

theorem lift (turns : Turns calls frame before code x after) (below : List Value) :
    Turns calls frame (before ++ below) code x fun r => after r ++ below := by
  intro memory scratch stack
  rw [List.append_assoc, turns memory scratch (below ++ stack)]
  simp only [List.append_assoc]

theorem pure_bind {r : α} {y : Action World β} (turns : Turns calls frame before first (pure r) middle)
    (rest : Turns calls frame (middle r) second y last) :
    Turns calls frame before (first ++ second) y last := by
  have whole : Turns calls frame before (first ++ second) (pure r >>= fun _ => y) last :=
    turns.bind fun r' ⟨memory, next, same⟩ => by
      cases same
      exact rest
  exact whole

theorem map {f : α → β} (turns : Turns calls frame before code x after)
    (same : ∀ r, after r = last (f r)) :
    Turns calls frame before code (x >>= fun r => pure (f r)) last := by
  have done (r : α) : Turns calls frame (after r) [] (pure (f r) : Action World β) last := by
    rw [same]
    exact fun _ _ _ => rfl
  have whole := turns.bind fun r _ => done r
  rwa [List.append_nil] at whole

theorem single {instruction : Instruction}
    (runs : ∀ memory scratch stack,
      (run calls instruction ⟨memory, frame, scratch, before ++ stack⟩).map State.seen =
        (x memory).map fun result => (result.2, frame, after result.1 ++ stack)) :
    Turns calls frame before [instruction] x after := by
  intro memory scratch stack
  rw [exec_single]
  exact runs memory scratch stack

end Turns

section Instructions

abbrev one (value : Value) : List Value := [value]

theorem ofNat_toNat (n : Nat) : BitVec.ofNat 16 (UInt16.ofNat n).toNat = BitVec.ofNat 16 n := by
  apply BitVec.eq_of_toNat_eq
  simp

theorem turns_constant (index : UInt16) :
    Turns calls frame [] [.push .constant index] (pure (BitVec.ofNat 16 index.toNat)) one :=
  .single fun _ _ _ => rfl

theorem turns_this : Turns calls frame [] [.push .pointer 0] (pure frame.this) one :=
  .single fun _ _ _ => rfl

theorem turns_call (name : String) {count : UInt16} {values : List Value}
    (same : count.toNat = values.length) :
    Turns calls frame values.reverse [.call name count] (calls.invoke name values) one := by
  apply Turns.single
  intro memory scratch stack
  have taken : (values.reverse ++ stack).take count.toNat = values.reverse := by
    rw [same, ← List.length_reverse, List.take_left]
  have left : (values.reverse ++ stack).drop count.toNat = stack := by
    rw [same, ← List.length_reverse, List.drop_left]
  have enough : count.toNat ≤ (values.reverse ++ stack).length := by
    rw [List.length_append, List.length_reverse]
    omega
  simp only [run, taken, left, if_pos enough, List.reverse_reverse, Option.map_map]
  rfl

theorem turns_binary {operator : String} (known : operator ∈ binaryOperators) (x y : Value) :
    Turns calls frame [y, x] [binaryInstruction operator] (binaryValue calls operator x y) one := by
  have multiply : Turns calls frame [x, y].reverse [.call "Math.multiply" 2] _ one :=
    turns_call "Math.multiply" rfl
  have divide : Turns calls frame [x, y].reverse [.call "Math.divide" 2] _ one :=
    turns_call "Math.divide" rfl
  simp only [binaryOperators, List.mem_cons, List.not_mem_nil, or_false] at known
  rcases known with rfl | rfl | rfl | rfl | rfl | rfl | rfl | rfl | rfl
  case inr.inr.inl => exact multiply
  case inr.inr.inr.inl => exact divide
  all_goals exact .single fun _ _ _ => rfl

theorem turns_unary {operator : String} (known : operator ∈ unaryOperators) (x : Value) :
    Turns calls frame [x] [unaryInstruction operator] (pure (unaryValue operator x)) one := by
  simp only [unaryOperators, List.mem_cons, List.not_mem_nil, or_false] at known
  rcases known with rfl | rfl
  · exact .single fun _ _ _ => rfl
  · exact .single fun _ _ _ => rfl

theorem turns_element (base offset : Value) :
    Turns calls frame [offset, base] [.arithmetic .add, .pop .pointer 1, .push .that 0]
      (cell (base + offset)) one := by
  intro memory scratch stack
  change Option.map State.seen (((memory.heap (base + offset + BitVec.ofNat 16 0)).map _).bind _) =
    ((memory.heap (base + offset)).map (·, memory)).map _
  rw [show base + offset + BitVec.ofNat 16 0 = base + offset from BitVec.add_zero _]
  cases memory.heap (base + offset) <;> rfl

end Instructions

/-- What occurs in a phrase is bound, and its calls are short enough. -/
structure Covered (bindings : Bindings) (occurrences : List Occurrence) : Prop where
  names : ∀ name, .variable name ∈ occurrences →
    ∃ binding, bindings.lookup name.value = some binding
  calls : ∀ count, .call count ∈ occurrences → count < 65535

theorem Covered.mono {bindings : Bindings} {small large : List Occurrence}
    (covered : Covered bindings large) (within : small ⊆ large) : Covered bindings small :=
  ⟨fun name member => covered.names name (within member),
    fun count member => covered.calls count (within member)⟩

section Terms

variable {context : Context} {bindings : Bindings}

theorem Context.Knows.resolve_eq (knows : context.Knows bindings) {name : String}
    {binding : Binding} (found : bindings.lookup name = some binding) :
    context.resolve name = some (binding.entry name) := by
  rw [knows.resolve, found]
  rfl

theorem Binding.ordinal_toNat {binding : Binding} (fits : binding.index < 65536) (name : String) :
    (binding.entry name).ordinal.toNat = binding.index :=
  UInt16.toNat_ofNat_of_lt' fits

theorem turns_push {binding : Binding} (fits : binding.index < 65536) (name : String) :
    Turns calls frame [] [(binding.entry name).push] (binding.value frame) one := by
  apply Turns.single
  intro memory scratch stack
  rw [Variable.push, run, Binding.ordinal_toNat fits]
  obtain ⟨kind, index, typeName⟩ := binding
  cases kind
  case static =>
    change Option.map _ (Option.map _ memory.statics[index]?) = _
    cases same : memory.statics[index]? <;> simp [Binding.value, same, State.seen]
  case field =>
    change Option.map _ (Option.map _ (memory.heap (frame.this + BitVec.ofNat 16 index))) = _
    cases same : memory.heap (frame.this + BitVec.ofNat 16 index) <;>
      simp [Binding.value, cell, same, State.seen]
  case argument =>
    change Option.map _ (Option.map _ frame.arguments[index]?) = _
    cases same : frame.arguments[index]? <;> simp [Binding.value, same, State.seen]
  case localVariable =>
    change Option.map _ (Option.map _ frame.locals[index]?) = _
    cases same : frame.locals[index]? <;> simp [Binding.value, same, State.seen]

theorem turns_load (knows : context.Knows bindings) {name : Token} {binding : Binding}
    (found : bindings.lookup name.value = some binding) :
    Turns calls frame [] (context.load name) (variableValue bindings frame name) one := by
  rw [Context.load, knows.resolve_eq found, variableValue, found]
  exact turns_push (knows.fits _ _ found) name.value

private theorem turns_characters (text : List Char) (string : Value) :
    Turns calls frame [string] (text.flatMap characterCode)
      (text.foldlM (fun string c =>
        calls.invoke "String.appendChar" [string, BitVec.ofNat 16 c.toNat]) string) one := by
  induction text generalizing string with
  | nil => exact fun _ _ _ => rfl
  | cons c text ih =>
    have push : Turns calls frame [string] [.push .constant (UInt16.ofNat c.toNat)] _ _ :=
      (turns_constant (UInt16.ofNat c.toNat)).lift [string]
    have append : Turns calls frame [string, BitVec.ofNat 16 c.toNat].reverse
        [.call "String.appendChar" 2] _ one := turns_call "String.appendChar" rfl
    rw [List.flatMap_cons, List.foldlM_cons]
    refine Turns.bind (push.pure_bind ?_) fun next _ => ih next
    rw [ofNat_toNat]
    exact append

theorem turns_text (text : List Char) :
    Turns calls frame [] (textCode text) (textValue calls text) one := by
  have push : Turns calls frame [] _ _ one := turns_constant (UInt16.ofNat text.length)
  have new : Turns calls frame [BitVec.ofNat 16 text.length].reverse [.call "String.new" 1] _ one :=
    turns_call "String.new" rfl
  rw [ofNat_toNat] at push
  exact (push.pure_bind new).bind fun empty _ => turns_characters text empty

private theorem turns_word {word : String} (known : word ∈ constantWords) :
    Turns calls frame [] (constantCode word) (pure (constantValue frame word)) one := by
  simp only [constantWords, List.mem_cons, List.not_mem_nil, or_false] at known
  rcases known with rfl | rfl | rfl | rfl
  case inr.inr.inr => exact turns_this
  all_goals exact fun _ _ _ => rfl

theorem turns_literal (value : Literal) :
    Turns calls frame [] (literalCode value.val) (literalValue calls frame value.val) one := by
  obtain ⟨⟨line, kind, text⟩, passes⟩ := value
  cases kind with
  | keyword => exact turns_word (List.contains_iff_mem.mp passes)
  | integerConstant =>
    have push : Turns calls frame [] _ _ one :=
      turns_constant (UInt16.ofNat (decimalValue text.toList))
    rw [ofNat_toNat] at push
    exact push
  | stringConstant => exact turns_text _
  | symbol => cases passes
  | identifier => cases passes
  | eof => cases passes

private abbrev Computes (context : Context) (bindings : Bindings) (calls : Calls World)
    (frame : Frame) (occurrences : List Occurrence) (code : Code) (x : Action World Value) : Prop :=
  context.Knows bindings → Covered bindings occurrences → Turns calls frame [] code x one

private abbrev ComputesAll (context : Context) (bindings : Bindings) (calls : Calls World)
    (frame : Frame) (arguments : Arguments) : Prop :=
  context.Knows bindings → Covered bindings arguments.occurrences →
    Turns calls frame [] (arguments.code context) (arguments.values calls bindings frame)
      List.reverse

private theorem computes_binary {left : Expression} {operator : Word binaryOperators} {right : Term}
    (first : Computes context bindings calls frame left.occurrences (left.code context)
      (left.value calls bindings frame))
    (second : Computes context bindings calls frame right.occurrences (right.code context)
      (right.value calls bindings frame)) :
    Computes context bindings calls frame (Expression.binary left operator right).occurrences
      ((Expression.binary left operator right).code context)
      ((Expression.binary left operator right).value calls bindings frame) := by
  intro knows covered
  rw [Expression.occurrences] at covered
  rw [Expression.code, Expression.value, List.append_assoc]
  refine (first knows (covered.mono (by simp))).bind fun x _ => ?_
  have lifted : Turns calls frame [x] _ _ _ := (second knows (covered.mono (by simp))).lift [x]
  exact lifted.bind fun y _ => turns_binary operator.value_mem x y

private theorem computes_element {array : Name} {opening : Word ["["]} {index : Expression}
    {closing : Word ["]"]}
    (ih : Computes context bindings calls frame index.occurrences (index.code context)
      (index.value calls bindings frame)) :
    Computes context bindings calls frame (Term.element array opening index closing).occurrences
      ((Term.element array opening index closing).code context)
      ((Term.element array opening index closing).value calls bindings frame) := by
  intro knows covered
  rw [Term.occurrences] at covered
  obtain ⟨binding, found⟩ := covered.names array.val (by simp)
  rw [Term.code, Term.value, List.append_assoc]
  refine (turns_load knows found).bind fun base _ => ?_
  have lifted : Turns calls frame [base] _ _ _ := (ih knows (covered.mono (by simp))).lift [base]
  exact lifted.bind fun offset _ => turns_element base offset

private theorem computes_moreArguments (knows : context.Knows bindings)
    {more : List (Comma × Expression)}
    (covered : Covered bindings (moreArgumentOccurrences more))
    (each : ∀ pair ∈ more, Computes context bindings calls frame pair.2.occurrences
      (pair.2.code context) (pair.2.value calls bindings frame)) :
    Turns calls frame [] (moreArgumentCode context more)
      (moreArgumentValues calls bindings frame more) List.reverse := by
  induction more with
  | nil => exact fun _ _ _ => rfl
  | cons pair more ih =>
    obtain ⟨comma, argument⟩ := pair
    rw [moreArgumentOccurrences] at covered
    rw [moreArgumentCode, moreArgumentValues]
    refine (each _ (.head _) knows (covered.mono (by simp))).bind fun value _ => ?_
    have lifted : Turns calls frame [value] _ _ _ := (ih (covered.mono (by simp))
      fun pair member => each pair (.tail _ member)).lift [value]
    exact lifted.map fun values => (List.reverse_cons).symm

private theorem computes_arguments {first : Expression} {more : List (Comma × Expression)}
    (head : Computes context bindings calls frame first.occurrences (first.code context)
      (first.value calls bindings frame))
    (each : ∀ pair ∈ more, Computes context bindings calls frame pair.2.occurrences
      (pair.2.code context) (pair.2.value calls bindings frame)) :
    ComputesAll context bindings calls frame (.listed first more) := by
  intro knows covered
  rw [Arguments.occurrences] at covered
  rw [Arguments.code, Arguments.values]
  refine (head knows (covered.mono (by simp))).bind fun value _ => ?_
  have lifted : Turns calls frame [value] _ _ _ :=
    (computes_moreArguments knows (covered.mono (by simp)) each).lift [value]
  exact lifted.map fun values => (List.reverse_cons).symm

private theorem moreArgumentValues_length {more : List (Comma × Expression)}
    {memory next : Memory World} {values : List Value}
    (found : moreArgumentValues calls bindings frame more memory = some (values, next)) :
    values.length = more.length := by
  induction more generalizing memory values with
  | nil =>
    cases found
    rfl
  | cons pair more ih =>
    obtain ⟨⟨value, middle⟩, -, rest⟩ := Option.bind_eq_some_iff.mp found
    obtain ⟨⟨values, last⟩, others, same⟩ := Option.bind_eq_some_iff.mp rest
    cases same
    exact congrArg (· + 1) (ih others)

theorem Arguments.values_length {arguments : Arguments} {memory next : Memory World}
    {values : List Value}
    (found : arguments.values calls bindings frame memory = some (values, next)) :
    values.length = arguments.count := by
  cases arguments with
  | empty =>
    cases found
    rfl
  | listed first more =>
    obtain ⟨⟨value, middle⟩, -, rest⟩ := Option.bind_eq_some_iff.mp found
    obtain ⟨⟨values, last⟩, others, same⟩ := Option.bind_eq_some_iff.mp rest
    cases same
    exact congrArg (· + 1) (moreArgumentValues_length others)

private theorem turns_receiver {arguments : Arguments} {code : Code}
    (turns : Turns calls frame [] code (arguments.values calls bindings frame) List.reverse)
    (few : arguments.count < 65535) (receiver : Value) (name : String) :
    Turns calls frame [receiver]
      (code ++ [.call name (UInt16.ofNat arguments.count + 1)])
      (arguments.values calls bindings frame >>= fun values =>
        calls.invoke name (receiver :: values)) one := by
  have lifted : Turns calls frame [receiver] _ _ _ := turns.lift [receiver]
  refine lifted.bind fun values ⟨memory, next, found⟩ => ?_
  have count : (UInt16.ofNat arguments.count + 1).toNat = (receiver :: values).length := by
    rw [List.length_cons, Arguments.values_length found, UInt16.toNat_add, UInt16.toNat_ofNat']
    simp only [UInt16.toNat_one]
    omega
  rw [← List.reverse_cons]
  exact turns_call name count

private theorem turns_plain {arguments : Arguments} {code : Code}
    (turns : Turns calls frame [] code (arguments.values calls bindings frame) List.reverse)
    (few : arguments.count < 65535) (name : String) :
    Turns calls frame [] (code ++ [.call name (UInt16.ofNat arguments.count)])
      (arguments.values calls bindings frame >>= fun values => calls.invoke name values) one := by
  refine turns.bind fun values ⟨memory, next, found⟩ => turns_call name ?_
  rw [Arguments.values_length found, UInt16.toNat_ofNat']
  omega

private theorem computes_bare {name : Name} {opening : Word ["("]} {arguments : Arguments}
    {closing : Word [")"]} (ih : ComputesAll context bindings calls frame arguments) :
    Computes context bindings calls frame (Call.bare name opening arguments closing).occurrences
      ((Call.bare name opening arguments closing).code context)
      ((Call.bare name opening arguments closing).value calls bindings frame) := by
  intro knows covered
  rw [Call.occurrences] at covered
  rw [Call.code, Call.value, knows.className]
  exact turns_this.pure_bind (turns_receiver (ih knows (covered.mono (by simp)))
    (covered.calls _ (by simp)) frame.this _)

private theorem computes_qualified {qualifier : Name} {dot : Word ["."]} {name : MemberName}
    {opening : Word ["("]} {arguments : Arguments} {closing : Word [")"]}
    (ih : ComputesAll context bindings calls frame arguments) :
    Computes context bindings calls frame
      (Call.qualified qualifier dot name opening arguments closing).occurrences
      ((Call.qualified qualifier dot name opening arguments closing).code context)
      ((Call.qualified qualifier dot name opening arguments closing).value calls bindings frame) := by
  intro knows covered
  rw [Call.occurrences] at covered
  have inner := ih knows (covered.mono (by simp))
  have few := covered.calls arguments.count (by simp)
  rw [Call.code, Call.value, knows.resolve]
  cases found : bindings.lookup qualifier.val.value with
  | some binding =>
    exact (turns_push (knows.fits _ _ found) _).bind fun receiver _ =>
      turns_receiver inner few receiver _
  | none =>
    simp only [Option.map_none, knows.isMethod, beq_iff_eq]
    by_cases same : context.kindOf name.val.value = some .method
    · rw [if_pos same, if_pos same]
      exact turns_this.pure_bind (turns_receiver inner few frame.this _)
    · rw [if_neg same, if_neg same]
      exact turns_plain inner few _

private theorem computes_all :
    (∀ e : Expression, Computes context bindings calls frame e.occurrences (e.code context)
      (e.value calls bindings frame)) ∧
    (∀ t : Term, Computes context bindings calls frame t.occurrences (t.code context)
      (t.value calls bindings frame)) ∧
    (∀ c : Call, Computes context bindings calls frame c.occurrences (c.code context)
      (c.value calls bindings frame)) ∧
    (∀ a : Arguments, ComputesAll context bindings calls frame a) := by
  apply Expression.induction
  case term =>
    intro t ih
    rw [Expression.occurrences, Expression.code, Expression.value]
    exact ih
  case binary => exact fun _ _ _ first second => computes_binary first second
  case literal =>
    intro value knows covered
    rw [Term.code, Term.value]
    exact turns_literal value
  case name =>
    intro name knows covered
    rw [Term.occurrences] at covered
    obtain ⟨binding, found⟩ := covered.names name.val (.head _)
    rw [Term.code, Term.value]
    exact turns_load knows found
  case element => exact fun _ _ _ _ ih => computes_element ih
  case call =>
    intro c ih
    rw [Term.occurrences, Term.code, Term.value]
    exact ih
  case group =>
    intro opening inner closing ih
    rw [Term.occurrences, Term.code, Term.value]
    exact ih
  case unary =>
    intro operator operand ih knows covered
    rw [Term.occurrences] at covered
    rw [Term.code, Term.value]
    exact (ih knows covered).bind fun x _ => turns_unary operator.value_mem x
  case bare => exact fun _ _ _ _ ih => computes_bare ih
  case qualified => exact fun _ _ _ _ _ _ ih => computes_qualified ih
  case empty =>
    intro knows covered
    rw [Arguments.code, Arguments.values]
    exact fun _ _ _ => rfl
  case listed => exact fun _ _ head each => computes_arguments head each

theorem Expression.turns (e : Expression) (knows : context.Knows bindings)
    (covered : Covered bindings e.occurrences) :
    Turns calls frame [] (e.code context) (e.value calls bindings frame) one :=
  computes_all.1 e knows covered

theorem Call.turns (c : Call) (knows : context.Knows bindings)
    (covered : Covered bindings c.occurrences) :
    Turns calls frame [] (c.code context) (c.value calls bindings frame) one :=
  computes_all.2.2.1 c knows covered

end Terms

end JackCompiler
