import JackCompiler.Proofs.Flow.Blocks
import JackCompiler.Proofs.Invariance.Lines
import JackCompiler.Proofs.Operands.Calls

namespace JackCompiler

open Lowering

/-- The same instruction, with another number in the label that it sets or jumps to. -/
inductive Instruction.Renumbered (f : Nat → Nat) : Instruction → Instruction → Prop
  | label (className tag : String) (number : Nat) : Renumbered f
    (.label (numbered className tag number)) (.label (numbered className tag (f number)))
  | goto (className tag : String) (number : Nat) : Renumbered f
    (.goto (numbered className tag number)) (.goto (numbered className tag (f number)))
  | ifGoto (className tag : String) (number : Nat) : Renumbered f
    (.ifGoto (numbered className tag number)) (.ifGoto (numbered className tag (f number)))
  | plain {instruction : Instruction} : instruction.label? = none → instruction.jump? = none →
    Renumbered f instruction instruction

def Renumbered (f : Nat → Nat) : Code → Code → Prop := List.Forall₂ (Instruction.Renumbered f)

/-- The numbers from one on are replaced by those from another on. -/
def Shifts (f : Nat → Nat) (number number' size : Nat) : Prop :=
  ∀ k < size, f (number + k) = number' + k

section Renumbered

variable {f : Nat → Nat} {first second first' second' code : Code} {context : Context}
  {number number' less size : Nat}

theorem Renumbered.append (one : Renumbered f first first') (rest : Renumbered f second second') :
    Renumbered f (first ++ second) (first' ++ second') :=
  List.rel_append one rest

theorem renumbered_self (plain : ∀ instruction ∈ code,
    instruction.label? = none ∧ instruction.jump? = none) : Renumbered f code code :=
  List.forall₂_same.mpr fun instruction member =>
    .plain (plain instruction member).1 (plain instruction member).2

theorem renumbered_of_straight (straight : Straight code) : Renumbered f code code := by
  refine renumbered_self fun instruction member => ?_
  have one := straight instruction member
  cases instruction with
  | label | goto | ifGoto => cases one
  | _ => exact ⟨rfl, rfl⟩

theorem renumbered_marker (comments : Bool) (text : String) :
    Renumbered f (marker comments text) (marker comments text) := by
  cases comments with
  | false => exact .nil
  | true => exact .cons (.plain rfl rfl) .nil

theorem renumbered_ret : Renumbered f [.ret] [.ret] := .cons (.plain rfl rfl) .nil

theorem renumbered_label (context : Context) (tag : String) (own : f number = number') :
    Renumbered f [.label (context.label tag number)] [.label (context.label tag number')] := by
  subst own
  exact .cons (.label context.className tag number) .nil

theorem renumbered_goto (context : Context) (tag : String) (own : f number = number') :
    Renumbered f [.goto (context.label tag number)] [.goto (context.label tag number')] := by
  subst own
  exact .cons (.goto context.className tag number) .nil

theorem renumbered_test (context : Context) (tag : String) (own : f number = number') :
    Renumbered f [.arithmetic .not, .ifGoto (context.label tag number)]
      [.arithmetic .not, .ifGoto (context.label tag number')] := by
  subst own
  exact .cons (.plain rfl rfl) (.cons (.ifGoto context.className tag number) .nil)

theorem Shifts.take (shifts : Shifts f number number' size) (inside : less ≤ size) :
    Shifts f number number' less :=
  fun k below => shifts k (Nat.lt_of_lt_of_le below inside)

theorem Shifts.drop (shifts : Shifts f number number' size) (offset : Nat)
    (inside : offset + less ≤ size) : Shifts f (number + offset) (number' + offset) less := by
  intro k below
  rw [Nat.add_assoc, Nat.add_assoc]
  exact shifts (offset + k) (by omega)

theorem Shifts.start (shifts : Shifts f number number' size) (some : 0 < size) :
    f number = number' :=
  shifts 0 some

private abbrev Follows (f : Nat → Nat) (context : Context) (s : Statement) : Prop :=
  ∀ number number', Shifts f number number' s.nodes →
    Renumbered f (s.code context number) (s.code context number')

private abbrev FollowsBlock (f : Nat → Nat) (context : Context) (b : Block) : Prop :=
  ∀ number number', Shifts f number number' b.nodes →
    Renumbered f (b.code context number) (b.code context number')

private theorem follows_statements {statements : List Statement}
    (each : ∀ s ∈ statements, Follows f context s)
    (shifts : Shifts f number number' (statementNodes statements)) :
    Renumbered f (statementCode context number statements)
      (statementCode context number' statements) := by
  induction statements generalizing number number' with
  | nil => exact .nil
  | cons s statements ih =>
    rw [statementNodes] at shifts
    rw [statementCode, statementCode]
    exact (each s (.head _) _ _ (shifts.take (Nat.le_add_right _ _))).append
      (ih (fun s member => each s (.tail _ member)) (shifts.drop s.nodes (Nat.le_refl _)))

private theorem follows_ifThen {keyword : Word ["if"]} {opening : Word ["("]}
    {condition : Expression} {closing : Word [")"]} {body : Block}
    (ih : FollowsBlock f context body) :
    Follows f context (.ifThen keyword opening condition closing body) := by
  intro number number' shifts
  rw [Statement.nodes] at shifts
  have own : f number = number' := shifts.start (by omega)
  have inner := ih _ _ (shifts.drop (4 + condition.nodes) (by omega))
  rw [← Nat.add_assoc, ← Nat.add_assoc] at inner
  rw [Statement.code, Statement.code]
  exact (((((renumbered_marker _ _).append (renumbered_of_straight condition.straight_code)).append
    (renumbered_test context _ own)).append inner).append
      ((renumbered_goto context _ own).append (renumbered_label context _ own))).append
        (renumbered_label context _ own)

private theorem follows_ifElse {keyword : Word ["if"]} {opening : Word ["("]}
    {condition : Expression} {closing : Word [")"]} {body alternative : Block}
    {otherwise : Word ["else"]} (first : FollowsBlock f context body)
    (second : FollowsBlock f context alternative) :
    Follows f context (.ifElse keyword opening condition closing body otherwise alternative) := by
  intro number number' shifts
  rw [Statement.nodes] at shifts
  have own : f number = number' := shifts.start (by omega)
  have inner := first _ _ (shifts.drop (4 + condition.nodes) (by omega))
  have inner' := second _ _ (shifts.drop (5 + condition.nodes + body.nodes) (by omega))
  rw [← Nat.add_assoc, ← Nat.add_assoc] at inner
  rw [← Nat.add_assoc, ← Nat.add_assoc, ← Nat.add_assoc, ← Nat.add_assoc] at inner'
  rw [Statement.code, Statement.code]
  exact ((((((renumbered_marker _ _).append (renumbered_of_straight condition.straight_code)).append
    (renumbered_test context _ own)).append inner).append
      ((renumbered_goto context _ own).append (renumbered_label context _ own))).append
        (inner'.append (renumbered_goto context _ own))).append (renumbered_label context _ own)

private theorem follows_loop {keyword : Word ["while"]} {opening : Word ["("]}
    {condition : Expression} {closing : Word [")"]} {body : Block}
    (ih : FollowsBlock f context body) :
    Follows f context (.loop keyword opening condition closing body) := by
  intro number number' shifts
  rw [Statement.nodes] at shifts
  have own : f number = number' := shifts.start (by omega)
  have inner := ih _ _ (shifts.drop (4 + condition.nodes) (by omega))
  rw [← Nat.add_assoc, ← Nat.add_assoc] at inner
  rw [Statement.code, Statement.code]
  exact (((((renumbered_marker _ _).append (renumbered_label context _ own)).append
    (renumbered_of_straight condition.straight_code)).append
      (renumbered_test context _ own)).append inner).append
        ((renumbered_goto context _ own).append (renumbered_label context _ own))

private theorem follows_all :
    (∀ s : Statement, Follows f context s) ∧ (∀ b : Block, FollowsBlock f context b) := by
  apply Statement.induction
  case assign =>
    intro keyword target equals value semicolon number number' _
    rw [Statement.code, Statement.code]
    exact (renumbered_marker _ _).append
      (renumbered_of_straight (value.straight_code.append (straight_store _)))
  case assignElement =>
    intro keyword array opening index closing equals value semicolon number number' _
    rw [Statement.code, Statement.code]
    exact (renumbered_marker _ _).append
      (renumbered_of_straight (straight_assignElement array index value))
  case ifThen => exact fun _ _ _ _ _ ih => follows_ifThen ih
  case ifElse => exact fun _ _ _ _ _ _ _ first second => follows_ifElse first second
  case loop => exact fun _ _ _ _ _ ih => follows_loop ih
  case perform =>
    intro keyword call semicolon number number' _
    rw [Statement.code, Statement.code]
    exact ((renumbered_marker _ _).append (renumbered_of_straight call.straight_code)).append
      (renumbered_of_straight (straight_cons rfl straight_nil))
  case returnNothing =>
    intro keyword semicolon number number' _
    rw [Statement.code, Statement.code]
    exact ((renumbered_marker _ _).append
      (renumbered_of_straight (straight_cons rfl straight_nil))).append renumbered_ret
  case returnValue =>
    intro keyword value semicolon number number' _
    rw [Statement.code, Statement.code]
    exact ((renumbered_marker _ _).append
      (renumbered_of_straight value.straight_code)).append renumbered_ret
  case braced =>
    intro opening statements closing each number number' shifts
    rw [Block.nodes] at shifts
    rw [Block.code, Block.code]
    exact follows_statements each (shifts.drop 2 (by omega))

theorem SubroutineBody.renumbered_code (body : SubroutineBody)
    (shifts : Shifts f number number' body.nodes) :
    Renumbered f (body.code context number) (body.code context number') := by
  have last : Renumbered f (body.lastReturn context) (body.lastReturn context) := by
    rw [lastReturn]
    split
    · exact .cons (.plain rfl rfl) renumbered_ret
    · exact .nil
  rw [nodes] at shifts
  have parts : Shifts f (number + (3 + nodesOf LocalVariables.nodes body.locals))
      (number' + (3 + nodesOf LocalVariables.nodes body.locals))
      (statementNodes body.statements) := shifts.drop _ (by omega)
  rw [← Nat.add_assoc, ← Nat.add_assoc] at parts
  rw [code_parts, code_parts]
  exact (renumbered_marker _ _).append (.cons (.plain rfl rfl)
    (((renumbered_of_straight (straight_prologue _ _)).append
      (follows_statements (fun s _ => follows_all.1 s) parts)).append last))

theorem ClassDeclaration.renumbered_bodyCode (d : ClassDeclaration) (comments : Bool)
    (s : SubroutineDeclaration) (shifts : Shifts f number number' s.nodes) :
    Renumbered f (d.bodyCode comments s number) (d.bodyCode comments s number') := by
  rw [SubroutineDeclaration.nodes] at shifts
  have inner : Shifts f (number + (6 + s.parameters.nodes)) (number' + (6 + s.parameters.nodes))
      s.body.nodes := shifts.drop _ (by omega)
  rw [← Nat.add_assoc, ← Nat.add_assoc] at inner
  exact s.body.renumbered_code inner

end Renumbered

def startOf (name : String) (number : Nat) : List SubroutineDeclaration → Nat
  | [] => number
  | s :: subroutines =>
    if s.name.val.value = name then number else startOf name (number + s.nodes) subroutines

section Order

variable {subroutines order : List SubroutineDeclaration} {s : SubroutineDeclaration}
  {name : String}

theorem startOf_self (s : SubroutineDeclaration) (number : Nat)
    (subroutines : List SubroutineDeclaration) :
    startOf s.name.val.value number (s :: subroutines) = number :=
  if_pos rfl

theorem startOf_other (differs : s.name.val.value ≠ name) (number : Nat)
    (subroutines : List SubroutineDeclaration) :
    startOf name number (s :: subroutines) = startOf name (number + s.nodes) subroutines :=
  if_neg differs

theorem le_startOf (name : String) (number : Nat) (subroutines : List SubroutineDeclaration) :
    number ≤ startOf name number subroutines := by
  induction subroutines generalizing number with
  | nil => exact Nat.le_refl _
  | cons s subroutines ih =>
    rw [startOf]
    split
    · exact Nat.le_refl _
    · exact (Nat.le_add_right _ _).trans (ih _)

private theorem name_ne (distinct : ((s :: subroutines).map (·.name.val.value)).Nodup) :
    ∀ other ∈ subroutines, s.name.val.value ≠ other.name.val.value := by
  intro other member same
  rw [List.map_cons, List.nodup_cons, same] at distinct
  exact distinct.1 (List.mem_map_of_mem member)

def exchange (number first second k : Nat) : Nat :=
  if k < number then k
  else if k < number + first then k + second
  else if k < number + first + second then k - first
  else k

section Exchange

variable {number first second k : Nat}

theorem exchange_injective : (exchange number first second).Injective := by
  intro k l same
  unfold exchange at same
  split_ifs at same <;> omega

theorem exchange_before (before : k < number) : exchange number first second k = k := if_pos before

theorem exchange_after (after : number + first + second ≤ k) :
    exchange number first second k = k := by
  unfold exchange
  split_ifs <;> omega

theorem shifts_exchange_first :
    Shifts (exchange number first second) number (number + second) first := by
  intro k less
  unfold exchange
  split_ifs <;> omega

theorem shifts_exchange_second :
    Shifts (exchange number first second) (number + first) number second := by
  intro k less
  unfold exchange
  split_ifs <;> omega

end Exchange

theorem exists_renumbering (permuted : order.Perm subroutines)
    (distinct : (subroutines.map (·.name.val.value)).Nodup) (number : Nat) :
    ∃ f : Nat → Nat, f.Injective ∧ (∀ k < number, f k = k) ∧ ∀ s ∈ subroutines,
      Shifts f (startOf s.name.val.value number subroutines)
        (startOf s.name.val.value number order) s.nodes := by
  -- When subroutines come in another order, their nodes get other numbers, each of them one of its
  -- own.
  induction permuted generalizing number with
  | nil => exact ⟨id, fun _ _ => id, fun _ _ => rfl, List.forall_mem_nil _⟩
  | @cons s order subroutines _ ih =>
    obtain ⟨f, injective, fixed, shifts⟩ := ih (List.nodup_cons.mp distinct).2 (number + s.nodes)
    -- The numbers of the first stay, since only those after them are replaced.
    refine ⟨f, injective, fun k less => fixed k (by omega), List.forall_mem_cons.mpr ⟨?_, ?_⟩⟩
    · rw [startOf_self, startOf_self]
      exact fun k less => fixed (number + k) (by omega)
    · intro other member
      have differs := name_ne distinct other member
      rw [startOf_other differs, startOf_other differs]
      exact shifts other member
  | swap s t subroutines =>
    have apart : s.name.val.value ≠ t.name.val.value := name_ne distinct t (.head _)
    refine ⟨exchange number s.nodes t.nodes, exchange_injective, fun _ => exchange_before, ?_⟩
    refine List.forall_mem_cons.mpr ⟨?_, List.forall_mem_cons.mpr ⟨?_, fun other member => ?_⟩⟩
    · rw [startOf_self, startOf_other apart.symm, startOf_self]
      exact shifts_exchange_first
    · rw [startOf_other apart, startOf_self, startOf_self]
      exact shifts_exchange_second
    · have differs := name_ne distinct other (.tail _ member)
      have differs' := name_ne (List.nodup_cons.mp distinct).2 other member
      rw [startOf_other differs, startOf_other differs', startOf_other differs',
        startOf_other differs, Nat.add_right_comm number t.nodes]
      exact fun k _ => exchange_after
        ((le_startOf other.name.val.value _ subroutines).trans (Nat.le_add_right _ k))
  | @trans order middle subroutines _ second ih ih' =>
    obtain ⟨f, injective, fixed, shifts⟩ := ih' distinct number
    have distinct' := (second.map (·.name.val.value)).nodup_iff.mpr distinct
    obtain ⟨g, injective', fixed', shifts'⟩ := ih distinct' number
    refine ⟨g ∘ f, injective'.comp injective, ?_, ?_⟩
    · intro k less
      rw [Function.comp_apply, fixed k less, fixed' k less]
    · intro s member k less
      rw [Function.comp_apply, shifts s member k less,
        shifts' s (second.mem_iff.mpr member) k less]

theorem ClassDeclaration.subroutineCode_eq_flatMap (d : ClassDeclaration) (comments : Bool)
    (distinct : (subroutines.map (·.name.val.value)).Nodup) (number : Nat) :
    d.subroutineCode comments number subroutines = subroutines.flatMap fun s =>
      d.bodyCode comments s (startOf s.name.val.value number subroutines) := by
  induction subroutines generalizing number with
  | nil => rfl
  | cons s subroutines ih =>
    rw [subroutineCode, List.flatMap_cons, startOf_self, ih (List.nodup_cons.mp distinct).2]
    refine congrArg (_ ++ ·) (List.flatMap_congr fun other member => ?_)
    rw [startOf_other (name_ne distinct other member)]

end Order

namespace ClassDeclaration

/-- The class with its subroutines in another order. -/
def reorder (d : ClassDeclaration) (order : List SubroutineDeclaration) : ClassDeclaration :=
  { d with subroutines := order }

section Reorder

variable {d : ClassDeclaration} {order : List SubroutineDeclaration}

theorem reorder_subroutines (d : ClassDeclaration) (order : List SubroutineDeclaration) :
    (d.reorder order).subroutines = order := rfl

variable (permuted : order.Perm d.subroutines)

include permuted

theorem tokens_reorder : (d.reorder order).tokens.Perm d.tokens :=
  (((((permuted.flatMap_right SubroutineDeclaration.tokens).append_right _).append_left _).cons
    _).cons _).cons _

theorem nesting_reorder : (d.reorder order).nesting = d.nesting := by
  refine eq_of_forall_ge_iff fun room => ?_
  rw [nesting_le, nesting_le]
  exact forall_congr' fun s => imp_congr_left permuted.mem_iff

variable (distinct : (d.subroutines.map (·.name.val.value)).Nodup)

include distinct

theorem kindOf_reorder : (d.reorder order).kindOf = d.kindOf := by
  have distinct' : (order.map (·.name.val.value)).Nodup := (permuted.map _).nodup_iff.mpr distinct
  funext name
  by_cases declared : ∃ s ∈ d.subroutines, s.name.val.value = name
  · obtain ⟨s, member, rfl⟩ := declared
    exact ((d.reorder order).kindOf_eq distinct' (permuted.mem_iff.mpr member)).trans
      (d.kindOf_eq distinct member).symm
  · have absent : ∀ s ∈ d.subroutines, ¬ (s.name.val.value == name) = true := by
      intro s member called
      exact declared ⟨s, member, beq_iff_eq.mp called⟩
    have absent' : ∀ s ∈ order, ¬ (s.name.val.value == name) = true := fun s member =>
      absent s (permuted.mem_iff.mp member)
    rw [kindOf, kindOf, reorder_subroutines, List.find?_eq_none.mpr absent,
      List.find?_eq_none.mpr absent']

theorem context_reorder (comments : Bool) (s : SubroutineDeclaration) :
    (d.reorder order).context comments s = d.context comments s := by
  rw [context, context, kindOf_reorder permuted distinct]
  rfl

theorem bodyCode_reorder (comments : Bool) (s : SubroutineDeclaration) (number : Nat) :
    (d.reorder order).bodyCode comments s number = d.bodyCode comments s number := by
  rw [bodyCode, bodyCode, context_reorder permuted distinct]

theorem faults_reorder : (d.reorder order).faults.Perm d.faults := by
  have each (s : SubroutineDeclaration) :
      (d.reorder order).subroutineFaults s = d.subroutineFaults s := by
    rw [subroutineFaults, subroutineFaults, context_reorder permuted distinct]
    rfl
  rw [faults, faults, reorder_subroutines, funext each]
  exact (permuted.flatMap_right _).append_left _

end Reorder

/-- The code of a class is a row of blocks, one for each of its subroutines, in their order. -/
structure MadeOf (d : ClassDeclaration) (comments : Bool) (block : SubroutineDeclaration → Code)
    (code : Code) : Prop where
  whole : code = marker comments d.className ++ d.subroutines.flatMap block ++
    marker comments ("~" ++ d.className)
  each : ∀ s ∈ d.subroutines, ∃ rest, block s = marker comments s.kind.name ++ rest ∧
    IsBlock (d.className ++ "." ++ s.name.val.value) rest

theorem madeOf_code {d : ClassDeclaration} (comments : Bool)
    (distinct : (d.subroutines.map (·.name.val.value)).Nodup) :
    d.MadeOf comments (fun s => d.bodyCode comments s
      (startOf s.name.val.value d.firstNumber d.subroutines)) (d.code comments) where
  whole := by rw [code, subroutineCode_eq_flatMap d comments distinct]
  each s _ := s.body.isBlock_code (d.context comments s) _

end ClassDeclaration

/-- In every order of its subroutines a class with distinct names of subroutines is accepted or in
none. Then each subroutine has the same block in the code, but for the numbers in labels, which are
replaced by numbers that are as distinct. -/
theorem subroutine_order_immaterial {source : String} {d : ClassDeclaration}
    {order : List SubroutineDeclaration} (readsAs : ReadsAs source d.tokens)
    (distinct : (d.subroutines.map (·.name.val.value)).Nodup)
    (permuted : order.Perm d.subroutines) :
    (∃ source', ReadsAs source' (d.reorder order).tokens) ∧
    ∀ source' comments, ReadsAs source' (d.reorder order).tokens →
      ((∃ code, compile comments source' = .ok code) ↔ ∃ code, compile comments source = .ok code) ∧
      ∀ code code', compile comments source = .ok code → compile comments source' = .ok code' →
        ∃ (f : Nat → Nat) (block block' : SubroutineDeclaration → Code), f.Injective ∧
          d.MadeOf comments block code ∧ (d.reorder order).MadeOf comments block' code' ∧
          ∀ s ∈ d.subroutines, Renumbered f (block s) (block' s) := by
  have nesting := ClassDeclaration.nesting_reorder permuted
  have faultless : (d.reorder order).faults = [] ↔ d.faults = [] := by
    have faults := ClassDeclaration.faults_reorder permuted distinct
    rw [← List.perm_nil, ← List.perm_nil]
    exact ⟨faults.symm.trans, faults.trans⟩
  have distinct' : ((d.reorder order).subroutines.map (·.name.val.value)).Nodup :=
    (permuted.map _).nodup_iff.mpr distinct
  constructor
  · exact ⟨_, readsAs_joined fun token member =>
      readsAs.printable token ((ClassDeclaration.tokens_reorder permuted).mem_iff.mp member)⟩
  · intro source' comments readsAs'
    constructor
    · simp only [compile_ok_iff_of_readsAs comments readsAs,
        compile_ok_iff_of_readsAs comments readsAs', nesting, faultless, exists_and_left,
        exists_eq', and_true]
    · intro code code' compiles compiles'
      obtain ⟨-, -, rfl⟩ := (compile_ok_iff_of_readsAs comments readsAs).mp compiles
      obtain ⟨-, -, rfl⟩ := (compile_ok_iff_of_readsAs comments readsAs').mp compiles'
      obtain ⟨f, injective, -, shifts⟩ := exists_renumbering permuted distinct d.firstNumber
      refine ⟨f, _, _, injective, ClassDeclaration.madeOf_code comments distinct,
        ClassDeclaration.madeOf_code comments distinct', fun s member => ?_⟩
      rw [ClassDeclaration.bodyCode_reorder permuted distinct]
      exact d.renumbered_bodyCode comments s (shifts s member)

private def pairText : String :=
  "class A \x7b function void f() \x7b while (true) \x7b do A.g(); \x7d return; \x7d " ++
    "method boolean g() \x7b if (true) \x7b do A.f(); \x7d return true; \x7d \x7d"

theorem subroutine_order_immaterial_pair :
    ∃ (d : ClassDeclaration) (source' : String) (code code' : Code), ReadsAs pairText d.tokens ∧
      d.subroutines.map (·.name.val.value) = ["f", "g"] ∧
      ReadsAs source' (d.reorder d.subroutines.reverse).tokens ∧
      compile true pairText = .ok code ∧ compile true source' = .ok code' ∧
      ∃ (f : Nat → Nat) (block block' : SubroutineDeclaration → Code), f.Injective ∧
        d.MadeOf true block code ∧ (d.reorder d.subroutines.reverse).MadeOf true block' code' ∧
        ∀ s ∈ d.subroutines, Renumbered f (block s) (block' s) := by
  have found : (faultlessUnit? pairText).map (fun d => d.subroutines.map (·.name.val.value)) =
      some ["f", "g"] := by
    decide +kernel
  obtain ⟨d, unit, names⟩ := Option.map_eq_some_iff.mp found
  obtain ⟨read, compiled⟩ := compile_of_faultlessUnit? true unit
  have readsAs : ReadsAs pairText d.tokens := readsAs_of_parse read
  have distinct : (d.subroutines.map (·.name.val.value)).Nodup := by
    rw [names]
    decide
  obtain ⟨⟨source', readsAs'⟩, each⟩ :=
    subroutine_order_immaterial readsAs distinct d.subroutines.reverse_perm
  obtain ⟨accepts, blocks⟩ := each source' true readsAs'
  obtain ⟨code', compiled'⟩ := accepts.mpr ⟨_, compiled⟩
  exact ⟨d, source', _, code', readsAs, names, readsAs', compiled, compiled',
    blocks _ _ compiled compiled'⟩

end JackCompiler
