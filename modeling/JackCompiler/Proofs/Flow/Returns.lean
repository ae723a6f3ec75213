import JackCompiler.Proofs.Operands.Emission

namespace JackCompiler

open Lowering Machine

mutual

/-- Whether no way leads past a statement, if a condition may hold or not. -/
def Statement.returns : Statement → Bool
  | .returnNothing _ _ | .returnValue _ _ _ => true
  | .ifElse _ _ _ _ body _ alternative => body.returns && alternative.returns
  | .assign _ _ _ _ _ | .assignElement _ _ _ _ _ _ _ _ | .ifThen _ _ _ _ _ | .loop _ _ _ _ _
  | .perform _ _ _ => false

def Block.returns : Block → Bool
  | .braced _ statements _ => someReturns statements

def someReturns : List Statement → Bool
  | [] => false
  | statement :: statements => statement.returns || someReturns statements

end

section Stays

variable {program code first : Code} {start finish : Nat} {names : List String} {context : Context}

theorem Stays.start_lt (stays : Stays program start finish) : start < finish :=
  (stays start .refl).2

theorem Stays.mono {last : Nat} (stays : Stays program start finish) (le : finish ≤ last) :
    Stays program start last := fun position reaches =>
  (stays position reaches).imp_right (Nat.lt_of_lt_of_le · le)

theorem stays_of_closed (distinct : (labels program).Nodup) (located : CodeAt program start first)
    (jumps : ∀ name ∈ targets first, name ∈ names ∨ name ∈ labels first)
    (rest : Stays program (start + first.length) finish)
    (others : ∀ name ∈ names, ∃ place, start ≤ place ∧ program[place]? = some (.label name) ∧
      Stays program place finish) : Stays program start finish := by
  -- Control stays where every way out of closed code goes on to places from which it stays.
  -- Control is in the code, or has come to one of the places after it.
  have invariant (position : Nat) (reaches : Relation.ReflTransGen (Flows program) start position) :
      (start ≤ position ∧ position < start + first.length) ∨
        ∃ place, start ≤ place ∧ Stays program place finish ∧
          Relation.ReflTransGen (Flows program) place position := by
    induction reaches with
    | refl =>
      by_cases empty : first.length = 0
      · rw [empty] at rest
        exact .inr ⟨start, Nat.le_refl _, rest, .refl⟩
      · exact .inl (by omega)
    | @tail middle next _ flows ih =>
      rcases ih with inside | ⟨place, le, stays, reaches⟩
      · obtain ⟨index, rfl⟩ := Nat.exists_eq_add_of_le inside.1
        rcases flows_closed distinct located jumps (by omega) flows with
          inside | ⟨rfl, -⟩ | ⟨name, known, labelled⟩
        · exact .inl inside
        · exact .inr ⟨_, Nat.le_add_right _ _, rest, .refl⟩
        · obtain ⟨place, le, there, stays⟩ := others name known
          have same := Option.some.inj ((target_eq distinct labelled).symm.trans
            (target_eq distinct there))
          exact .inr ⟨place, le, stays, same ▸ .refl⟩
      · exact .inr ⟨place, le, stays, reaches.tail flows⟩
  intro position reaches
  have bound := rest.start_lt
  rcases invariant position reaches with inside | ⟨place, le, stays, reaches⟩
  · exact ⟨inside.1, by omega⟩
  · have ⟨lower, upper⟩ := stays position reaches
    exact ⟨Nat.le_trans le lower, upper⟩

theorem stays_after (distinct : (labels program).Nodup) (located : CodeAt program start first)
    (closed : Closed [] first) (rest : Stays program (start + first.length) finish) :
    Stays program start finish :=
  stays_of_closed distinct located closed.jumps rest nofun

end Stays

section Returning

variable {program : Code} {context : Context} {keyword : Word ["if"]} {opening : Word ["("]}
  {condition : Expression} {closing : Word [")"]} {body alternative : Block}
  {otherwise : Word ["else"]} {start : Nat}

private abbrev Cuts (program code : Code) : Prop :=
  ∀ start, CodeAt program start code → Stays program start (start + code.length)

private theorem cuts_value (distinct : (labels program).Nodup) {code : Code}
    (straight : Straight code) (text : String) :
    Cuts program (marker context.comments text ++ code ++ [.ret]) := by
  intro start located
  have closed : Closed [] (marker context.comments text ++ code ++ [.ret]) :=
    ((closed_marker _ _).append (closed_of_straight straight)).append closed_ret
  exact stays_block distinct located closed.jumps_inside List.getLast?_concat

private theorem cuts_ifElse (distinct : (labels program).Nodup)
    (first : ∀ number, Cuts program (body.code context number))
    (second : ∀ number, Cuts program (alternative.code context number)) (number : Nat) :
    Cuts program ((Statement.ifElse keyword opening condition closing body otherwise
      alternative).code context number) := by
  intro start located
  rw [Statement.code] at located ⊢
  have entry : Closed [context.label "IF_FALSE" number]
      (marker context.comments "if" ++ condition.code context ++
        [.arithmetic .not, .ifGoto (context.label "IF_FALSE" number)]) :=
    ((closed_marker _ _).append (closed_of_straight condition.straight_code)).append
      (closed_test (.head _))
  have inBody := first _ _ located.left.left.left.right
  have atElse := located.left.left.right.tail
  have inElse := second _ _ located.left.right.left
  simp only [List.length_append, List.length_cons, List.length_nil] at inBody inElse atElse ⊢
  refine stays_of_closed distinct located.left.left.left.left entry.jumps ?_ ?_
  · simp only [List.length_append, List.length_cons, List.length_nil]
    exact inBody.mono (by omega)
  · intro name member
    rw [List.mem_singleton.mp member]
    refine ⟨_, by omega, atElse.head, stays_after distinct atElse (closed_label _) ?_⟩
    rw [List.length_singleton]
    exact inElse.mono (by omega)

private theorem cuts_statements (distinct : (labels program).Nodup) {statements : List Statement}
    (each : ∀ s ∈ statements, ∀ number, s.returns = true → Cuts program (s.code context number))
    (number : Nat) (returns : someReturns statements = true) :
    Cuts program (statementCode context number statements) := by
  induction statements generalizing number with
  | nil => cases returns
  | cons s statements ih =>
    intro start located
    rw [statementCode] at located ⊢
    rw [List.length_append, ← Nat.add_assoc]
    rw [someReturns, Bool.or_eq_true] at returns
    -- What comes after a statement that returns is never reached, whatever it is.
    rcases returns with own | later
    · exact (each s (.head _) number own start located.left).mono (Nat.le_add_right _ _)
    · have rest := ih (fun s member => each s (.tail _ member)) _ later _ located.right
      exact stays_after distinct located.left (closed_statement s number) rest

private theorem cuts_all (distinct : (labels program).Nodup) :
    (∀ (s : Statement) number, s.returns = true → Cuts program (s.code context number)) ∧
    (∀ (b : Block) number, b.returns = true → Cuts program (b.code context number)) := by
  apply Statement.induction
  case returnNothing =>
    intro keyword semicolon number _
    rw [Statement.code]
    exact cuts_value distinct (straight_cons rfl straight_nil) _
  case returnValue =>
    intro keyword value semicolon number _
    rw [Statement.code]
    exact cuts_value distinct value.straight_code _
  case ifElse =>
    intro keyword opening condition closing body otherwise alternative first second number returns
    rw [Statement.returns, Bool.and_eq_true] at returns
    exact cuts_ifElse distinct (fun _ => first _ returns.1) (fun _ => second _ returns.2) number
  case braced =>
    intro opening statements closing each number returns
    rw [Block.returns] at returns
    rw [Block.code]
    exact cuts_statements distinct each _ returns
  all_goals
    intros
    rename_i returns
    rw [Statement.returns] at returns
    cases returns

theorem stays_statementCode (distinct : (labels program).Nodup) {statements : List Statement}
    (returns : someReturns statements = true) {number : Nat}
    (located : CodeAt program start (statementCode context number statements)) :
    Stays program start (start + (statementCode context number statements).length) :=
  cuts_statements distinct (fun s _ => (cuts_all distinct).1 s) number returns start located

end Returning

abbrev Leads (program : Code) : Nat → Nat → Prop := Relation.ReflTransGen (Flows program)

def Falling (code : Code) : Prop := ∀ instruction ∈ code, instruction.falls = true

section Leads

variable {program code first second : Code} {start place : Nat} {context : Context}

theorem Falling.append (one : Falling first) (rest : Falling second) : Falling (first ++ second) :=
  List.forall_mem_append.mpr ⟨one, rest⟩

theorem falling_of_straight (straight : Straight code) : Falling code := by
  intro instruction member
  have one := straight instruction member
  cases instruction with
  | goto | ret => cases one
  | _ => rfl

theorem falling_marker (comments : Bool) (text : String) : Falling (marker comments text) := by
  cases comments with
  | false => exact nofun
  | true => exact List.forall_mem_singleton.mpr rfl

theorem leads_of_falling (falling : Falling code) (located : CodeAt program start code) :
    Leads program start (start + code.length) := by
  induction code generalizing start with
  | nil => exact .refl
  | cons instruction code ih =>
    have ⟨one, rest⟩ := List.forall_mem_cons.mp falling
    have later := ih rest located.tail
    rw [List.length_cons, Nat.add_comm code.length, ← Nat.add_assoc]
    exact .head (.next located.head one) later

theorem leads_append (one : Leads program start (start + first.length))
    (rest : Leads program (start + first.length) (start + first.length + second.length)) :
    Leads program start (start + (first ++ second).length) := by
  rw [List.length_append, ← Nat.add_assoc]
  exact one.trans rest

theorem leads_test {name : String} (falling : Falling code)
    (located : CodeAt program start (code ++ [.arithmetic .not, .ifGoto name]))
    (there : program[place]? = some (.label name)) : Leads program start place := by
  have before := leads_of_falling falling located.left
  have negated : Flows program (start + code.length) (start + code.length + 1) :=
    .next located.right.head rfl
  have jumps : Flows program (start + code.length + 1) place :=
    .jump located.right.tail.head rfl there
  exact (before.tail negated).tail jumps

end Leads

section Passing

variable {program : Code} {context : Context} {keyword : Word ["if"]} {opening : Word ["("]}
  {condition : Expression} {closing : Word [")"]} {body alternative : Block}
  {otherwise : Word ["else"]} {start : Nat}

private abbrev Passes (program code : Code) : Prop :=
  ∀ start, CodeAt program start code → Leads program start (start + code.length)

private theorem falling_condition (text : String) (condition : Expression) :
    Falling (marker context.comments text ++ condition.code context) :=
  (falling_marker _ _).append (falling_of_straight condition.straight_code)

private theorem falling_label (name : String) : Falling [.label name] :=
  List.forall_mem_singleton.mpr rfl

private theorem passes_ifThen (number : Nat) : Passes program
    ((Statement.ifThen keyword opening condition closing body).code context number) := by
  intro start located
  rw [Statement.code] at located ⊢
  refine leads_append ?_ (leads_of_falling (falling_label _) located.right)
  have target := located.left.right.tail.head
  have skips := leads_test (falling_condition "if" condition) located.left.left.left target
  rw [List.length_append]
  exact skips.tail (.next target rfl)

private theorem passes_ifElse
    (either : (∀ number, Passes program (body.code context number)) ∨
      (∀ number, Passes program (alternative.code context number))) (number : Nat) :
    Passes program ((Statement.ifElse keyword opening condition closing body otherwise
      alternative).code context number) := by
  intro start located
  rw [Statement.code] at located ⊢
  refine leads_append ?_ (leads_of_falling (falling_label _) located.right)
  -- The way takes the branch that control can pass, and goes from its end to the last label.
  rcases either with first | second
  · have entry : Falling (marker context.comments "if" ++ condition.code context ++
        [.arithmetic .not, .ifGoto (context.label "IF_FALSE" number)]) :=
      (falling_condition _ _).append
        (List.forall_mem_cons.mpr ⟨rfl, List.forall_mem_singleton.mpr rfl⟩)
    have through := leads_append (leads_of_falling entry located.left.left.left.left)
      (first _ _ located.left.left.left.right)
    exact through.tail (.jump located.left.left.right.head rfl located.right.head)
  · have target := located.left.left.right.tail.head
    have skips := (leads_test (falling_condition "if" condition) located.left.left.left.left
      target).tail (.next target rfl)
    have inElse := located.left.right
    rw [List.length_append] at inElse
    exact (skips.trans (second _ _ inElse.left)).tail
      (.jump inElse.right.head rfl located.right.head)

private theorem passes_loop {loop : Word ["while"]} (number : Nat) : Passes program
    ((Statement.loop loop opening condition closing body).code context number) := by
  intro start located
  rw [Statement.code] at located ⊢
  have target := located.right.tail.head
  have entry : Falling (marker context.comments "while" ++
      [.label (context.label "WHILE_START" number)] ++ condition.code context) :=
    ((falling_marker _ _).append (falling_label _)).append
      (falling_of_straight condition.straight_code)
  -- The way leaves the loop at the first test.
  have skips := leads_test entry located.left.left target
  rw [List.length_append]
  exact skips.tail (.next target rfl)

private theorem passes_statements {statements : List Statement}
    (each : ∀ s ∈ statements, ∀ number, s.returns = false → Passes program (s.code context number))
    (number : Nat) (passes : someReturns statements = false) :
    Passes program (statementCode context number statements) := by
  induction statements generalizing number with
  | nil => exact fun start _ => .refl
  | cons s statements ih =>
    intro start located
    rw [statementCode] at located ⊢
    rw [someReturns, Bool.or_eq_false_iff] at passes
    exact leads_append (each s (.head _) number passes.1 _ located.left)
      (ih (fun s member => each s (.tail _ member)) _ passes.2 _ located.right)

private theorem passes_straight {code : Code} (straight : Straight code) (text : String) :
    Passes program (marker context.comments text ++ code) := fun _ located =>
  leads_of_falling ((falling_marker _ _).append (falling_of_straight straight)) located

private theorem passes_all :
    (∀ (s : Statement) number, s.returns = false → Passes program (s.code context number)) ∧
    (∀ (b : Block) number, b.returns = false → Passes program (b.code context number)) := by
  apply Statement.induction
  case assign =>
    intro keyword target equals value semicolon number _
    rw [Statement.code]
    exact passes_straight (value.straight_code.append (straight_store _)) _
  case assignElement =>
    intro keyword array opening index closing equals value semicolon number _
    rw [Statement.code]
    exact passes_straight (straight_assignElement array index value) _
  case ifThen => exact fun _ _ _ _ _ _ number _ => passes_ifThen number
  case ifElse =>
    intro keyword opening condition closing body otherwise alternative first second number passes
    rw [Statement.returns, Bool.and_eq_false_iff] at passes
    exact passes_ifElse (passes.imp (fun body _ => first _ body) fun rest _ => second _ rest) number
  case loop => exact fun _ _ _ _ _ _ number _ => passes_loop number
  case perform =>
    intro keyword call semicolon number _
    rw [Statement.code, List.append_assoc]
    exact passes_straight (call.straight_code.append (straight_cons rfl straight_nil)) _
  case braced =>
    intro opening statements closing each number passes
    rw [Block.returns] at passes
    rw [Block.code]
    exact passes_statements each _ passes
  all_goals
    intros
    rename_i passes
    rw [Statement.returns] at passes
    cases passes

theorem leads_statementCode {statements : List Statement} (passes : someReturns statements = false)
    {number : Nat} (located : CodeAt program start (statementCode context number statements)) :
    Leads program start (start + (statementCode context number statements).length) :=
  passes_statements (fun s _ => passes_all.1 s) number passes start located

end Passing

/-- In some code, where the subroutine with an index in the class is entered, and where its code
ends. -/
structure ClassDeclaration.Span (declaration : ClassDeclaration) (comments : Bool) (code : Code)
    (index start finish : Nat) : Prop where
  entry : ∃ s locals, declaration.subroutines[index]? = some s ∧
    code[start]? = some (.function (declaration.className ++ "." ++ s.name.val.value) locals)
  block : ∃ before block after, declaration.BlockAt comments code index before block after ∧
    before.length ≤ start ∧ start < finish ∧ finish = (before ++ block).length

section Units

variable {source : String} {declaration : ClassDeclaration} {program code : Code} {comments : Bool}
  {s : SubroutineDeclaration} {index start number : Nat} {context : Context}
  {statements : List Statement}

def SubroutineBody.header (context : Context) : Code :=
  .function (context.className ++ "." ++ context.subroutine.name)
    (context.subroutineVariables.count .localVariable) ::
    prologue context.scope context.subroutine.kind

def SubroutineBody.bare (context : Context) (number : Nat) (statements : List Statement) : Code :=
  header context ++ statementCode context number statements

theorem SubroutineBody.code_of_value (value : context.isVoid = false) (body : SubroutineBody)
    (number : Nat) : body.code context number =
      marker context.comments context.subroutine.kind.name ++
        bare context (number + 3 + nodesOf LocalVariables.nodes body.locals) body.statements := by
  rw [body.code_parts, lastReturn, value, Bool.false_and, if_neg Bool.false_ne_true,
    List.append_nil]
  rfl

theorem stays_bare (distinct : (labels program).Nodup) (returns : someReturns statements = true)
    (located : CodeAt program start (SubroutineBody.bare context number statements)) :
    Stays program start (start + (SubroutineBody.bare context number statements).length) := by
  -- Nothing jumps from the header, which holds the only instruction that starts a subroutine.
  have jumps : ∀ name ∈ targets (SubroutineBody.header context),
      name ∈ [] ∨ name ∈ labels (SubroutineBody.header context) :=
    (closed_of_straight (straight_prologue context.scope context.subroutine.kind)).jumps
  have rest := stays_statementCode distinct returns located.right
  have all := stays_of_closed distinct located.left jumps rest nofun
  simpa only [SubroutineBody.bare, List.length_append, Nat.add_assoc] using all

theorem leads_bare (passes : someReturns statements = false)
    (located : CodeAt program start (SubroutineBody.bare context number statements)) :
    Leads program start (start + (SubroutineBody.bare context number statements).length) := by
  have falling : Falling (SubroutineBody.header context) :=
    List.forall_mem_cons.mpr ⟨rfl, falling_of_straight (straight_prologue _ _)⟩
  exact leads_append (leads_of_falling falling located.left)
    (leads_statementCode passes located.right)

theorem ClassDeclaration.exists_span (comments : Bool)
    (formed : ∀ t ∈ declaration.tokens, t.WellFormed) (faultless : declaration.faults = [])
    (found : declaration.subroutines[index]? = some s) (value : s.returnType.isVoid = false) :
    ∃ start number,
      CodeAt (declaration.code comments) start
        (SubroutineBody.bare (declaration.context comments s) number s.body.statements) ∧
      declaration.Span comments (declaration.code comments) index start (start +
        (SubroutineBody.bare (declaration.context comments s) number s.body.statements).length) := by
  obtain ⟨before, place, after, block⟩ :=
    declaration.exists_blockAt comments formed faultless found
  have isVoid : (declaration.context comments s).isVoid = false :=
    (declaration.isVoid_eq (formed_subroutines formed s (List.mem_of_getElem? found))).trans value
  have located := codeAt_self before (declaration.bodyCode comments s place) after
  rw [← block.whole, bodyCode, s.body.code_of_value isVoid] at located
  rw [bodyCode, s.body.code_of_value isVoid] at block
  refine ⟨_, _, located.right, ⟨s, _, found, located.right.left.head⟩, before, _, after, block,
    Nat.le_add_right _ _, Nat.lt_add_of_pos_right (Nat.succ_pos _), ?_⟩
  rw [List.length_append, List.length_append, Nat.add_assoc]

/-- In a compiled unit, control does not leave the code of a subroutine that is not void if its body
returns on every way, and may pass the end of the code if it does not. -/
theorem body_stays_or_leads
    (read : parse .classDeclaration (items source.toList) = .ok (.classDeclaration declaration))
    (compiles : compile comments source = .ok code)
    (found : declaration.subroutines[index]? = some s) (value : s.returnType.isVoid = false) :
    ∃ start finish, declaration.Span comments code index start finish ∧
      (someReturns s.body.statements = true → Stays code start finish) ∧
      (someReturns s.body.statements = false → Leads code start finish) := by
  obtain ⟨formed, faultless, rfl⟩ := unit_compiled read compiles
  have distinct := labels_unit comments declaration
  obtain ⟨start, number, located, span⟩ :=
    declaration.exists_span comments formed faultless found value
  exact ⟨start, _, span, fun returns => stays_bare distinct returns located,
    fun passes => leads_bare passes located⟩

private def signText : String :=
  "class Sign { function int of(int x) { while (x) { } if (x) { return 1; } else { return 2; } } }"

theorem body_stays_or_leads_sign :
    ∃ declaration code,
      parse .classDeclaration (items signText.toList) = .ok (.classDeclaration declaration) ∧
      compile false signText = .ok code ∧
      ∃ start finish, declaration.Span false code 0 start finish ∧ Stays code start finish := by
  have found : (faultlessUnit? signText).any (fun d => d.subroutines[0]?.any fun s =>
      !s.returnType.isVoid && someReturns s.body.statements) = true := by decide +kernel
  obtain ⟨declaration, unit, facts⟩ := (Option.any_eq_true _ _).mp found
  obtain ⟨s, first, facts⟩ := (Option.any_eq_true _ _).mp facts
  rw [Bool.and_eq_true, Bool.not_eq_true'] at facts
  obtain ⟨read, compiles⟩ := compile_of_faultlessUnit? false unit
  obtain ⟨start, finish, span, stays, -⟩ := body_stays_or_leads read compiles first facts.1
  exact ⟨declaration, _, read, compiles, start, finish, span, stays facts.2⟩

private def openText : String := "class A { function int f() { } }"

theorem control_passes_end :
    ∃ declaration code s,
      parse .classDeclaration (items openText.toList) = .ok (.classDeclaration declaration) ∧
      compile false openText = .ok code ∧ declaration.subroutines[0]? = some s ∧
      s.returnType.isVoid = false ∧
      ∃ start finish, declaration.Span false code 0 start finish ∧ Leads code start finish := by
  have found : (faultlessUnit? openText).any (fun d => d.subroutines[0]?.any fun s =>
      !s.returnType.isVoid && !someReturns s.body.statements) = true := by decide +kernel
  obtain ⟨declaration, unit, facts⟩ := (Option.any_eq_true _ _).mp found
  obtain ⟨s, first, facts⟩ := (Option.any_eq_true _ _).mp facts
  rw [Bool.and_eq_true, Bool.not_eq_true', Bool.not_eq_true'] at facts
  obtain ⟨read, compiles⟩ := compile_of_faultlessUnit? false unit
  obtain ⟨formed, faultless, -⟩ := unit_compiled read compiles
  obtain ⟨start, number, located, span⟩ :=
    declaration.exists_span false formed faultless first facts.1
  exact ⟨declaration, _, s, read, compiles, first, facts.1, start, _, span,
    leads_bare facts.2 located⟩

end Units

end JackCompiler
