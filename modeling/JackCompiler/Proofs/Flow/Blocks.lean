import JackCompiler.Proofs.Flow.Paths
import JackCompiler.Proofs.Meaning.Preservation
import Mathlib.Data.List.Forall2

/-!
# Blocks of a program

The code of a class is a row of blocks, one for each subroutine. Jumps stay in their block, control
leaves the block of a void subroutine only by a return, and no label stands twice, not even in the
code of several classes. Main statement: `compiled_blocks`.
-/

namespace JackCompiler

open Lowering Machine

/-! ## Closed code -/

def targets (code : Code) : List String := code.filterMap Instruction.jump?

def Instruction.entry? : Instruction → Option String
  | .function name _ => some name
  | _ => none

def entries (code : Code) : List String := code.filterMap Instruction.entry?

@[simp]
theorem targets_append (first second : Code) :
    targets (first ++ second) = targets first ++ targets second :=
  List.filterMap_append

@[simp]
theorem entries_append (first second : Code) :
    entries (first ++ second) = entries first ++ entries second :=
  List.filterMap_append

theorem mem_labels_iff {name : String} {code : Code} :
    name ∈ labels code ↔ .label name ∈ code := by
  refine ⟨fun member => ?_, fun member => List.mem_filterMap.mpr ⟨_, member, rfl⟩⟩
  obtain ⟨instruction, inside, same⟩ := List.mem_filterMap.mp member
  cases instruction with
  | label => cases same; exact inside
  | _ => cases same

theorem mem_targets_iff {name : String} {code : Code} :
    name ∈ targets code ↔ .goto name ∈ code ∨ .ifGoto name ∈ code := by
  refine ⟨fun member => ?_, ?_⟩
  · obtain ⟨instruction, inside, same⟩ := List.mem_filterMap.mp member
    cases instruction with
    | goto => cases same; exact .inl inside
    | ifGoto => cases same; exact .inr inside
    | _ => cases same
  · rintro (member | member)
    · exact List.mem_filterMap.mpr ⟨_, member, rfl⟩
    · exact List.mem_filterMap.mpr ⟨_, member, rfl⟩

/-- Every jump goes to one of the names or to a label of the same code, and no subroutine starts
there. -/
structure Closed (names : List String) (code : Code) : Prop where
  jumps : ∀ name ∈ targets code, name ∈ names ∨ name ∈ labels code
  inner : entries code = []

section Closed

variable {names : List String} {first second code : Code} {context : Context}

theorem Closed.append (one : Closed names first) (rest : Closed names second) :
    Closed names (first ++ second) := by
  constructor
  · intro name member
    rw [targets_append] at member
    rw [labels_append]
    rcases List.mem_append.mp member with member | member
    · exact (one.jumps name member).imp_right (List.mem_append_left _)
    · exact (rest.jumps name member).imp_right (List.mem_append_right _)
  · rw [entries_append, one.inner, rest.inner]
    rfl

theorem Closed.jumps_inside (closed : Closed [] code) : ∀ name ∈ targets code, name ∈ labels code :=
  fun name member => (closed.jumps name member).resolve_left List.not_mem_nil

theorem Closed.weaken (closed : Closed [] code) : Closed names code :=
  ⟨fun name member => .inr (closed.jumps_inside name member), closed.inner⟩

theorem Closed.seal {name other : String} (closed : Closed [name, other] code)
    (one : .label name ∈ code) (rest : .label other ∈ code) : Closed [] code := by
  refine ⟨fun target member => .inr (mem_labels_iff.mpr ?_), closed.inner⟩
  rcases closed.jumps target member with known | inside
  · rcases List.mem_pair.mp known with rfl | rfl
    · exact one
    · exact rest
  · exact mem_labels_iff.mp inside

theorem closed_of_straight (straight : Straight code) : Closed names code := by
  have still : targets code = [] := by
    refine List.filterMap_eq_nil_iff.mpr fun instruction member => ?_
    have one := straight instruction member
    cases instruction with
    | goto | ifGoto => cases one
    | _ => rfl
  refine ⟨fun name member => absurd (still ▸ member) List.not_mem_nil, ?_⟩
  refine List.filterMap_eq_nil_iff.mpr fun instruction member => ?_
  have one := straight instruction member
  cases instruction with
  | function => cases one
  | _ => rfl

theorem closed_marker (comments : Bool) (text : String) : Closed names (marker comments text) := by
  cases comments <;> exact ⟨nofun, rfl⟩

theorem closed_ret : Closed names [.ret] := ⟨nofun, rfl⟩

theorem closed_test {name : String} (known : name ∈ names) :
    Closed names [.arithmetic .not, .ifGoto name] := by
  refine ⟨fun other member => .inl ?_, rfl⟩
  rw [List.mem_singleton.mp member]
  exact known

private theorem closed_goto {name : String} (known : name ∈ names) :
    Closed names [.goto name] := by
  refine ⟨fun other member => .inl ?_, rfl⟩
  rw [List.mem_singleton.mp member]
  exact known

theorem closed_label (name : String) : Closed names [.label name] := ⟨nofun, rfl⟩

/-! ## Statements -/

private abbrev ClosedBlock (context : Context) (b : Block) : Prop :=
  ∀ number, Closed [] (b.code context number)

private theorem closed_statements {statements : List Statement}
    (each : ∀ s ∈ statements, ∀ number, Closed [] (s.code context number)) (number : Nat) :
    Closed [] (statementCode context number statements) := by
  induction statements generalizing number with
  | nil => exact ⟨nofun, rfl⟩
  | cons s statements ih =>
    exact (each s (.head _) number).append (ih (fun s member => each s (.tail _ member)) _)

private theorem closed_ifThen {keyword : Word ["if"]} {opening : Word ["("]}
    {condition : Expression} {closing : Word [")"]} {body : Block}
    (ih : ClosedBlock context body) (number : Nat) :
    Closed [] ((Statement.ifThen keyword opening condition closing body).code context number) := by
  have parts : Closed [context.label "IF_FALSE" number, context.label "IF_END" number]
      ((Statement.ifThen keyword opening condition closing body).code context number) := by
    rw [Statement.code]
    exact ((((closed_marker _ _).append (closed_of_straight condition.straight_code)).append
      (closed_test (.head _))).append (ih _).weaken).append
        ((closed_goto (.tail _ (.head _))).append (closed_label _)) |>.append (closed_label _)
  refine parts.seal ?_ ?_
  all_goals
    rw [Statement.code]
    simp

private theorem closed_ifElse {keyword : Word ["if"]} {opening : Word ["("]}
    {condition : Expression} {closing : Word [")"]} {body alternative : Block}
    {otherwise : Word ["else"]} (first : ClosedBlock context body)
    (second : ClosedBlock context alternative) (number : Nat) :
    Closed [] ((Statement.ifElse keyword opening condition closing body otherwise
      alternative).code context number) := by
  have parts : Closed [context.label "IF_FALSE" number, context.label "IF_END" number]
      ((Statement.ifElse keyword opening condition closing body otherwise
        alternative).code context number) := by
    rw [Statement.code]
    exact ((((closed_marker _ _).append (closed_of_straight condition.straight_code)).append
      (closed_test (.head _))).append (first _).weaken).append
        ((closed_goto (.tail _ (.head _))).append (closed_label _)) |>.append
          ((second _).weaken.append (closed_goto (.tail _ (.head _)))) |>.append (closed_label _)
  refine parts.seal ?_ ?_
  all_goals
    rw [Statement.code]
    simp

private theorem closed_loop {keyword : Word ["while"]} {opening : Word ["("]}
    {condition : Expression} {closing : Word [")"]} {body : Block}
    (ih : ClosedBlock context body) (number : Nat) :
    Closed [] ((Statement.loop keyword opening condition closing body).code context number) := by
  have parts : Closed [context.label "WHILE_START" number, context.label "WHILE_END" number]
      ((Statement.loop keyword opening condition closing body).code context number) := by
    rw [Statement.code]
    exact ((((closed_marker _ _).append (closed_label _)).append
      (closed_of_straight condition.straight_code)).append (closed_test (.tail _ (.head _)))).append
        (ih _).weaken |>.append ((closed_goto (.head _)).append (closed_label _))
  refine parts.seal ?_ ?_
  all_goals
    rw [Statement.code]
    simp

private theorem closed_all :
    (∀ (s : Statement) number, Closed [] (s.code context number)) ∧
    (∀ b : Block, ClosedBlock context b) := by
  apply Statement.induction
  case assign =>
    intro keyword target equals value semicolon number
    rw [Statement.code]
    exact (closed_marker _ _).append
      (closed_of_straight (value.straight_code.append (straight_store _)))
  case assignElement =>
    intro keyword array opening index closing equals value semicolon number
    rw [Statement.code]
    exact (closed_marker _ _).append
      (closed_of_straight (straight_assignElement array index value))
  case ifThen => exact fun _ _ _ _ _ ih => closed_ifThen ih
  case ifElse => exact fun _ _ _ _ _ _ _ first second => closed_ifElse first second
  case loop => exact fun _ _ _ _ _ ih => closed_loop ih
  case perform =>
    intro keyword call semicolon number
    rw [Statement.code]
    exact ((closed_marker _ _).append (closed_of_straight call.straight_code)).append
      (closed_of_straight (straight_cons rfl straight_nil))
  case returnNothing =>
    intro keyword semicolon number
    rw [Statement.code]
    exact ((closed_marker _ _).append
      (closed_of_straight (straight_cons rfl straight_nil))).append closed_ret
  case returnValue =>
    intro keyword value semicolon number
    rw [Statement.code]
    exact ((closed_marker _ _).append (closed_of_straight value.straight_code)).append closed_ret
  case braced =>
    intro opening statements closing each number
    rw [Block.code]
    exact closed_statements each _

theorem closed_statement (s : Statement) (number : Nat) : Closed [] (s.code context number) :=
  closed_all.1 s number

theorem closed_statementCode (number : Nat) (statements : List Statement) :
    Closed [] (statementCode context number statements) :=
  closed_statements (fun s _ => closed_statement s) number

/-! ## Returns -/

private theorem returns_of_isReturn {s : Statement} (returns : s.isReturn = true) (number : Nat) :
    (s.code context number).getLast? = some .ret := by
  cases s with
  | returnNothing => rw [Statement.code, List.getLast?_concat]
  | returnValue => rw [Statement.code, List.getLast?_concat]
  | _ => cases returns

theorem returns_statementCode {statements : List Statement}
    (returns : statements.getLast?.any Statement.isReturn = true) (number : Nat) :
    (statementCode context number statements).getLast? = some .ret := by
  induction statements generalizing number with
  | nil => cases returns
  | cons s statements ih =>
    rw [statementCode, List.getLast?_append]
    cases statements with
    | nil => rw [statementCode, returns_of_isReturn (by simpa using returns)]; rfl
    | cons next statements =>
      rw [ih (by simpa [List.getLast?_cons_cons] using returns)]
      rfl

end Closed

/-! ## Blocks -/

/-- The code of a subroutine: it starts there, and only there, and jumps stay inside. -/
structure IsBlock (name : String) (block : Code) : Prop where
  entry : ∃ locals rest, block = .function name locals :: rest ∧
    ∀ other count, .function other count ∉ rest
  jumps : ∀ target, .goto target ∈ block ∨ .ifGoto target ∈ block → .label target ∈ block

section Blocks

variable {program block : Code} {declaration : ClassDeclaration} {s : SubroutineDeclaration}
  {start index next : Nat}

theorem straight_prologue (scope : Scope) (kind : SubroutineKind) :
    Straight (prologue scope kind) := by
  cases kind with
  | constructor => exact straight_cons rfl (straight_cons rfl (straight_cons rfl straight_nil))
  | function => exact straight_nil
  | method => exact straight_cons rfl (straight_cons rfl straight_nil)

private theorem not_mem_of_entries {code : Code} (inner : entries code = []) (name : String)
    (count : UInt16) : .function name count ∉ code := by
  intro member
  exact absurd (List.filterMap_eq_nil_iff.mp inner _ member) nofun

def SubroutineBody.lastReturn (context : Context) (body : SubroutineBody) : Code :=
  if context.isVoid && !body.statements.getLast?.any Statement.isReturn then
    [.push .constant 0, .ret]
  else
    []

theorem SubroutineBody.code_parts (context : Context) (body : SubroutineBody) (number : Nat) :
    body.code context number = marker context.comments context.subroutine.kind.name ++
      .function (context.className ++ "." ++ context.subroutine.name)
        (context.subroutineVariables.count .localVariable) ::
      (prologue context.scope context.subroutine.kind ++
        statementCode context (number + 3 + nodesOf LocalVariables.nodes body.locals)
          body.statements ++ body.lastReturn context) := by
  rw [code, lastReturn]
  simp only [List.append_assoc, List.cons_append, List.nil_append]

theorem SubroutineBody.closed_inside (context : Context) (body : SubroutineBody) (number : Nat) :
    Closed [] (prologue context.scope context.subroutine.kind ++
      statementCode context number body.statements ++ body.lastReturn context) := by
  refine ((closed_of_straight (straight_prologue _ _)).append (closed_statementCode _ _)).append ?_
  rw [lastReturn]
  split
  · exact ⟨nofun, rfl⟩
  · exact ⟨nofun, rfl⟩

theorem SubroutineBody.isBlock_code (context : Context) (body : SubroutineBody) (number : Nat) :
    ∃ rest, body.code context number =
        marker context.comments context.subroutine.kind.name ++ rest ∧
      IsBlock (context.className ++ "." ++ context.subroutine.name) rest := by
  -- After its marker, the code of a body is a block.
  have closed := body.closed_inside context (number + 3 + nodesOf LocalVariables.nodes body.locals)
  refine ⟨_, body.code_parts context number, ⟨_, _, rfl, not_mem_of_entries closed.inner⟩,
    fun target jump => ?_⟩
  simp only [List.mem_cons, reduceCtorEq, false_or] at jump ⊢
  exact mem_labels_iff.mp (closed.jumps_inside target (mem_targets_iff.mpr jump))

theorem isBlock_bodyCode (declaration : ClassDeclaration) (s : SubroutineDeclaration)
    (number : Nat) :
    IsBlock (declaration.className ++ "." ++ s.name.val.value)
      (declaration.bodyCode false s number) := by
  obtain ⟨rest, same, isBlock⟩ :=
    s.body.isBlock_code (declaration.context false s) (number + 6 + s.parameters.nodes)
  rw [ClassDeclaration.bodyCode, same]
  exact isBlock

theorem returns_bodyCode (formed : ∀ t ∈ s.tokens, t.WellFormed) (void : s.returnType.isVoid = true)
    (number : Nat) : (declaration.bodyCode false s number).getLast? = some .ret := by
  have isVoid : (declaration.context false s).isVoid = true :=
    (declaration.isVoid_eq formed).trans void
  rw [ClassDeclaration.bodyCode, SubroutineBody.code, isVoid, List.getLast?_append]
  cases returns : s.body.statements.getLast?.any Statement.isReturn with
  | false => rfl
  | true =>
    rw [List.getLast?_append, returns_statementCode returns]
    rfl

/-! ## Control in a block -/

/-- Wherever control goes from the first position, it stays before the second. -/
def Stays (program : Code) (start finish : Nat) : Prop :=
  ∀ position, Relation.ReflTransGen (Flows program) start position →
    start ≤ position ∧ position < finish

theorem flows_closed {names : List String} (distinct : (labels program).Nodup)
    (located : CodeAt program start block)
    (jumps : ∀ name ∈ targets block, name ∈ names ∨ name ∈ labels block)
    (inside : index < block.length) (flows : Flows program (start + index) next) :
    (start ≤ next ∧ next < start + block.length) ∨
      (next = start + block.length ∧ block.getLast?.any Instruction.falls = true) ∨
      ∃ name ∈ names, program[next]? = some (.label name) := by
  -- From closed code control goes on inside of it, past its end, or to one of the names.
  cases flows with
  | @next instruction there falls =>
    rw [located.getElem? inside] at there
    by_cases last : index + 1 = block.length
    · refine .inr (.inl ⟨by omega, ?_⟩)
      rw [List.getLast?_eq_getElem?, ← last, Nat.add_sub_cancel, there]
      exact falls
    · exact .inl (by omega)
  | @jump _ instruction name there jump labelled =>
    rw [located.getElem? inside] at there
    have member : name ∈ targets block :=
      List.mem_filterMap.mpr ⟨instruction, List.mem_of_getElem? there, jump⟩
    rcases jumps name member with known | own
    · exact .inr (.inr ⟨name, known, labelled⟩)
    · -- A label stands once in the whole program, so the one in the block is the one jumped to.
      obtain ⟨place, within, same⟩ := List.getElem_of_mem (mem_labels_iff.mp own)
      have found : program[start + place]? = some (.label name) := by
        rw [located.getElem? within, List.getElem?_eq_getElem within, same]
      have equal := Option.some.inj ((target_eq distinct labelled).symm.trans
        (target_eq distinct found))
      exact .inl (by omega)

theorem stays_block (distinct : (labels program).Nodup) (located : CodeAt program start block)
    (jumps : ∀ name ∈ targets block, name ∈ labels block)
    (returns : block.getLast? = some .ret) : Stays program start (start + block.length) := by
  -- Control does not leave a block that ends with a return.
  have within : ∀ name ∈ targets block, name ∈ [] ∨ name ∈ labels block := fun name member =>
    .inr (jumps name member)
  intro position reaches
  induction reaches with
  | refl =>
    have some : block ≠ [] := by
      rintro rfl
      cases returns
    have := List.length_pos_of_ne_nil some
    omega
  | @tail middle next _ flows ih =>
    obtain ⟨index, rfl⟩ := Nat.exists_eq_add_of_le ih.1
    rcases flows_closed distinct located within (by omega) flows with
      inside | ⟨-, falls⟩ | ⟨name, known, -⟩
    · exact inside
    · rw [returns] at falls
      cases falls
    · cases known

end Blocks

/-! ## Units -/

section Units

variable {declaration : ClassDeclaration} {comments : Bool}

def ClassDeclaration.blocks (declaration : ClassDeclaration) (number : Nat) :
    List SubroutineDeclaration → List Code
  | [] => []
  | s :: subroutines =>
    declaration.bodyCode false s number :: declaration.blocks (number + s.nodes) subroutines

theorem ClassDeclaration.code_eq_flatten (declaration : ClassDeclaration) :
    declaration.code false =
      (declaration.blocks declaration.firstNumber declaration.subroutines).flatten := by
  have same (number : Nat) (subroutines : List SubroutineDeclaration) :
      declaration.subroutineCode false number subroutines =
        (declaration.blocks number subroutines).flatten := by
    induction subroutines generalizing number with
    | nil => rfl
    | cons s subroutines ih => rw [subroutineCode, blocks, List.flatten_cons, ih]
  rw [code, same]
  exact List.append_nil _

theorem ClassDeclaration.isBlock_blocks (declaration : ClassDeclaration)
    (subroutines : List SubroutineDeclaration) (number : Nat) :
    List.Forall₂ (fun s block => IsBlock (declaration.className ++ "." ++ s.name.val.value) block)
      subroutines (declaration.blocks number subroutines) := by
  induction subroutines generalizing number with
  | nil => exact .nil
  | cons s subroutines ih => exact .cons (isBlock_bodyCode declaration s _) (ih _)

theorem ClassDeclaration.getElem?_blocks {subroutines : List SubroutineDeclaration}
    {index number : Nat} {s : SubroutineDeclaration} {block : Code}
    (found : subroutines[index]? = some s)
    (there : (declaration.blocks number subroutines)[index]? = some block) :
    ∃ place, block = declaration.bodyCode false s place := by
  induction subroutines generalizing index number with
  | nil => cases found
  | cons first subroutines ih =>
    cases index with
    | zero =>
      cases found
      cases there
      exact ⟨number, rfl⟩
    | succ index => exact ih found there

/-- The code of a class is a row of blocks, one for each subroutine in the order of the source, and
control does not pass the end of one whose subroutine is void. -/
structure ClassDeclaration.Blocks (declaration : ClassDeclaration) (code : Code)
    (blocks : List Code) : Prop where
  whole : code = blocks.flatten
  each : List.Forall₂
    (fun s block => IsBlock (declaration.className ++ "." ++ s.name.val.value) block)
    declaration.subroutines blocks
  stays : ∀ (index : Nat) s block, declaration.subroutines[index]? = some s →
    blocks[index]? = some block → s.returnType.isVoid = true →
    Stays code (blocks.take index).flatten.length ((blocks.take index).flatten.length + block.length)

private theorem flatten_split {blocks : List Code} {index : Nat} {block : Code}
    (there : blocks[index]? = some block) :
    blocks.flatten = (blocks.take index).flatten ++ block ++ (blocks.drop (index + 1)).flatten := by
  obtain ⟨inside, rfl⟩ := List.getElem?_eq_some_iff.mp there
  conv_lhs => rw [← List.take_append_drop index blocks, List.drop_eq_getElem_cons inside]
  rw [List.flatten_append, List.flatten_cons, List.append_assoc]

theorem ClassDeclaration.code_blocks (formed : ∀ t ∈ declaration.tokens, t.WellFormed) :
    declaration.Blocks (declaration.code false)
      (declaration.blocks declaration.firstNumber declaration.subroutines) where
  whole := declaration.code_eq_flatten
  each := declaration.isBlock_blocks _ _
  stays index s block found there void := by
    obtain ⟨place, same⟩ := getElem?_blocks found there
    have returns : block.getLast? = some .ret := by
      rw [same]
      exact returns_bodyCode (formed_subroutines formed s (List.mem_of_getElem? found)) void place
    have isBlock := isBlock_bodyCode declaration s place
    rw [← same] at isBlock
    have jumps : ∀ name ∈ targets block, name ∈ labels block := fun name member =>
      mem_labels_iff.mpr (isBlock.jumps name (mem_targets_iff.mp member))
    have distinct := labels_unit false declaration
    rw [declaration.code_eq_flatten, flatten_split there] at distinct ⊢
    exact stays_block distinct (codeAt_self _ _ _) jumps returns

end Units

/-! ## Several classes -/

section Classes

variable {className other tag tag' : String} {m n : Nat}

private theorem dot_not_mem_identifier {text : List Char} (identifier : isIdentifier text = true) :
    '.' ∉ text := by
  intro member
  cases text with
  | nil => cases member
  | cons c text =>
    simp only [isIdentifier, Bool.and_eq_true, List.all_eq_true] at identifier
    rcases List.mem_cons.mp member with rfl | member
    · exact absurd identifier.1 (by decide)
    · exact absurd (identifier.2 _ member) (by decide)

theorem numbered_className_inj (clear : '.' ∉ className.toList) (clear' : '.' ∉ other.toList)
    (same : numbered className tag m = numbered other tag' n) : className = other := by
  have chars := congrArg String.toList same
  simp only [numbered, String.toList_append, List.append_assoc] at chars
  -- What stands before the first dot is the name of the class.
  have before (name : String) (clear : '.' ∉ name.toList) (rest : List Char) :
      (name.toList ++ (".".toList ++ rest)).takeWhile (· != '.') = name.toList := by
    rw [List.takeWhile_append_of_pos]
    · exact List.append_nil _
    · intro c member
      simpa using fun dot : c = '.' => clear (dot ▸ member)
  have taken := congrArg (List.takeWhile (· != '.')) chars
  rw [before className clear, before other clear'] at taken
  exact String.toList_inj.mp taken

theorem mapM_eq_ok {α β : Type} {f : α → Except CompileError β} {xs : List α}
    {ys : List β} : xs.mapM f = .ok ys ↔ List.Forall₂ (fun x y => f x = .ok y) xs ys := by
  induction xs generalizing ys with
  | nil => cases ys <;> simp [pure, Except.pure]
  | cons x xs ih =>
    rw [List.mapM_cons]
    cases one : f x with
    | error e => cases ys <;> simp [bind, Except.bind, one]
    | ok y =>
      cases rest : xs.mapM f <;> cases ys <;>
        simp [bind, Except.bind, pure, Except.pure, ← ih, one, rest]

abbrev Codes (comments : Bool) : List ClassDeclaration → List Code → Prop :=
  List.Forall₂ fun declaration code =>
    (∀ t ∈ declaration.tokens, t.WellFormed) ∧ declaration.code comments = code

theorem codes_of_compile {comments : Bool} {sources : List String} {codes : List Code}
    (compiles : sources.mapM (compile comments) = .ok codes) :
    ∃ declarations : List ClassDeclaration,
      sources.mapM (fun source => parse .classDeclaration (items source.toList)) =
        .ok (declarations.map .classDeclaration) ∧ Codes comments declarations codes := by
  simp only [mapM_eq_ok] at compiles ⊢
  induction compiles with
  | nil => exact ⟨[], .nil, .nil⟩
  | cons here _ ih =>
    obtain ⟨declarations, reads, more⟩ := ih
    obtain ⟨declaration, read⟩ := class_of_compile here
    obtain ⟨formed, -, whole⟩ := unit_compiled read here
    exact ⟨declaration :: declarations, .cons read reads, .cons ⟨formed, whole⟩ more⟩

private theorem className_clear {declaration : ClassDeclaration}
    (formed : ∀ t ∈ declaration.tokens, t.WellFormed) : '.' ∉ declaration.className.toList := by
  have own : declaration.name.val.WellFormed := formed _ (.tail _ (.head _))
  have kind : declaration.name.val.kind = .identifier := by
    simpa [Token.isName] using declaration.name.property
  rw [Token.WellFormed, kind] at own
  exact dot_not_mem_identifier own.1

private theorem numbered_of_mem {comments : Bool} {declarations : List ClassDeclaration}
    {codes : List Code} (all : Codes comments declarations codes) {name : String}
    (member : name ∈ labels codes.flatten) :
    ∃ declaration ∈ declarations, (∀ t ∈ declaration.tokens, t.WellFormed) ∧
      ∃ tag number, name = numbered declaration.className tag number := by
  induction all with
  | nil => cases member
  | @cons declaration code declarations codes own _ ih =>
    rw [List.flatten_cons, labels_append] at member
    rcases List.mem_append.mp member with member | member
    · rw [← own.2] at member
      obtain ⟨tag, -, number, -, -, same⟩ := (declaration.labels_code comments).inside name member
      exact ⟨declaration, .head _, own.1, tag, number, same⟩
    · obtain ⟨other, inside, found⟩ := ih member
      exact ⟨other, .tail _ inside, found⟩

theorem labels_flatten {comments : Bool} {declarations : List ClassDeclaration}
    {codes : List Code} (all : Codes comments declarations codes)
    (distinct : (declarations.map ClassDeclaration.className).Nodup) :
    (labels codes.flatten).Nodup := by
  induction all with
  | nil => exact .nil
  | @cons declaration code declarations codes own more ih =>
    rw [List.map_cons, List.nodup_cons] at distinct
    rw [List.flatten_cons, labels_append]
    refine List.nodup_append.mpr ⟨own.2 ▸ labels_unit comments declaration, ih distinct.2, ?_⟩
    rintro name member _ member' rfl
    rw [← own.2] at member
    obtain ⟨tag, -, number, -, -, same⟩ := (declaration.labels_code comments).inside name member
    obtain ⟨other, inside, formed, tag', number', same'⟩ := numbered_of_mem more member'
    have equal := numbered_className_inj (className_clear own.1) (className_clear formed)
      (same.symm.trans same')
    exact distinct.1 (equal ▸ List.mem_map_of_mem inside)

/-- Classes with distinct names have no label in common, and without markers the code of each is a
row of blocks. -/
theorem compiled_blocks {comments : Bool} {sources : List String} {codes : List Code}
    (compiles : sources.mapM (compile comments) = .ok codes) :
    ∃ declarations : List ClassDeclaration,
      sources.mapM (fun source => parse .classDeclaration (items source.toList)) =
        .ok (declarations.map .classDeclaration) ∧
      ((declarations.map ClassDeclaration.className).Nodup → (labels codes.flatten).Nodup) ∧
      (comments = false → List.Forall₂
        (fun declaration code => ∃ blocks, declaration.Blocks code blocks) declarations codes) := by
  obtain ⟨declarations, reads, all⟩ := codes_of_compile compiles
  refine ⟨declarations, reads, labels_flatten all, ?_⟩
  rintro rfl
  exact all.imp fun _ _ own => ⟨_, own.2 ▸ ClassDeclaration.code_blocks own.1⟩

end Classes

/-! ## Two classes -/

private def firstText : String := "class A { function void run() { while (true) { return; } } }"

private def secondText : String :=
  "class B { function void run(int x) { if (x) { return; } else { do A.run(); } } }"

theorem compiled_blocks_pair :
    ∃ codes, [firstText, secondText].mapM (compile false) = .ok codes ∧
      (labels codes.flatten).Nodup ∧
      ∃ declarations : List ClassDeclaration,
        declarations.map ClassDeclaration.className = ["A", "B"] ∧ List.Forall₂
          (fun declaration code => ∃ blocks, declaration.Blocks code blocks) declarations codes := by
  obtain ⟨first, found, name⟩ := Option.map_eq_some_iff.mp
    (show (faultlessUnit? firstText).map ClassDeclaration.className = some "A" by decide +kernel)
  obtain ⟨second, found', name'⟩ := Option.map_eq_some_iff.mp
    (show (faultlessUnit? secondText).map ClassDeclaration.className = some "B" by decide +kernel)
  obtain ⟨read, compiles⟩ := compile_of_faultlessUnit? false found
  obtain ⟨read', compiles'⟩ := compile_of_faultlessUnit? false found'
  have all : [firstText, secondText].mapM (compile false) =
      .ok [first.code false, second.code false] :=
    mapM_eq_ok.mpr (.cons compiles (.cons compiles' .nil))
  have both : [firstText, secondText].mapM
      (fun source => parse .classDeclaration (items source.toList)) =
        .ok [.classDeclaration first, .classDeclaration second] :=
    mapM_eq_ok.mpr (.cons read (.cons read' .nil))
  obtain ⟨declarations, reads, distinct, blocks⟩ := compiled_blocks all
  have same : declarations = [first, second] := by
    have mapped := Except.ok.inj (reads.symm.trans both)
    exact (List.map_inj_right fun _ _ => Phrase.classDeclaration.inj).mp mapped
  subst same
  have names : [first, second].map ClassDeclaration.className = ["A", "B"] := by
    simp [name, name']
  exact ⟨_, all, distinct (names ▸ by decide), _, names, blocks rfl⟩

end JackCompiler
