import JackCompiler.Proofs.Operands.Emission
import JackCompiler.Proofs.Printing

namespace JackCompiler

open Lowering

def Unbroken (text : String) : Prop := ∀ c ∈ text.toList, isBlank c = false

instance : DecidablePred Unbroken := fun text =>
  decidable_of_iff (text.toList.all fun c => !isBlank c) (by simp [Unbroken])

section Unbroken

variable {first second : String} {token : Token}

@[simp]
theorem unbroken_append : Unbroken (first ++ second) ↔ Unbroken first ∧ Unbroken second := by
  simp only [Unbroken, String.toList_append, List.mem_append, or_imp, forall_and]

@[simp]
theorem unbroken_repr (n : Nat) : Unbroken n.repr := by
  intro c member
  rw [Nat.toList_repr] at member
  have digit := Nat.isDigit_of_mem_toDigits (by decide) (by decide) member
  have range : 48 ≤ c.toNat ∧ c.toNat ≤ 57 := by
    simpa [Char.isDigit, UInt32.le_iff_toNat_le] using digit
  refine Bool.eq_false_iff.mpr fun blank => ?_
  have outside := toNat_of_isBlank blank
  omega

theorem Unbroken.not_mem {text : String} (unbroken : Unbroken text) {c : Char}
    (blank : isBlank c = true) : c ∉ text.toList :=
  fun member => Bool.false_ne_true ((unbroken c member).symm.trans blank)

theorem Token.WellFormed.unbroken (formed : token.WellFormed) (word : token.kind.isWord = true) :
    Unbroken token.value := by
  obtain ⟨-, made, -⟩ := wordKind_of_wellFormed formed word
  exact fun c member => (isWordChar_iff.mp (made c member)).1

theorem Name.unbroken {name : Name} (formed : name.val.WellFormed) : Unbroken name.val.value := by
  refine formed.unbroken ?_
  have kind : name.val.kind = .identifier := by simpa [Token.isName] using name.property
  rw [kind]
  rfl

theorem MemberName.unbroken {name : MemberName} (formed : name.val.WellFormed) :
    Unbroken name.val.value := by
  refine formed.unbroken ?_
  have kind : name.val.kind = .identifier ∨ name.val.kind = .keyword := by
    simpa [Token.isMemberName] using name.property
  rcases kind with kind | kind <;> rw [kind] <;> rfl

theorem TypeName.unbroken {type : TypeName} (formed : ∀ t ∈ type.tokens, t.WellFormed) :
    Unbroken type.text := by
  cases type with
  | builtIn word =>
    have all : ∀ text ∈ typeWords, Unbroken text := by decide
    exact all _ word.value_mem
  | named name => exact Name.unbroken (formed _ (.head _))

end Unbroken

def Instruction.name? : Instruction → Option String
  | .label name | .goto name | .ifGoto name | .call name _ | .function name _ | .comment name =>
    some name
  | .push _ _ | .pop _ _ | .arithmetic _ | .ret => none

/-- No instruction holds a text with blanks. -/
def Worded (code : Code) : Prop := ∀ instruction ∈ code, ∀ name ∈ instruction.name?, Unbroken name

section Worded

variable {first second code : Code} {instruction : Instruction}

@[simp]
theorem worded_nil : Worded [] := nofun

@[simp]
theorem worded_cons : Worded (instruction :: code) ↔
    (∀ name ∈ instruction.name?, Unbroken name) ∧ Worded code :=
  List.forall_mem_cons

@[simp]
theorem worded_append : Worded (first ++ second) ↔ Worded first ∧ Worded second :=
  List.forall_mem_append

theorem worded_marker {text : String} (comments : Bool) (unbroken : Unbroken text) :
    Worded (marker comments text) := by
  cases comments with
  | false => exact worded_nil
  | true => simpa [marker, Instruction.name?] using unbroken

theorem worded_of_flatMap {α : Type} {codeOf : α → Code} {xs : List α}
    (each : ∀ x ∈ xs, Worded (codeOf x)) : Worded (xs.flatMap codeOf) :=
  List.forall_mem_flatMap.mpr each

end Worded

structure Context.Worded (context : Context) : Prop where
  className : Unbroken context.className
  subroutine : Unbroken context.subroutine.name
  types : ∀ name found, context.resolve name = some found → Unbroken found.typeName

section Bodies

variable {context : Context}

@[simp]
theorem worded_load (name : Token) : Worded (context.load name) := by
  rw [Context.load]
  split <;> simp [Variable.push, Instruction.name?]

@[simp]
theorem worded_store (name : Token) : Worded (context.store name) := by
  rw [Context.store]
  split <;> simp [Variable.pop, Instruction.name?]

theorem worded_literal (token : Token) : Worded (literalCode token) := by
  have new : Unbroken "String.new" := by decide
  have append : Unbroken "String.appendChar" := by decide
  rw [literalCode]
  split
  · simp [Instruction.name?]
  · have characters : Worded (token.unquoted.toList.flatMap characterCode) :=
      worded_of_flatMap fun c _ => by simp [characterCode, Instruction.name?, append]
    simp [textCode, Instruction.name?, new, characters]
  · unfold constantCode
    split <;> simp [Instruction.name?]

theorem worded_binary (operator : String) : Worded [binaryInstruction operator] := by
  have multiply : Unbroken "Math.multiply" := by decide
  have divide : Unbroken "Math.divide" := by decide
  unfold binaryInstruction
  split <;> simp [Instruction.name?, multiply, divide]

theorem worded_unary (operator : String) : Worded [unaryInstruction operator] := by
  unfold unaryInstruction
  split <;> simp [Instruction.name?]

theorem worded_call {owner name : String} {count : UInt16} (first : Unbroken owner)
    (second : Unbroken name) : Worded [.call (owner ++ "." ++ name) count] := by
  have dot : Unbroken "." := by decide
  simp [Instruction.name?, first, second, dot]

private theorem worded_moreArguments {more : List (Comma × Expression)}
    (each : ∀ pair ∈ more, Worded (pair.2.code context)) :
    Worded (moreArgumentCode context more) := by
  induction more with
  | nil => exact worded_nil
  | cons pair more ih =>
    rw [List.forall_mem_cons] at each
    rw [moreArgumentCode]
    exact worded_append.mpr ⟨each.1, ih each.2⟩

private theorem worded_called {receiver arguments : Code} {owner name : String} {count : UInt16}
    (before : Worded receiver) (inner : Worded arguments) (first : Unbroken owner)
    (second : Unbroken name) :
    Worded (receiver ++ arguments ++ [.call (owner ++ "." ++ name) count]) :=
  worded_append.mpr ⟨worded_append.mpr ⟨before, inner⟩, worded_call first second⟩

theorem worded_push (segment : Segment) (index : UInt16) : Worded [.push segment index] := by
  simp [Instruction.name?]

private theorem worded_qualified (worded : context.Worded) {qualifier : Name} {dot : Word ["."]}
    {name : MemberName} {opening : Word ["("]} {arguments : Arguments} {closing : Word [")"]}
    (first : qualifier.val.WellFormed) (second : name.val.WellFormed)
    (inner : Worded (arguments.code context)) :
    Worded ((Call.qualified qualifier dot name opening arguments closing).code context) := by
  have owner := Name.unbroken first
  have member := MemberName.unbroken second
  rw [Call.code]
  split
  case h_1 receiver found =>
    exact worded_called (worded_push _ _) inner (worded.types _ _ found) member
  case h_2 =>
    split
    · exact worded_called (worded_push _ _) inner owner member
    · exact worded_called worded_nil inner owner member

private theorem worded_expressions (worded : context.Worded) :
    (∀ e : Expression, (∀ t ∈ e.tokens, t.WellFormed) → Worded (e.code context)) ∧
    (∀ t : Term, (∀ u ∈ t.tokens, u.WellFormed) → Worded (t.code context)) ∧
    (∀ c : Call, (∀ t ∈ c.tokens, t.WellFormed) → Worded (c.code context)) ∧
    (∀ a : Arguments, (∀ t ∈ a.tokens, t.WellFormed) → Worded (a.code context)) := by
  apply Expression.induction
  case term =>
    intro t ih
    rw [Expression.tokens, Expression.code]
    exact ih
  case binary =>
    intro left operator right first second formed
    simp only [Expression.tokens, List.forall_mem_append, List.forall_mem_cons] at formed
    have one := first formed.1
    have other := second formed.2.2
    simpa [Expression.code, one, other] using worded_binary operator.val.value
  case literal =>
    intro value _
    rw [Term.code]
    exact worded_literal _
  case name =>
    intro name _
    rw [Term.code]
    exact worded_load _
  case element =>
    intro array opening index closing ih formed
    simp only [Term.tokens, List.forall_mem_append, List.forall_mem_cons] at formed
    simp [Term.code, Instruction.name?, ih formed.2.2.1]
  case call =>
    intro c ih
    rw [Term.tokens, Term.code]
    exact ih
  case group =>
    intro opening inner closing ih formed
    simp only [Term.tokens, List.forall_mem_append, List.forall_mem_cons] at formed
    rw [Term.code]
    exact ih formed.2.1
  case unary =>
    intro operator operand ih formed
    rw [Term.tokens, List.forall_mem_cons] at formed
    simpa [Term.code, ih formed.2] using worded_unary operator.val.value
  case bare =>
    intro name opening arguments closing ih formed
    simp only [Call.tokens, List.forall_mem_append, List.forall_mem_cons] at formed
    rw [Call.code]
    exact worded_called (worded_push _ _) (ih formed.2.2.1) worded.className
      (Name.unbroken formed.1)
  case qualified =>
    intro qualifier dot name opening arguments closing ih formed
    simp only [Call.tokens, List.forall_mem_append, List.forall_mem_cons] at formed
    exact worded_qualified worded formed.1 formed.2.2.1 (ih formed.2.2.2.2.1)
  case empty =>
    intro _
    rw [Arguments.code]
    exact worded_nil
  case listed =>
    intro first more one each formed
    rw [Arguments.tokens, List.forall_mem_append, moreArgumentTokens_eq] at formed
    have inner := (forall_mem_commaTokens formed.2).2
    rw [Arguments.code]
    exact worded_append.mpr ⟨one formed.1,
      worded_moreArguments fun pair member => each pair member (inner pair member)⟩

theorem worded_label {tag : String} (worded : context.Worded) (number : Nat)
    (unbroken : Unbroken tag) : Unbroken (context.label tag number) := by
  have dot : Unbroken "." := by decide
  have mark : Unbroken "$" := by decide
  simp [Context.label, worded.className, dot, mark, unbroken]

private theorem worded_statementList {statements : List Statement}
    (each : ∀ s ∈ statements, ∀ number, Worded (s.code context number)) (number : Nat) :
    Worded (statementCode context number statements) := by
  induction statements generalizing number with
  | nil => exact worded_nil
  | cons s statements ih =>
    rw [List.forall_mem_cons] at each
    rw [statementCode]
    exact worded_append.mpr ⟨each.1 number, ih each.2 _⟩

private theorem worded_statements (worded : context.Worded) :
    (∀ s : Statement, (∀ t ∈ s.tokens, t.WellFormed) → ∀ number, Worded (s.code context number)) ∧
    (∀ b : Block, (∀ t ∈ b.tokens, t.WellFormed) → ∀ number, Worded (b.code context number)) := by
  have marked (text : String) (unbroken : Unbroken text) := worded_marker context.comments unbroken
  have otherwise (number : Nat) := worded_label worded number (by decide : Unbroken "IF_FALSE")
  have done (number : Nat) := worded_label worded number (by decide : Unbroken "IF_END")
  have start (number : Nat) := worded_label worded number (by decide : Unbroken "WHILE_START")
  have stop (number : Nat) := worded_label worded number (by decide : Unbroken "WHILE_END")
  apply Statement.induction
  case assign =>
    intro keyword target equals value semicolon formed number
    simp only [Statement.tokens, List.forall_mem_append, List.forall_mem_cons] at formed
    have inner := (worded_expressions worded).1 value formed.2.2.2.1
    simp [Statement.code, inner, marked "let" (by decide)]
  case assignElement =>
    intro keyword array opening index closing equals value semicolon formed number
    simp only [Statement.tokens, List.forall_mem_append, List.forall_mem_cons] at formed
    have place := (worded_expressions worded).1 index formed.2.2.2.1
    have inner := (worded_expressions worded).1 value formed.2.2.2.2.2.2.1
    simp [Statement.code, Instruction.name?, place, inner, marked "let" (by decide)]
  case ifThen =>
    intro keyword opening condition closing body ih formed number
    simp only [Statement.tokens, List.forall_mem_append, List.forall_mem_cons] at formed
    have test := (worded_expressions worded).1 condition formed.2.2.1
    simp [Statement.code, Instruction.name?, test, ih formed.2.2.2.2, otherwise, done,
      marked "if" (by decide)]
  case ifElse =>
    intro keyword opening condition closing body _ alternative ih ih' formed number
    simp only [Statement.tokens, List.forall_mem_append, List.forall_mem_cons] at formed
    have test := (worded_expressions worded).1 condition formed.2.2.1
    simp [Statement.code, Instruction.name?, test, ih formed.2.2.2.2.1, ih' formed.2.2.2.2.2.2,
      otherwise, done, marked "if" (by decide)]
  case loop =>
    intro keyword opening condition closing body ih formed number
    simp only [Statement.tokens, List.forall_mem_append, List.forall_mem_cons] at formed
    have test := (worded_expressions worded).1 condition formed.2.2.1
    simp [Statement.code, Instruction.name?, test, ih formed.2.2.2.2, start, stop,
      marked "while" (by decide)]
  case perform =>
    intro keyword call semicolon formed number
    simp only [Statement.tokens, List.forall_mem_append, List.forall_mem_cons] at formed
    have inner := (worded_expressions worded).2.2.1 call formed.2.1
    simp [Statement.code, Instruction.name?, inner, marked "do" (by decide)]
  case returnNothing =>
    intro keyword semicolon formed number
    simp [Statement.code, Instruction.name?, marked "return" (by decide)]
  case returnValue =>
    intro keyword value semicolon formed number
    simp only [Statement.tokens, List.forall_mem_append, List.forall_mem_cons] at formed
    have inner := (worded_expressions worded).1 value formed.2.1
    simp [Statement.code, Instruction.name?, inner, marked "return" (by decide)]
  case braced =>
    intro opening statements closing each formed number
    simp only [Block.tokens, List.forall_mem_append, List.forall_mem_cons, statementTokens_eq,
      List.forall_mem_flatMap] at formed
    rw [Block.code]
    exact worded_statementList (fun s member => each s member (formed.2.1 s member)) _

theorem worded_statementCode (worded : context.Worded) {statements : List Statement}
    (formed : ∀ t ∈ statementTokens statements, t.WellFormed) (number : Nat) :
    Worded (statementCode context number statements) := by
  rw [statementTokens_eq, List.forall_mem_flatMap] at formed
  exact worded_statementList (fun s member => (worded_statements worded).1 s (formed s member))
    number

theorem SubroutineBody.worded_code (worded : context.Worded) {body : SubroutineBody}
    (formed : ∀ t ∈ statementTokens body.statements, t.WellFormed) (number : Nat) :
    Worded (body.code context number) := by
  have dot : Unbroken "." := by decide
  have alloc : Unbroken "Memory.alloc" := by decide
  have kind : Unbroken context.subroutine.kind.name := by
    cases context.subroutine.kind <;> decide
  have opening : Worded (prologue context.scope context.subroutine.kind) := by
    cases context.subroutine.kind <;> simp [prologue, Instruction.name?, alloc]
  have last : Worded (body.lastReturn context) := by
    rw [lastReturn]
    split <;> simp [Instruction.name?]
  rw [body.code_parts]
  simp [worded_marker _ kind, Instruction.name?, worded.className, worded.subroutine, dot, opening,
    last, worded_statementCode worded formed]

end Bodies

section Units

variable {declaration : ClassDeclaration} {s : SubroutineDeclaration} {declared : List Declared}
  {table : SymbolTable}

theorem SymbolTable.typeName_mem_of_get? {name : String} {found : Variable}
    (same : (SymbolTable.empty.extend declared).get? name = some found) :
    found.typeName ∈ declared.map (·.typeName) := by
  have member := List.mem_of_find?_eq_some same
  -- Stated for every table, since the one that is extended grows along the list.
  suffices all : ∀ (table : SymbolTable), found ∈ (table.extend declared).entries →
      found ∈ table.entries ∨ found.typeName ∈ declared.map (·.typeName) by
    exact (all _ member).resolve_left List.not_mem_nil
  intro table
  clear same member
  induction declared generalizing table with
  | nil => exact .inl
  | cons d declared ih =>
    intro inside
    rcases ih _ inside with here | later
    · rcases List.mem_cons.mp here with rfl | before
      · exact .inr (.head _)
      · exact .inl before
    · exact .inr (.tail _ later)

private theorem declared_unbroken (formed : ∀ t ∈ declaration.tokens, t.WellFormed) :
    ∀ d ∈ declaration.variableList, Unbroken d.typeName := by
  simp only [ClassDeclaration.tokens, ClassVariables.tokens, List.forall_mem_append,
    List.forall_mem_cons, List.forall_mem_flatMap] at formed
  intro d member
  obtain ⟨group, inside, member⟩ := List.mem_flatMap.mp member
  obtain ⟨name, -, rfl⟩ := List.mem_map.mp member
  exact TypeName.unbroken (formed.2.2.2.1 group inside).2.1

private theorem local_unbroken (className : Unbroken declaration.className)
    (formed : ∀ t ∈ s.tokens, t.WellFormed) :
    ∀ d ∈ s.variableList declaration.className, Unbroken d.typeName := by
  simp only [SubroutineDeclaration.tokens, SubroutineBody.tokens, LocalVariables.tokens,
    List.forall_mem_append, List.forall_mem_cons, List.forall_mem_flatMap] at formed
  obtain ⟨-, -, -, -, parameters, -, -, locals, -⟩ := formed
  rw [SubroutineDeclaration.variableList, SubroutineDeclaration.declared,
    List.forall_mem_append, List.forall_mem_append]
  refine ⟨fun d member => ?_, fun d member => ?_, fun d member => ?_⟩
  · rw [SubroutineDeclaration.receiver] at member
    split at member
    · rw [List.mem_singleton.mp member]
      exact className
    · cases member
  · obtain ⟨parameter, inside, rfl⟩ := List.mem_map.mp member
    refine TypeName.unbroken fun t within => parameters t ?_
    exact Parameters.mem_tokens inside (List.mem_append_left _ within)
  · obtain ⟨group, inside, member⟩ := List.mem_flatMap.mp member
    obtain ⟨name, -, rfl⟩ := List.mem_map.mp member
    exact TypeName.unbroken (locals group inside).2.1

theorem ClassDeclaration.context_worded (formed : ∀ t ∈ declaration.tokens, t.WellFormed)
    (comments : Bool) (member : s ∈ declaration.subroutines) :
    (declaration.context comments s).Worded := by
  have own := formed_subroutines formed s member
  have className : Unbroken declaration.className := Name.unbroken (formed _ (.tail _ (.head _)))
  refine ⟨className, Name.unbroken (own _ ?_), fun name found same => ?_⟩
  · simp [SubroutineDeclaration.tokens]
  · rcases Option.or_eq_some_iff.mp same with here | ⟨-, outer⟩
    · obtain ⟨d, declared, equal⟩ := List.mem_map.mp (SymbolTable.typeName_mem_of_get? here)
      exact equal ▸ local_unbroken className own d declared
    · obtain ⟨d, declared, equal⟩ := List.mem_map.mp (SymbolTable.typeName_mem_of_get? outer)
      exact equal ▸ declared_unbroken formed d declared

theorem ClassDeclaration.worded_subroutineCode (formed : ∀ t ∈ declaration.tokens, t.WellFormed)
    (comments : Bool) {subroutines : List SubroutineDeclaration}
    (within : ∀ s ∈ subroutines, s ∈ declaration.subroutines) (number : Nat) :
    Worded (declaration.subroutineCode comments number subroutines) := by
  induction subroutines generalizing number with
  | nil => exact worded_nil
  | cons s subroutines ih =>
    rw [List.forall_mem_cons] at within
    rw [subroutineCode]
    exact worded_append.mpr ⟨SubroutineBody.worded_code (context_worded formed comments within.1)
      (formed_statements formed within.1) _, ih within.2 _⟩

theorem ClassDeclaration.worded_code (formed : ∀ t ∈ declaration.tokens, t.WellFormed)
    (comments : Bool) : Worded (declaration.code comments) := by
  have className : Unbroken declaration.className := Name.unbroken (formed _ (.tail _ (.head _)))
  have closing : Unbroken ("~" ++ declaration.className) :=
    unbroken_append.mpr ⟨by decide, className⟩
  rw [code]
  exact worded_append.mpr ⟨worded_append.mpr ⟨worded_marker _ className,
    worded_subroutineCode formed comments (fun _ member => member) _⟩, worded_marker _ closing⟩

end Units

end JackCompiler
