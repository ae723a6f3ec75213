import JackCompiler.Proofs.Operands.Cells

namespace JackCompiler

open Lowering

/-- Only constants are pushed that the machine has. -/
def InRange (code : Code) : Prop :=
  ∀ number, .push .constant number ∈ code → number.toNat ≤ maxIntegerConstant

section InRange

variable {first second code : Code} {instruction : Instruction} {context : Context}

@[simp]
theorem inRange_nil : InRange [] := nofun

@[simp]
theorem inRange_cons : InRange (instruction :: code) ↔
    (∀ number, instruction = .push .constant number → number.toNat ≤ maxIntegerConstant) ∧
      InRange code := by
  simp only [InRange, List.mem_cons, or_imp, forall_and, eq_comm]

@[simp]
theorem inRange_append : InRange (first ++ second) ↔ InRange first ∧ InRange second := by
  simp only [InRange, List.mem_append, or_imp, forall_and]

@[simp]
theorem inRange_marker (comments : Bool) (text : String) : InRange (marker comments text) := by
  cases comments <;> simp [marker]

theorem VariableKind.segment_ne_constant (kind : VariableKind) : kind.segment ≠ .constant := by
  cases kind <;> decide

@[simp]
theorem inRange_load (name : Token) : InRange (context.load name) := by
  rw [Context.load]
  split
  · simp [Variable.push, VariableKind.segment_ne_constant]
  · simp

@[simp]
theorem inRange_store (name : Token) : InRange (context.store name) := by
  rw [Context.store]
  split
  · simp [Variable.pop]
  · simp

@[simp]
theorem binaryInstruction_ne_push (operator : String) {segment : Segment} {index : UInt16} :
    binaryInstruction operator ≠ .push segment index := by
  unfold binaryInstruction
  split <;> simp

@[simp]
theorem unaryInstruction_ne_push (operator : String) {segment : Segment} {index : UInt16} :
    unaryInstruction operator ≠ .push segment index := by
  unfold unaryInstruction
  split <;> simp

@[simp]
theorem inRange_constantCode (word : String) : InRange (constantCode word) := by
  unfold constantCode
  split <;> simp [maxIntegerConstant]

@[simp]
theorem inRange_lastReturn (body : SubroutineBody) : InRange (body.lastReturn context) := by
  rw [SubroutineBody.lastReturn]
  split <;> simp

end InRange

/-- A token that is no string, or one whose length, in sixteen bits, and characters are constants of
the machine. -/
def Token.Narrow (token : Token) : Prop :=
  token.kind = .stringConstant →
    token.unquoted.toList.length % 65536 ≤ maxIntegerConstant ∧
      ∀ c ∈ token.unquoted.toList, c.toNat ≤ maxIntegerConstant

instance : DecidablePred Token.Narrow := fun token =>
  decidable_of_iff (token.kind = .stringConstant →
    token.unquoted.toList.length % 65536 ≤ maxIntegerConstant ∧
      token.unquoted.toList.all (·.toNat ≤ maxIntegerConstant) = true)
    (by simp only [List.all_eq_true, decide_eq_true_eq, Token.Narrow])

def AllNarrow (tokens : List Token) : Prop := ∀ t ∈ tokens, t.Narrow

instance : DecidablePred AllNarrow := fun tokens =>
  inferInstanceAs (Decidable (∀ t ∈ tokens, t.Narrow))

section Narrow

variable {values : List String} {token : Token} {first second tokens : List Token}
  {context : Context}

@[simp]
theorem allNarrow_nil : AllNarrow [] := nofun

@[simp]
theorem allNarrow_cons : AllNarrow (token :: tokens) ↔ token.Narrow ∧ AllNarrow tokens :=
  List.forall_mem_cons

@[simp]
theorem allNarrow_append : AllNarrow (first ++ second) ↔ AllNarrow first ∧ AllNarrow second :=
  List.forall_mem_append

theorem allNarrow_flatMap {α : Type} {tokensOf : α → List Token} {xs : List α} :
    AllNarrow (xs.flatMap tokensOf) ↔ ∀ x ∈ xs, AllNarrow (tokensOf x) :=
  List.forall_mem_flatMap

@[simp]
theorem narrow_word (word : Word values) : word.val.Narrow := by
  intro string
  simpa [Token.isOneOf, string] using word.property

@[simp]
theorem narrow_symbolWord (word : SymbolWord values) : word.val.Narrow := by
  intro string
  simpa [Token.isSymbolOf, string] using word.property

@[simp]
theorem narrow_name (name : Name) : name.val.Narrow := by
  intro string
  simpa [Token.isName, string] using name.property

@[simp]
theorem narrow_memberName (name : MemberName) : name.val.Narrow := by
  intro string
  simpa [Token.isMemberName, string] using name.property

theorem inRange_textCode {text : List Char} (small : ∀ c ∈ text, c.toNat < 65536) :
    InRange (textCode text) ↔ text.length % 65536 ≤ maxIntegerConstant ∧
      ∀ c ∈ text, c.toNat ≤ maxIntegerConstant := by
  have characters : InRange (text.flatMap characterCode) ↔
      ∀ c ∈ text, c.toNat ≤ maxIntegerConstant := by
    induction text with
    | nil => simp
    | cons c text ih =>
      rw [List.forall_mem_cons] at small ⊢
      rw [List.flatMap_cons, inRange_append, ih small.2]
      simp [characterCode, Nat.mod_eq_of_lt small.1]
  rw [textCode, inRange_cons, inRange_cons, characters]
  simp

theorem small_of_faultless (clear : context.faults [.text token] = []) :
    ∀ c ∈ token.unquoted.toList, c.toNat < 65536 := by
  intro c member
  simp only [Context.faults, List.filterMap_cons, Context.fault?] at clear
  cases found : token.unquoted.toList.find? fun c => decide (65536 ≤ c.toNat) with
  | some c =>
    rw [found] at clear
    cases clear
  | none => simpa using List.find?_eq_none.mp found c member

theorem inRange_literal (formed : token.WellFormed)
    (clear : context.faults (literalOccurrences token) = []) :
    InRange (literalCode token) ↔ token.Narrow := by
  -- The lexer has checked a number, but of a string only that its characters fit into sixteen bits.
  rw [Token.WellFormed] at formed
  rw [literalCode, Token.Narrow]
  rw [literalOccurrences] at clear
  split
  case h_1 kind =>
    rw [kind] at formed ⊢
    have small : decimalValue token.value.toList % 65536 ≤ maxIntegerConstant :=
      Nat.le_trans (Nat.mod_le _ _) formed.2.2
    simpa using small
  case h_2 kind =>
    rw [if_pos kind] at clear
    rw [inRange_textCode (small_of_faultless clear)]
    simp [kind]
  case h_3 other =>
    simp only [inRange_constantCode, true_iff]
    exact fun string => (other string).elim

end Narrow

section Bodies

variable {context : Context}

private abbrev RangeOf (context : Context) (tokens : List Token) (occurrences : List Occurrence)
    (code : Code) : Prop :=
  (∀ t ∈ tokens, t.WellFormed) → context.faults occurrences = [] →
    (InRange code ↔ AllNarrow tokens)

private theorem range_moreArguments {more : List (Comma × Expression)}
    (each : ∀ pair ∈ more,
      RangeOf context pair.2.tokens pair.2.occurrences (pair.2.code context)) :
    RangeOf context (moreArgumentTokens more) (moreArgumentOccurrences more)
      (moreArgumentCode context more) := by
  intro formed clear
  induction more with
  | nil => simp [moreArgumentCode, moreArgumentTokens]
  | cons pair more ih =>
    rw [List.forall_mem_cons] at each
    simp only [moreArgumentTokens, List.forall_mem_cons, List.forall_mem_append] at formed
    rw [moreArgumentOccurrences, Context.faults_append, List.append_eq_nil_iff] at clear
    have head := each.1 formed.2.1 clear.1
    have rest := ih each.2 formed.2.2 clear.2
    simp [moreArgumentCode, moreArgumentTokens, head, rest]

private theorem range_expressions :
    (∀ e : Expression, RangeOf context e.tokens e.occurrences (e.code context)) ∧
    (∀ t : Term, RangeOf context t.tokens t.occurrences (t.code context)) ∧
    (∀ c : Call, RangeOf context c.tokens c.occurrences (c.code context)) ∧
    (∀ a : Arguments, RangeOf context a.tokens a.occurrences (a.code context)) := by
  apply Expression.induction
  case term =>
    intro t ih
    rw [Expression.tokens, Expression.occurrences, Expression.code]
    exact ih
  case binary =>
    intro left operator right first second formed clear
    simp only [Expression.tokens, List.forall_mem_cons, List.forall_mem_append] at formed
    rw [Expression.occurrences, Context.faults_append, List.append_eq_nil_iff] at clear
    have one := first formed.1 clear.1
    have other := second formed.2.2 clear.2
    simp [Expression.code, Expression.tokens, one, other]
  case literal =>
    intro value formed clear
    rw [Term.tokens, List.forall_mem_singleton] at formed
    rw [Term.occurrences] at clear
    simp [Term.code, Term.tokens, inRange_literal formed clear]
  case name =>
    intro name formed clear
    simp [Term.code, Term.tokens]
  case element =>
    intro array opening index closing ih formed clear
    simp only [Term.tokens, List.forall_mem_cons, List.forall_mem_append] at formed
    rw [Term.occurrences, Context.faults_append, List.append_eq_nil_iff] at clear
    simp [Term.code, Term.tokens, ih formed.2.2.1 clear.1]
  case call =>
    intro c ih
    rw [Term.tokens, Term.occurrences, Term.code]
    exact ih
  case group =>
    intro opening inner closing ih formed clear
    simp only [Term.tokens, List.forall_mem_cons, List.forall_mem_append] at formed
    rw [Term.occurrences] at clear
    simp [Term.code, Term.tokens, ih formed.2.1 clear]
  case unary =>
    intro operator operand ih formed clear
    rw [Term.tokens, List.forall_mem_cons] at formed
    rw [Term.occurrences] at clear
    simp [Term.code, Term.tokens, ih formed.2 clear]
  case bare =>
    intro name opening arguments closing ih formed clear
    simp only [Call.tokens, List.forall_mem_cons, List.forall_mem_append] at formed
    rw [Call.occurrences, Context.faults_append, List.append_eq_nil_iff] at clear
    simp [Call.code, Call.tokens, ih formed.2.2.1 clear.1]
  case qualified =>
    intro qualifier dot name opening arguments closing ih formed clear
    simp only [Call.tokens, List.forall_mem_cons, List.forall_mem_append] at formed
    rw [Call.occurrences, Context.faults_append, List.append_eq_nil_iff] at clear
    have inner := ih formed.2.2.2.2.1 clear.1
    rw [Call.code]
    split
    · simp [Call.tokens, inner, Variable.push, VariableKind.segment_ne_constant]
    · split <;> simp [Call.tokens, inner]
  case empty => simp [Arguments.code, Arguments.tokens]
  case listed =>
    intro first more head each formed clear
    rw [Arguments.tokens, List.forall_mem_append] at formed
    rw [Arguments.occurrences, Context.faults_append, List.append_eq_nil_iff] at clear
    have one := head formed.1 clear.1
    have rest := range_moreArguments each formed.2 clear.2
    simp [Arguments.code, Arguments.tokens, one, rest]

private theorem range_statements {statements : List Statement}
    (each : ∀ s ∈ statements, ∀ number,
      RangeOf context s.tokens s.occurrences (s.code context number)) (number : Nat) :
    RangeOf context (statementTokens statements) (statementOccurrences statements)
      (statementCode context number statements) := by
  intro formed clear
  induction statements generalizing number with
  | nil => simp [statementCode, statementTokens]
  | cons s statements ih =>
    rw [List.forall_mem_cons] at each
    rw [statementTokens, List.forall_mem_append] at formed
    rw [statementOccurrences, Context.faults_append, List.append_eq_nil_iff] at clear
    have head := each.1 number formed.1 clear.1
    have rest := ih each.2 (number + s.nodes) formed.2 clear.2
    simp [statementCode, statementTokens, head, rest]

private theorem range_all :
    (∀ (s : Statement) number, RangeOf context s.tokens s.occurrences (s.code context number)) ∧
    (∀ (b : Block) number, RangeOf context b.tokens b.occurrences (b.code context number)) := by
  apply Statement.induction
  case assign =>
    intro keyword target equals value semicolon number formed clear
    simp only [Statement.tokens, List.forall_mem_cons, List.forall_mem_append] at formed
    rw [Statement.occurrences, Context.faults_append, List.append_eq_nil_iff] at clear
    have inner := range_expressions.1 value formed.2.2.2.1 clear.1
    simp [Statement.code, Statement.tokens, inner]
  case assignElement =>
    intro keyword array opening index closing equals value semicolon number formed clear
    simp only [Statement.tokens, List.forall_mem_cons, List.forall_mem_append] at formed
    simp only [Statement.occurrences, Context.faults_append, List.append_eq_nil_iff] at clear
    have place := range_expressions.1 index formed.2.2.2.1 clear.1.1
    have inner := range_expressions.1 value formed.2.2.2.2.2.2.1 clear.1.2
    simp [Statement.code, Statement.tokens, place, inner]
  case ifThen =>
    intro keyword opening condition closing body ih number formed clear
    simp only [Statement.tokens, List.forall_mem_cons, List.forall_mem_append] at formed
    rw [Statement.occurrences, Context.faults_append, List.append_eq_nil_iff] at clear
    have test := range_expressions.1 condition formed.2.2.1 clear.1
    simp [Statement.code, Statement.tokens, test, ih _ formed.2.2.2.2 clear.2]
  case ifElse =>
    intro keyword opening condition closing body otherwise alternative first second number formed
      clear
    simp only [Statement.tokens, List.forall_mem_cons, List.forall_mem_append] at formed
    simp only [Statement.occurrences, Context.faults_append, List.append_eq_nil_iff] at clear
    have test := range_expressions.1 condition formed.2.2.1 clear.1.1
    have one (place : Nat) := first place formed.2.2.2.2.1 clear.1.2
    have other (place : Nat) := second place formed.2.2.2.2.2.2 clear.2
    simp [Statement.code, Statement.tokens, test, one, other]
  case loop =>
    intro keyword opening condition closing body ih number formed clear
    simp only [Statement.tokens, List.forall_mem_cons, List.forall_mem_append] at formed
    rw [Statement.occurrences, Context.faults_append, List.append_eq_nil_iff] at clear
    have test := range_expressions.1 condition formed.2.2.1 clear.1
    simp [Statement.code, Statement.tokens, test, ih _ formed.2.2.2.2 clear.2]
  case perform =>
    intro keyword call semicolon number formed clear
    simp only [Statement.tokens, List.forall_mem_cons, List.forall_mem_append] at formed
    rw [Statement.occurrences] at clear
    have inner := range_expressions.2.2.1 call formed.2.1 clear
    simp [Statement.code, Statement.tokens, inner]
  case returnNothing =>
    intro keyword semicolon number formed clear
    simp [Statement.code, Statement.tokens]
  case returnValue =>
    intro keyword value semicolon number formed clear
    simp only [Statement.tokens, List.forall_mem_cons, List.forall_mem_append] at formed
    rw [Statement.occurrences, Context.faults_append, List.append_eq_nil_iff] at clear
    have inner := range_expressions.1 value formed.2.1 clear.1
    simp [Statement.code, Statement.tokens, inner]
  case braced =>
    intro opening statements closing each number formed clear
    simp only [Block.tokens, List.forall_mem_cons, List.forall_mem_append] at formed
    rw [Block.occurrences] at clear
    simp [Block.code, Block.tokens, range_statements each _ formed.2.1 clear]

theorem inRange_statementCode {statements : List Statement}
    (formed : ∀ t ∈ statementTokens statements, t.WellFormed)
    (clear : context.faults (statementOccurrences statements) = []) (number : Nat) :
    InRange (statementCode context number statements) ↔
      AllNarrow (statementTokens statements) :=
  range_statements (fun s _ => range_all.1 s) number formed clear

end Bodies

section Declarations

variable {α : Type} {tokensOf : α → List Token}

@[simp]
theorem allNarrow_typeName (type : TypeName) : AllNarrow type.tokens := by
  cases type <;> simp [TypeName.tokens]

@[simp]
theorem allNarrow_returnType (type : ReturnType) : AllNarrow type.tokens := by
  cases type <;> simp [ReturnType.tokens]

theorem allNarrow_commaTokens (each : ∀ x, AllNarrow (tokensOf x)) (more : List (Comma × α)) :
    AllNarrow (commaTokens tokensOf more) :=
  allNarrow_flatMap.mpr fun pair _ => by simp [each]

@[simp]
theorem allNarrow_nameList (names : NameList) : AllNarrow names.tokens := by
  have each (name : Name) : AllNarrow (nameTokens name) := by simp [nameTokens]
  simp [NameList.tokens, allNarrow_commaTokens each]

@[simp]
theorem allNarrow_parameters (parameters : Parameters) : AllNarrow parameters.tokens := by
  have each (parameter : Parameter) : AllNarrow parameter.tokens := by simp [Parameter.tokens]
  cases parameters <;> simp [Parameters.tokens, each, allNarrow_commaTokens each]

@[simp]
theorem allNarrow_classVariables (d : ClassVariables) : AllNarrow d.tokens := by
  simp [ClassVariables.tokens]

@[simp]
theorem allNarrow_localVariables (d : LocalVariables) : AllNarrow d.tokens := by
  simp [LocalVariables.tokens]

theorem SubroutineDeclaration.allNarrow_tokens (s : SubroutineDeclaration) :
    AllNarrow s.tokens ↔ AllNarrow (statementTokens s.body.statements) := by
  simp [tokens, SubroutineBody.tokens, allNarrow_flatMap]

theorem ClassDeclaration.allNarrow_tokens (declaration : ClassDeclaration) :
    AllNarrow declaration.tokens ↔
      ∀ s ∈ declaration.subroutines, AllNarrow (statementTokens s.body.statements) := by
  simp [tokens, allNarrow_flatMap, SubroutineDeclaration.allNarrow_tokens]

end Declarations

/-- The strings of a class and the objects it makes are small enough. -/
structure ClassDeclaration.Narrow (declaration : ClassDeclaration) : Prop where
  strings : AllNarrow declaration.tokens
  objects : ∀ s ∈ declaration.subroutines, s.kind = .constructor →
    (declaration.namesOfKind .field).length % 65536 ≤ maxIntegerConstant

theorem ClassDeclaration.narrow_iff (declaration : ClassDeclaration) :
    declaration.Narrow ↔ AllNarrow declaration.tokens ∧
      ∀ s ∈ declaration.subroutines, s.kind = .constructor →
        (declaration.namesOfKind .field).length % 65536 ≤ maxIntegerConstant :=
  ⟨fun narrow => ⟨narrow.strings, narrow.objects⟩, fun ⟨strings, objects⟩ => ⟨strings, objects⟩⟩

instance (declaration : ClassDeclaration) : Decidable declaration.Narrow :=
  decidable_of_iff' _ declaration.narrow_iff

section Units

variable {source : String} {declaration : ClassDeclaration} {code : Code} {comments : Bool}
  {s : SubroutineDeclaration}

theorem inRange_opening {words : UInt16} (kind : SubroutineKind) :
    InRange (kind.opening words) ↔
      (kind = .constructor → words.toNat ≤ maxIntegerConstant) := by
  cases kind <;> simp [SubroutineKind.opening]

theorem inRange_bodyCode (formed : ∀ t ∈ declaration.tokens, t.WellFormed)
    (faultless : declaration.faults = []) (member : s ∈ declaration.subroutines) (number : Nat) :
    InRange (declaration.bodyCode comments s number) ↔
      (s.kind = .constructor →
        (declaration.namesOfKind .field).length % 65536 ≤ maxIntegerConstant) ∧
      AllNarrow (statementTokens s.body.statements) := by
  have clear : (declaration.context comments s).faults s.occurrences = [] :=
    faults_within faultless member fun _ inside => inside
  have kind : (declaration.context comments s).subroutine.kind = s.kind := rfl
  have size : (max ((declaration.context comments s).scope.classVariables.count .field) 1).toNat ≤
      maxIntegerConstant ↔
        (declaration.namesOfKind .field).length % 65536 ≤ maxIntegerConstant := by
    rw [declaration.count_fields, UInt16.toNat_max, UInt16.toNat_ofNat', Nat.max_le]
    exact and_iff_left (by decide)
  rw [ClassDeclaration.bodyCode, SubroutineBody.code_parts, prologue_eq, kind]
  simp [inRange_opening, size, inRange_statementCode (formed_statements formed member) clear]

theorem inRange_subroutineCode (formed : ∀ t ∈ declaration.tokens, t.WellFormed)
    (faultless : declaration.faults = []) {subroutines : List SubroutineDeclaration}
    (within : ∀ s ∈ subroutines, s ∈ declaration.subroutines) (number : Nat) :
    InRange (declaration.subroutineCode comments number subroutines) ↔
      ∀ s ∈ subroutines, (s.kind = .constructor →
        (declaration.namesOfKind .field).length % 65536 ≤ maxIntegerConstant) ∧
        AllNarrow (statementTokens s.body.statements) := by
  induction subroutines generalizing number with
  | nil => simp [ClassDeclaration.subroutineCode]
  | cons s subroutines ih =>
    rw [List.forall_mem_cons] at within ⊢
    rw [ClassDeclaration.subroutineCode, inRange_append, ih within.2,
      inRange_bodyCode formed faultless within.1]

/-- The code of a compiled unit keeps to the constants of the machine exactly if its strings and its
objects are small. -/
theorem constants_in_range_iff
    (read : parse .classDeclaration (items source.toList) = .ok (.classDeclaration declaration))
    (compiles : compile comments source = .ok code) : InRange code ↔ declaration.Narrow := by
  obtain ⟨formed, faultless, rfl⟩ := unit_compiled read compiles
  rw [ClassDeclaration.code, inRange_append, inRange_append,
    inRange_subroutineCode formed faultless (fun _ member => member), declaration.narrow_iff,
    declaration.allNarrow_tokens, forall₂_and]
  simp only [inRange_marker, true_and, and_comm]

private def greetingText : String :=
  "class Sign \x7b field Array text; constructor Sign new() \x7b let text = \"h\u00e9\"; " ++
    "return this; \x7d \x7d"

theorem constants_in_range_iff_greeting :
    ∃ code, compile false greetingText = .ok code ∧ InRange code := by
  have found : (faultlessUnit? greetingText).any (fun d => decide d.Narrow) = true := by
    decide +kernel
  obtain ⟨declaration, unit, narrow⟩ := Option.any_eq_true _ _ |>.mp found
  obtain ⟨read, compiles⟩ := compile_of_faultlessUnit? false unit
  exact ⟨_, compiles, (constants_in_range_iff read compiles).mpr (of_decide_eq_true narrow)⟩

private def farText : String :=
  "class A \x7b function void f() \x7b do g(\"\u8000\"); return; \x7d \x7d"

theorem constants_out_of_range :
    ∃ code, compile false farText = .ok code ∧ ¬ InRange code := by
  have found : (faultlessUnit? farText).any
      (fun d => decide (.push .constant 0x8000 ∈ d.code false)) = true := by decide +kernel
  obtain ⟨declaration, unit, member⟩ := Option.any_eq_true _ _ |>.mp found
  refine ⟨_, (compile_of_faultlessUnit? false unit).2, fun inside => ?_⟩
  exact absurd (inside _ (of_decide_eq_true member)) (by decide)

end Units

end JackCompiler
