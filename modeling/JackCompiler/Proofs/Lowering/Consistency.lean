import JackCompiler.Proofs.Lowering.Unit

/-!
# Consistent units

A unit that can be read has code exactly if its declarations fit together. Otherwise the error names
something that is really wrong with it, and no internal check of the generator fails.
-/

namespace JackCompiler

open Lowering

def SubroutineDeclaration.names (subroutine : SubroutineDeclaration) : List String :=
  subroutine.declared.map (·.name)

namespace ClassDeclaration

def names (declaration : ClassDeclaration) : List String := declaration.variableList.map (·.name)

/-- The declarations of a unit fit together and cover what its bodies use. -/
structure Consistent (declaration : ClassDeclaration) : Prop where
  globals : declaration.names.Nodup
  locals : ∀ s ∈ declaration.subroutines, s.names.Nodup
  uses : ∀ s ∈ declaration.subroutines, ∀ token, .variable token ∈ s.occurrences →
    token.value ∈ s.names ∨ token.value ∈ declaration.names
  returns : ∀ s ∈ declaration.subroutines, ∀ hasValue, .leave hasValue ∈ s.occurrences →
    (hasValue = true ↔ s.returnType.isVoid = false)
  texts : ∀ s ∈ declaration.subroutines, ∀ literal, .text literal ∈ s.occurrences →
    ∀ c ∈ literal.unquoted.toList, c.toNat ≤ 0xFFFF

/-- Something that is wrong with a unit, and the error that says so. -/
inductive Fault (declaration : ClassDeclaration) : CompileError → Prop
  | repeatedVariable {name : String} : 2 ≤ declaration.names.count name →
    Fault declaration (.duplicateSymbol name)
  | repeatedLocal {s : SubroutineDeclaration} {name : String} : s ∈ declaration.subroutines →
    2 ≤ s.names.count name → Fault declaration (.duplicateSymbol name)
  | undeclared {s : SubroutineDeclaration} {token : Token} : s ∈ declaration.subroutines →
    .variable token ∈ s.occurrences → token.value ∉ s.names → token.value ∉ declaration.names →
    Fault declaration (.undeclaredSymbol token.line token.value)
  | valueFromVoid {s : SubroutineDeclaration} : s ∈ declaration.subroutines →
    s.returnType.isVoid = true → .leave true ∈ s.occurrences →
    Fault declaration (.invariant (.valueFromVoid s.name.val.value))
  | noValueReturned {s : SubroutineDeclaration} : s ∈ declaration.subroutines →
    s.returnType.isVoid = false → .leave false ∈ s.occurrences →
    Fault declaration (.invariant (.noValueReturned s.name.val.value s.returnType.text))
  | unsupportedCharacter {s : SubroutineDeclaration} {literal : Token} {c : Char} :
    s ∈ declaration.subroutines → .text literal ∈ s.occurrences → c ∈ literal.unquoted.toList →
    0xFFFF < c.toNat → Fault declaration (.invariant (.unsupportedCharacter c))

end ClassDeclaration

/-! ## Names that are used -/

theorem Name.value_not_mem_keywords {name : Name} (formed : name.val.WellFormed) :
    name.val.value ∉ keywords := by
  have kind : name.val.kind = .identifier := by
    have passes := name.property
    simpa [Token.isName] using passes
  simp only [Token.WellFormed, kind] at formed
  exact formed.2

private def Named (tokens : List Token) (occurrences : List Occurrence) : Prop :=
  ∀ name, .variable name ∈ occurrences → name ∈ tokens ∧ name.isName = true

namespace Named

variable {tokens whole : List Token} {occurrences first second : List Occurrence}

private theorem mono (named : Named tokens occurrences) (within : tokens ⊆ whole) :
    Named whole occurrences :=
  fun name member => (named name member).imp_left fun inside => within inside

private theorem append (left : Named tokens first) (right : Named tokens second) :
    Named tokens (first ++ second) :=
  fun name member => (List.mem_append.mp member).elim (left name) (right name)

private theorem single (name : Name) (member : name.val ∈ tokens) :
    Named tokens [.variable name.val] := by
  intro other inside
  cases List.mem_singleton.mp inside
  exact ⟨member, name.property⟩

private theorem none : Named tokens [] := fun _ member => absurd member List.not_mem_nil

private theorem call (count : Nat) : Named tokens [.call count] :=
  fun name member => by simp at member

end Named

private theorem named_moreArguments {more : List (Comma × Expression)}
    (each : ∀ pair ∈ more, Named pair.2.tokens pair.2.occurrences) :
    Named (moreArgumentTokens more) (moreArgumentOccurrences more) := by
  induction more with
  | nil => exact .none
  | cons pair more ih =>
    obtain ⟨comma, argument⟩ := pair
    rw [moreArgumentTokens, moreArgumentOccurrences]
    exact ((each _ (.head _)).mono (by simp)).append
      ((ih fun pair member => each pair (.tail _ member)).mono (by simp))

private theorem named_expressions :
    (∀ e : Expression, Named e.tokens e.occurrences) ∧
    (∀ t : Term, Named t.tokens t.occurrences) ∧ (∀ c : Call, Named c.tokens c.occurrences) ∧
    (∀ a : Arguments, Named a.tokens a.occurrences) := by
  apply Expression.induction
  case term =>
    intro t ih
    rw [Expression.tokens, Expression.occurrences]
    exact ih
  case binary =>
    intro left operator right first second
    rw [Expression.tokens, Expression.occurrences]
    exact (first.mono (by simp)).append (second.mono (by simp))
  case literal =>
    intro value
    rw [Term.tokens, Term.occurrences, literalOccurrences]
    split
    · exact fun name member => by simp at member
    · exact .none
  case name =>
    intro name
    rw [Term.tokens, Term.occurrences]
    exact .single name (.head _)
  case element =>
    intro array opening index closing ih
    rw [Term.tokens, Term.occurrences]
    exact (ih.mono fun t member => by simp [member]).append (.single array (.head _))
  case call =>
    intro c ih
    rw [Term.tokens, Term.occurrences]
    exact ih
  case group =>
    intro opening inner closing ih
    rw [Term.tokens, Term.occurrences]
    exact ih.mono fun t member => by simp [member]
  case unary =>
    intro operator operand ih
    rw [Term.tokens, Term.occurrences]
    exact ih.mono (List.subset_cons_self _ _)
  case bare =>
    intro name opening arguments closing ih
    rw [Call.tokens, Call.occurrences]
    exact (ih.mono fun t member => by simp [member]).append (.call _)
  case qualified =>
    intro qualifier dot name opening arguments closing ih
    rw [Call.tokens, Call.occurrences]
    exact (ih.mono fun t member => by simp [member]).append (.call _)
  case empty => exact .none
  case listed =>
    intro first more one each
    rw [Arguments.tokens, Arguments.occurrences]
    exact (one.mono (by simp)).append ((named_moreArguments each).mono (by simp))

private theorem Named.leave (tokens : List Token) (hasValue : Bool) :
    Named tokens [.leave hasValue] :=
  fun name member => by simp at member

private theorem named_statementList {statements : List Statement}
    (each : ∀ s ∈ statements, Named s.tokens s.occurrences) :
    Named (statementTokens statements) (statementOccurrences statements) := by
  induction statements with
  | nil => exact .none
  | cons s statements ih =>
    rw [statementTokens, statementOccurrences]
    exact ((each _ (.head _)).mono (List.subset_append_left _ _)).append
      ((ih fun s member => each s (.tail _ member)).mono (List.subset_append_right _ _))

private theorem named_statements_blocks :
    (∀ s : Statement, Named s.tokens s.occurrences) ∧
    (∀ b : Block, Named b.tokens b.occurrences) := by
  have inner := named_expressions.1
  apply Statement.induction
  case assign =>
    intro keyword target equals value semicolon
    rw [Statement.tokens, Statement.occurrences]
    exact ((inner value).mono fun t member => by simp [member]).append
      (.single target (.tail _ (.head _)))
  case assignElement =>
    intro keyword array opening index closing equals value semicolon
    rw [Statement.tokens, Statement.occurrences]
    exact (((inner index).mono fun t member => by simp [member]).append
      ((inner value).mono fun t member => by simp [member])).append
        (.single array (.tail _ (.head _)))
  case ifThen =>
    intro keyword opening condition closing body ih
    rw [Statement.tokens, Statement.occurrences]
    exact ((inner condition).mono fun t member => by simp [member]).append
      (ih.mono fun t member => by simp [member])
  case ifElse =>
    intro keyword opening condition closing body otherwise alternative first second
    rw [Statement.tokens, Statement.occurrences]
    exact (((inner condition).mono fun t member => by simp [member]).append
      (first.mono fun t member => by simp [member])).append
        (second.mono fun t member => by simp [member])
  case loop =>
    intro keyword opening condition closing body ih
    rw [Statement.tokens, Statement.occurrences]
    exact ((inner condition).mono fun t member => by simp [member]).append
      (ih.mono fun t member => by simp [member])
  case perform =>
    intro keyword call semicolon
    rw [Statement.tokens, Statement.occurrences]
    exact (named_expressions.2.2.1 call).mono fun t member => by simp [member]
  case returnNothing => exact fun _ _ => .leave _ _
  case returnValue =>
    intro keyword value semicolon
    rw [Statement.tokens, Statement.occurrences]
    exact ((inner value).mono fun t member => by simp [member]).append (.leave _ _)
  case braced =>
    intro opening statements closing each
    rw [Block.tokens, Block.occurrences]
    exact (named_statementList each).mono fun t member => by simp [member]

theorem SubroutineDeclaration.statementTokens_subset (s : SubroutineDeclaration) :
    statementTokens s.body.statements ⊆ s.tokens := by
  intro token member
  have inside : token ∈ s.body.tokens := by simp [SubroutineBody.tokens, member]
  simp [SubroutineDeclaration.tokens, inside]

theorem SubroutineDeclaration.used_mem_tokens {s : SubroutineDeclaration} {name : Token}
    (used : .variable name ∈ s.occurrences) : name ∈ s.tokens ∧ name.isName = true := by
  have named : Named (statementTokens s.body.statements) s.occurrences :=
    named_statementList fun statement _ => named_statements_blocks.1 statement
  exact (named name used).imp_left fun member => s.statementTokens_subset member

theorem SubroutineDeclaration.used_not_mem_keywords {s : SubroutineDeclaration} {name : Token}
    (formed : ∀ t ∈ s.tokens, t.WellFormed) (used : .variable name ∈ s.occurrences) :
    name.value ∉ keywords := by
  obtain ⟨member, isName⟩ := s.used_mem_tokens used
  exact @Name.value_not_mem_keywords ⟨name, isName⟩ (formed name member)

/-! ## Names that are declared -/

theorem NameList.exists_of_mem_texts {names : NameList} {text : String}
    (member : text ∈ names.texts) : ∃ name : Name, name.val ∈ names.tokens ∧ name.val.value = text := by
  rcases List.mem_cons.mp member with rfl | member
  · exact ⟨names.first, .head _, rfl⟩
  · obtain ⟨pair, inside, rfl⟩ := List.mem_map.mp member
    exact ⟨pair.2, .tail _ (List.mem_flatMap.mpr ⟨pair, inside, .tail _ (.head _)⟩), rfl⟩

theorem Parameters.mem_tokens {parameters : Parameters} {parameter : Parameter} {token : Token}
    (member : parameter ∈ parameters.list) (part : token ∈ parameter.tokens) :
    token ∈ parameters.tokens := by
  cases parameters with
  | empty => cases member
  | listed first more =>
    rcases List.mem_cons.mp member with rfl | member
    · exact List.mem_append_left _ part
    · obtain ⟨pair, inside, rfl⟩ := List.mem_map.mp member
      exact List.mem_append_right _ (List.mem_flatMap.mpr ⟨pair, inside, .tail _ part⟩)

theorem SubroutineDeclaration.exists_of_mem_names {s : SubroutineDeclaration} {text : String}
    (member : text ∈ s.names) : ∃ name : Name, name.val ∈ s.tokens ∧ name.val.value = text := by
  obtain ⟨declared, there, rfl⟩ := List.mem_map.mp member
  rcases List.mem_append.mp there with there | there
  · obtain ⟨parameter, inside, rfl⟩ := List.mem_map.mp there
    refine ⟨parameter.name, ?_, rfl⟩
    have own : parameter.name.val ∈ parameter.tokens := by simp [Parameter.tokens]
    simp [SubroutineDeclaration.tokens, Parameters.mem_tokens inside own]
  · obtain ⟨declaration, inside, there⟩ := List.mem_flatMap.mp there
    obtain ⟨text, listed, rfl⟩ := List.mem_map.mp there
    obtain ⟨name, inName, same⟩ := NameList.exists_of_mem_texts listed
    refine ⟨name, ?_, same⟩
    have own : name.val ∈ declaration.tokens := by simp [LocalVariables.tokens, inName]
    have listed : ∃ other ∈ s.body.locals, name.val ∈ other.tokens :=
      ⟨declaration, inside, own⟩
    simp [SubroutineDeclaration.tokens, SubroutineBody.tokens, listed]

theorem SubroutineDeclaration.names_not_mem_keywords {s : SubroutineDeclaration}
    (formed : ∀ t ∈ s.tokens, t.WellFormed) : ∀ name ∈ s.names, name ∉ keywords := by
  intro text member
  obtain ⟨name, inside, rfl⟩ := s.exists_of_mem_names member
  exact Name.value_not_mem_keywords (formed _ inside)

theorem ClassDeclaration.exists_of_mem_names {d : ClassDeclaration} {text : String}
    (member : text ∈ d.names) : ∃ name : Name, name.val ∈ d.tokens ∧ name.val.value = text := by
  obtain ⟨declared, there, rfl⟩ := List.mem_map.mp member
  obtain ⟨declaration, inside, there⟩ := List.mem_flatMap.mp there
  obtain ⟨text, listed, rfl⟩ := List.mem_map.mp there
  obtain ⟨name, inName, same⟩ := NameList.exists_of_mem_texts listed
  have own : name.val ∈ declaration.tokens := by simp [ClassVariables.tokens, inName]
  have listed : ∃ other ∈ d.declarations, name.val ∈ other.tokens := ⟨declaration, inside, own⟩
  exact ⟨name, by simp [ClassDeclaration.tokens, listed], same⟩

/-! ## Repeated names -/

theorem SymbolTable.duplicates_empty_eq_nil (declared : List Declared) :
    SymbolTable.empty.duplicates declared = [] ↔ (declared.map (·.name)).Nodup := by
  rw [duplicates, List.map_eq_nil_iff, repeats_eq_nil]
  exact and_iff_left fun name _ => List.not_mem_nil

theorem SymbolTable.mem_duplicates_empty {declared : List Declared} {e : CompileError}
    (member : e ∈ SymbolTable.empty.duplicates declared) :
    ∃ name, e = .duplicateSymbol name ∧ 2 ≤ (declared.map (·.name)).count name := by
  obtain ⟨name, inside, rfl⟩ := List.mem_map.mp member
  have twice := (count_of_mem_repeats inside).2
  exact ⟨name, rfl, by simpa [SymbolTable.names, SymbolTable.empty] using twice⟩

section Subroutine

variable {declaration : ClassDeclaration} {s : SubroutineDeclaration}

theorem SubroutineDeclaration.variableList_names (className : String) :
    (s.variableList className).map (·.name) = (if s.kind = .method then ["this"] else []) ++ s.names := by
  rw [variableList, List.map_append, receiver]
  split <;> rfl

theorem SubroutineDeclaration.mem_variableList {className name : String} (own : name ∈ s.names) :
    name ∈ (s.variableList className).map (·.name) := by
  rw [variableList_names]
  exact List.mem_append_right _ own

theorem SubroutineDeclaration.this_not_mem_names (formed : ∀ t ∈ s.tokens, t.WellFormed) :
    "this" ∉ s.names :=
  fun member => s.names_not_mem_keywords formed _ member (by decide)

theorem SubroutineDeclaration.variableList_nodup (formed : ∀ t ∈ s.tokens, t.WellFormed)
    (className : String) : ((s.variableList className).map (·.name)).Nodup ↔ s.names.Nodup := by
  rw [variableList_names]
  split
  · exact List.nodup_cons.trans (and_iff_right (s.this_not_mem_names formed))
  · rfl

theorem SubroutineDeclaration.variableList_count (formed : ∀ t ∈ s.tokens, t.WellFormed)
    {className name : String} (twice : 2 ≤ ((s.variableList className).map (·.name)).count name) :
    2 ≤ s.names.count name := by
  rw [variableList_names] at twice
  split at twice
  · have absent := List.count_eq_zero.mpr (s.this_not_mem_names formed)
    rw [List.singleton_append, List.count_cons] at twice
    split at twice
    · rename_i same
      rw [← beq_iff_eq.mp same] at twice ⊢
      omega
    · omega
  · exact twice

/-! ## What a subroutine asks for -/

theorem ClassDeclaration.resolve_isSome {name : String} (other : name ≠ "this") :
    ((declaration.context false s).resolve name).isSome = true ↔
      name ∈ s.names ∨ name ∈ declaration.names := by
  have own : name ∈ (SymbolTable.empty.extend (s.variableList declaration.className)).names ↔
      name ∈ s.names := by
    rw [SymbolTable.names_extend, SubroutineDeclaration.variableList_names]
    split <;> simp [SymbolTable.names, SymbolTable.empty, other]
  have outer : name ∈ (SymbolTable.empty.extend declaration.variableList).names ↔
      name ∈ declaration.names := by
    rw [SymbolTable.names_extend]
    simp [SymbolTable.names, SymbolTable.empty, names]
  change (lookup (SymbolTable.empty.extend (s.variableList declaration.className))
    (SymbolTable.empty.extend declaration.variableList) name).isSome = true ↔ _
  rw [lookup, Option.isSome_or, Bool.or_eq_true, SymbolTable.get?_isSome, SymbolTable.get?_isSome,
    own, outer]

theorem ClassDeclaration.isVoid_eq (formed : ∀ t ∈ s.tokens, t.WellFormed) :
    (declaration.context false s).isVoid = s.returnType.isVoid := by
  have formedType : ∀ t ∈ s.returnType.tokens, t.WellFormed := fun t member =>
    formed t (.tail _ (List.mem_append_left _ member))
  change (s.returnType.text == "void") = _
  cases same : s.returnType with
  | void word =>
    rw [ReturnType.text, word.value_eq]
    rfl
  | value type =>
    rw [same] at formedType
    cases type with
    | builtIn word =>
      have one := word.value_mem
      simp only [typeWords, List.mem_cons, List.not_mem_nil, or_false] at one
      simp only [ReturnType.text, TypeName.text, ReturnType.isVoid]
      rcases one with same | same | same <;> rw [same] <;> rfl
    | named name =>
      have free := Name.value_not_mem_keywords (formedType name.val (.head _))
      refine beq_false_of_ne fun same => free ?_
      change name.val.value = "void" at same
      rw [same]
      decide

private theorem fault?_variable {token : Token} (formed : ∀ t ∈ s.tokens, t.WellFormed)
    (used : .variable token ∈ s.occurrences) :
    (declaration.context false s).fault? (.variable token) =
      if token.value ∈ s.names ∨ token.value ∈ declaration.names then none
      else some (.undeclaredSymbol token.line token.value) := by
  have other : token.value ≠ "this" := by
    intro same
    exact s.used_not_mem_keywords formed used (by rw [same]; decide)
  have found := declaration.resolve_isSome (s := s) other
  rw [Context.fault?]
  split
  · rename_i same
    rw [same] at found
    rw [if_pos (found.mp rfl)]
  · rename_i same
    rw [same] at found
    rw [if_neg fun declared => absurd (found.mpr declared) Bool.false_ne_true]

private theorem fault?_leave (formed : ∀ t ∈ s.tokens, t.WellFormed) (hasValue : Bool) :
    (declaration.context false s).fault? (.leave hasValue) =
      match s.returnType.isVoid, hasValue with
      | true, true => some (.invariant (.valueFromVoid s.name.val.value))
      | false, false => some (.invariant (.noValueReturned s.name.val.value s.returnType.text))
      | _, _ => none := by
  simp only [Context.fault?, declaration.isVoid_eq formed]
  cases s.returnType.isVoid <;> cases hasValue <;> rfl

private theorem fault?_text {literal : Token} {e : CompileError}
    (fault : (declaration.context false s).fault? (.text literal) = some e) :
    ∃ c ∈ literal.unquoted.toList, 0xFFFF < c.toNat ∧ e = .invariant (.unsupportedCharacter c) := by
  simp only [Context.fault?, Option.map_eq_some_iff] at fault
  obtain ⟨c, found, rfl⟩ := fault
  have large : 65536 ≤ c.toNat := by simpa using List.find?_some found
  exact ⟨c, List.mem_of_find?_eq_some found, large, rfl⟩

end Subroutine

/-! ## Faults -/

section Faults

variable {declaration : ClassDeclaration}

private theorem fault_of_subroutine {s : SubroutineDeclaration}
    (member : s ∈ declaration.subroutines) (formed : ∀ t ∈ s.tokens, t.WellFormed)
    {e : CompileError} (found : e ∈ declaration.subroutineFaults s) : declaration.Fault e := by
  rcases List.mem_append.mp found with found | found
  · obtain ⟨name, rfl, twice⟩ := SymbolTable.mem_duplicates_empty found
    exact .repeatedLocal member (s.variableList_count formed twice)
  · obtain ⟨o, occurs, fault⟩ := List.mem_filterMap.mp found
    rcases o with token | literal | count | hasValue
    · rw [fault?_variable formed occurs] at fault
      split at fault
      · cases fault
      · rename_i absent
        cases fault
        exact .undeclared member occurs (fun own => absent (.inl own))
          (fun outer => absent (.inr outer))
    · obtain ⟨c, inside, large, rfl⟩ := fault?_text fault
      exact .unsupportedCharacter member occurs inside large
    · cases fault
    · rw [fault?_leave formed] at fault
      split at fault
      · cases fault
        exact .valueFromVoid member ‹_› occurs
      · cases fault
        exact .noValueReturned member ‹_› occurs
      · cases fault

theorem ClassDeclaration.fault_of_mem (formed : ∀ t ∈ declaration.tokens, t.WellFormed)
    {e : CompileError} (found : e ∈ declaration.faults) : declaration.Fault e := by
  rcases List.mem_append.mp found with found | found
  · obtain ⟨name, rfl, twice⟩ := SymbolTable.mem_duplicates_empty found
    exact .repeatedVariable twice
  · obtain ⟨s, member, found⟩ := List.mem_flatMap.mp found
    exact fault_of_subroutine member (formed_subroutines formed s member) found

theorem ClassDeclaration.Consistent.not_fault (consistent : declaration.Consistent)
    {e : CompileError} : ¬ declaration.Fault e := by
  intro fault
  cases fault with
  | repeatedVariable twice =>
    have once := List.nodup_iff_count.mp consistent.globals
    exact absurd (once _) (Nat.not_le.mpr twice)
  | repeatedLocal member twice =>
    have once := List.nodup_iff_count.mp (consistent.locals _ member)
    exact absurd (once _) (Nat.not_le.mpr twice)
  | undeclared member used own outer => exact (consistent.uses _ member _ used).elim own outer
  | valueFromVoid member void leaves =>
    have value := (consistent.returns _ member _ leaves).mp rfl
    rw [void] at value
    cases value
  | noValueReturned member value leaves =>
    cases (consistent.returns _ member _ leaves).mpr value
  | unsupportedCharacter member occurs inside large =>
    exact absurd (consistent.texts _ member _ occurs _ inside) (by omega)

theorem ClassDeclaration.consistent_of_faultless (formed : ∀ t ∈ declaration.tokens, t.WellFormed)
    (faultless : declaration.faults = []) : declaration.Consistent := by
  rw [faults, List.append_eq_nil_iff, List.flatMap_eq_nil_iff] at faultless
  obtain ⟨distinct, faultless⟩ := faultless
  have own (s : SubroutineDeclaration) (member : s ∈ declaration.subroutines) :
      s.names.Nodup ∧ ∀ o ∈ s.occurrences, (declaration.context false s).fault? o = none := by
    have none := faultless s member
    rw [subroutineFaults, List.append_eq_nil_iff, SymbolTable.duplicates_empty_eq_nil,
      s.variableList_nodup (formed_subroutines formed s member)] at none
    exact ⟨none.1, List.filterMap_eq_nil_iff.mp none.2⟩
  refine ⟨(SymbolTable.duplicates_empty_eq_nil _).mp distinct, fun s member => (own s member).1,
    fun s member token used => ?_, fun s member hasValue leaves => ?_,
    fun s member literal occurs c inside => ?_⟩
  · have none := (own s member).2 _ used
    rw [fault?_variable (formed_subroutines formed s member) used] at none
    split at none
    · assumption
    · cases none
  · have none := (own s member).2 _ leaves
    rw [fault?_leave (formed_subroutines formed s member)] at none
    cases void : s.returnType.isVoid <;> cases hasValue <;> simp_all
  · have none := (own s member).2 _ occurs
    simp only [Context.fault?, Option.map_eq_none_iff, List.find?_eq_none] at none
    have small := none c inside
    simp only [decide_eq_true_eq] at small
    omega

theorem ClassDeclaration.faults_eq_nil (formed : ∀ t ∈ declaration.tokens, t.WellFormed) :
    declaration.faults = [] ↔ declaration.Consistent := by
  refine ⟨consistent_of_faultless formed, fun consistent => ?_⟩
  exact List.eq_nil_iff_forall_not_mem.mpr fun e member =>
    consistent.not_fault (fault_of_mem formed member)

end Faults

/-- A source that reads as a class has code exactly if the class is consistent. Otherwise the error
is a fault of the class, and an internal one has one of three messages. -/
theorem compile_ok_iff_consistent {source : String} {phrase : Phrase} (comments : Bool)
    (read : parse .classDeclaration (items source.toList) = .ok phrase) :
    ∃ declaration, phrase = .classDeclaration declaration ∧
      ((∃ code, compile comments source = .ok code) ↔ declaration.Consistent) ∧
      (∀ e, compile comments source = .error e → declaration.Fault e) ∧
      ∀ fault, compile comments source = .error (.invariant fault) →
        (∃ s ∈ declaration.subroutines,
          fault.message = "void subroutine " ++ s.name.val.value ++ " returns a value" ∨
          fault.message =
            "subroutine " ++ s.name.val.value ++ " must return a " ++ s.returnType.text) ∨
        ∃ c, 0xFFFF < c.toNat ∧ fault.message = "unsupported character " ++ quotedChar c := by
  obtain ⟨declaration, same, formed, result⟩ := compile_unit comments read
  have faulty (e : CompileError) (failed : compile comments source = .error e) :
      declaration.Fault e := by
    rw [result, settle_eq_error] at failed
    exact declaration.fault_of_mem formed (List.mem_of_head? failed)
  refine ⟨declaration, same, ?_, faulty, fun fault failed => ?_⟩
  · rw [result, exists_settle_eq_ok, declaration.faults_eq_nil formed]
  · cases faulty _ failed with
    | valueFromVoid member => exact .inl ⟨_, member, .inl rfl⟩
    | noValueReturned member => exact .inl ⟨_, member, .inr rfl⟩
    | unsupportedCharacter _ _ _ large => exact .inr ⟨_, large, rfl⟩

private def counterUnit : String :=
  "class Counter { field int n; method int next(int by) { let n = n + by; return n; } }"

theorem compile_ok_iff_consistent_counter :
    ∃ phrase, parse .classDeclaration (items counterUnit.toList) = .ok phrase ∧
      ∃ declaration, phrase = .classDeclaration declaration ∧
        ((∃ code, compile false counterUnit = .ok code) ↔ declaration.Consistent) := by
  have accepted : (parse .classDeclaration (items counterUnit.toList)).toOption.isSome = true := by
    decide +kernel
  cases read : parse .classDeclaration (items counterUnit.toList) with
  | error e =>
    rw [read] at accepted
    cases accepted
  | ok phrase =>
    obtain ⟨declaration, same, iff, -⟩ := compile_ok_iff_consistent false read
    exact ⟨phrase, rfl, declaration, same, iff⟩

end JackCompiler
