import JackCompiler.Proofs.Invariance.Respelling
import JackCompiler.Proofs.Lowering.Consistency
import Mathlib.Data.List.Find
import Mathlib.Data.List.Nodup

namespace JackCompiler

open Lowering

namespace Variable

def unnamed (v : Variable) : Variable := { v with name := "" }

theorem push_unnamed (v : Variable) : v.unnamed.push = v.push := rfl

theorem pop_unnamed (v : Variable) : v.unnamed.pop = v.pop := rfl

theorem typeName_unnamed (v : Variable) : v.unnamed.typeName = v.typeName := rfl

end Variable

/-- Contexts in which known names have the same places, each spelled in its own way. What is no
variable keeps its name. -/
structure Context.Respelled (r : Respelling) (known : String → Prop) (c c' : Context) : Prop where
  comments : c'.comments = c.comments
  className : c'.className = c.className
  subroutine : c'.subroutine = c.subroutine
  kindOf : c'.kindOf = c.kindOf
  place : ∀ name, known name →
    (c'.resolve (r.variableName name)).map Variable.unnamed =
      (c.resolve name).map Variable.unnamed
  free : ∀ name, known name → c.resolve name = none → r.variableName name = name

section Phrases

variable {r : Respelling} {known : String → Prop} {c c' : Context}

namespace Context.Respelled

theorem isVoid (respelled : c.Respelled r known c') : c'.isVoid = c.isVoid := by
  rw [Context.isVoid, respelled.subroutine, Context.isVoid]

theorem resolve (respelled : c.Respelled r known c') {name : String} (isKnown : known name) :
    (c.resolve name = none ∧ r.variableName name = name ∧ c'.resolve name = none) ∨
      ∃ v v', c.resolve name = some v ∧ c'.resolve (r.variableName name) = some v' ∧
        v'.unnamed = v.unnamed := by
  have place := respelled.place name isKnown
  cases here : c.resolve name with
  | none =>
    have kept := respelled.free name isKnown here
    rw [here, kept, Option.map_none, Option.map_eq_none_iff] at place
    exact .inl ⟨rfl, kept, place⟩
  | some v =>
    rw [here, Option.map_some, Option.map_eq_some_iff] at place
    obtain ⟨v', there, unnamed⟩ := place
    exact .inr ⟨v, v', rfl, there, unnamed⟩

theorem load (respelled : c.Respelled r known c') {name : Token} (isKnown : known name.value) :
    c'.load (r.nameToken name) = c.load name := by
  rcases respelled.resolve isKnown with ⟨here, kept, there⟩ | ⟨v, v', here, there, unnamed⟩
  · simp only [Context.load, Respelling.nameToken, kept, here, there]
  · simp only [Context.load, Respelling.nameToken, here, there]
    rw [← v.push_unnamed, ← unnamed, v'.push_unnamed]

theorem store (respelled : c.Respelled r known c') {name : Token} (isKnown : known name.value) :
    c'.store (r.nameToken name) = c.store name := by
  rcases respelled.resolve isKnown with ⟨here, kept, there⟩ | ⟨v, v', here, there, unnamed⟩
  · simp only [Context.store, Respelling.nameToken, kept, here, there]
  · simp only [Context.store, Respelling.nameToken, here, there]
    rw [← v.pop_unnamed, ← unnamed, v'.pop_unnamed]

theorem label (respelled : c.Respelled r known c') : c'.label = c.label := by
  funext tag number
  simp only [Context.label, respelled.className]

end Context.Respelled

private theorem literalCode_token (token : Token) :
    literalCode (r.token token) = literalCode token :=
  rfl

private theorem moreArgumentCode_respell {more : List (Comma × Expression)}
    (each : ∀ pair ∈ more, (∀ t ∈ pair.2.tokens, known t.value) →
      (pair.2.respell r).code c' = pair.2.code c)
    (allKnown : ∀ t ∈ moreArgumentTokens more, known t.value) :
    moreArgumentCode c' (respellArguments r more) = moreArgumentCode c more := by
  induction more with
  | nil => rfl
  | cons pair more ih =>
    rw [List.forall_mem_cons] at each
    simp only [moreArgumentTokens, List.forall_mem_cons, List.forall_mem_append] at allKnown
    simp only [respellArguments, moreArgumentCode, each.1 allKnown.2.1, ih each.2 allKnown.2.2]

private theorem qualified_respell (respelled : c.Respelled r known c') {qualifier : Name}
    (isKnown : known qualifier.val.value) (dot : Word ["."]) (name : MemberName)
    (opening : Word ["("]) {arguments : Arguments} (closing : Word [")"])
    (same : (arguments.respell r).code c' = arguments.code c) :
    ((Call.qualified qualifier dot name opening arguments closing).respell r).code c' =
      (Call.qualified qualifier dot name opening arguments closing).code c := by
  have member : (r.leaf name).val.value = name.val.value := rfl
  simp only [Call.respell, Call.code, Respelling.val_name, Respelling.nameToken, member, same,
    Arguments.count_respell]
  rcases respelled.resolve isKnown with ⟨here, kept, there⟩ | ⟨v, v', here, there, unnamed⟩
  · simp only [kept, here, there, respelled.kindOf]
  · simp only [here, there]
    rw [← v.push_unnamed, ← v.typeName_unnamed, ← unnamed, v'.push_unnamed, v'.typeName_unnamed]

private theorem expressions_code_respell (respelled : c.Respelled r known c') :
    (∀ e : Expression, (∀ t ∈ e.tokens, known t.value) → (e.respell r).code c' = e.code c) ∧
    (∀ t : Term, (∀ u ∈ t.tokens, known u.value) → (t.respell r).code c' = t.code c) ∧
    (∀ call : Call, (∀ t ∈ call.tokens, known t.value) → (call.respell r).code c' = call.code c) ∧
    (∀ a : Arguments, (∀ t ∈ a.tokens, known t.value) → (a.respell r).code c' = a.code c) := by
  apply Expression.induction
  case term => exact fun _ ih => ih
  case binary =>
    intro left operator right first second allKnown
    simp only [Expression.tokens, List.forall_mem_append, List.forall_mem_cons] at allKnown
    simp only [Expression.respell, Expression.code, first allKnown.1, second allKnown.2.2]
    rfl
  case literal => exact fun value _ => literalCode_token value.val
  case name => exact fun name allKnown => respelled.load (allKnown _ (.head _))
  case element =>
    intro array opening index closing ih allKnown
    simp only [Term.tokens, List.forall_mem_append, List.forall_mem_cons] at allKnown
    simp only [Term.respell, Term.code, ih allKnown.2.2.1]
    rw [Respelling.val_name, respelled.load allKnown.1]
  case call => exact fun _ ih => ih
  case group =>
    intro opening inner closing ih allKnown
    simp only [Term.tokens, List.forall_mem_append, List.forall_mem_cons] at allKnown
    exact ih allKnown.2.1
  case unary =>
    intro operator operand ih allKnown
    simp only [Term.tokens, List.forall_mem_cons] at allKnown
    simp only [Term.respell, Term.code, ih allKnown.2]
    rfl
  case bare =>
    intro name opening arguments closing ih allKnown
    simp only [Call.tokens, List.forall_mem_append, List.forall_mem_cons] at allKnown
    simp only [Call.respell, Call.code, ih allKnown.2.2.1, respelled.className,
      Arguments.count_respell]
    rfl
  case qualified =>
    intro qualifier dot name opening arguments closing ih allKnown
    simp only [Call.tokens, List.forall_mem_append, List.forall_mem_cons] at allKnown
    exact qualified_respell respelled allKnown.1 dot name opening closing
      (ih allKnown.2.2.2.2.1)
  case empty => exact fun _ => rfl
  case listed =>
    intro first more one each allKnown
    simp only [Arguments.tokens, List.forall_mem_append] at allKnown
    simp only [Arguments.respell, Arguments.code, one allKnown.1,
      moreArgumentCode_respell each allKnown.2]

private theorem statementCode_respell_of {statements : List Statement}
    (each : ∀ s ∈ statements, (∀ t ∈ s.tokens, known t.value) →
      ∀ number, (s.respell r).code c' number = s.code c number)
    (allKnown : ∀ t ∈ statementTokens statements, known t.value) (number : Nat) :
    statementCode c' number (respellStatements r statements) =
      statementCode c number statements := by
  induction statements generalizing number with
  | nil => rfl
  | cons statement statements ih =>
    rw [List.forall_mem_cons] at each
    simp only [statementTokens, List.forall_mem_append] at allKnown
    simp only [respellStatements, statementCode, Statement.nodes_respell, each.1 allKnown.1,
      ih each.2 allKnown.2]

private theorem statements_code_respell (respelled : c.Respelled r known c') :
    (∀ s : Statement, (∀ t ∈ s.tokens, known t.value) →
      ∀ number, (s.respell r).code c' number = s.code c number) ∧
    (∀ b : Block, (∀ t ∈ b.tokens, known t.value) →
      ∀ number, (b.respell r).code c' number = b.code c number) := by
  have expression := (expressions_code_respell respelled).1
  have call := (expressions_code_respell respelled).2.2.1
  apply Statement.induction
  case assign =>
    intro keyword target equals value semicolon allKnown number
    simp only [Statement.tokens, List.forall_mem_append, List.forall_mem_cons] at allKnown
    simp only [Statement.respell, Statement.code, Respelling.val_name, respelled.comments,
      expression value allKnown.2.2.2.1, respelled.store allKnown.2.1]
  case assignElement =>
    intro keyword array opening index closing equals value semicolon allKnown number
    simp only [Statement.tokens, List.forall_mem_append, List.forall_mem_cons] at allKnown
    obtain ⟨-, array, -, index, -, -, value, -⟩ := allKnown
    simp only [Statement.respell, Statement.code, Respelling.val_name, respelled.comments,
      expression _ index, expression _ value, respelled.load array]
  case ifThen =>
    intro keyword opening condition closing body ih allKnown number
    simp only [Statement.tokens, List.forall_mem_append, List.forall_mem_cons] at allKnown
    simp only [Statement.respell, Statement.code, respelled.comments, respelled.label,
      Expression.nodes_respell, expression condition allKnown.2.2.1, ih allKnown.2.2.2.2]
  case ifElse =>
    intro keyword opening condition closing body otherwise alternative first second allKnown number
    simp only [Statement.tokens, List.forall_mem_append, List.forall_mem_cons] at allKnown
    obtain ⟨-, -, condition, -, body, -, alternative⟩ := allKnown
    simp only [Statement.respell, Statement.code, respelled.comments, respelled.label,
      Expression.nodes_respell, Block.nodes_respell, expression _ condition, first body,
      second alternative]
  case loop =>
    intro keyword opening condition closing body ih allKnown number
    simp only [Statement.tokens, List.forall_mem_append, List.forall_mem_cons] at allKnown
    simp only [Statement.respell, Statement.code, respelled.comments, respelled.label,
      Expression.nodes_respell, expression condition allKnown.2.2.1, ih allKnown.2.2.2.2]
  case perform =>
    intro keyword called semicolon allKnown number
    simp only [Statement.tokens, List.forall_mem_append, List.forall_mem_cons] at allKnown
    simp only [Statement.respell, Statement.code, respelled.comments, call called allKnown.2.1]
  case returnNothing =>
    intro keyword semicolon allKnown number
    simp only [Statement.respell, Statement.code, respelled.comments]
  case returnValue =>
    intro keyword value semicolon allKnown number
    simp only [Statement.tokens, List.forall_mem_append, List.forall_mem_cons] at allKnown
    simp only [Statement.respell, Statement.code, respelled.comments,
      expression value allKnown.2.1]
  case braced =>
    intro opening statements closing each allKnown number
    simp only [Block.tokens, List.forall_mem_append, List.forall_mem_cons] at allKnown
    exact statementCode_respell_of each allKnown.2.1 (number + 2)

theorem statementCode_respell (respelled : c.Respelled r known c') {statements : List Statement}
    (allKnown : ∀ t ∈ statementTokens statements, known t.value) (number : Nat) :
    statementCode c' number (respellStatements r statements) =
      statementCode c number statements :=
  statementCode_respell_of (fun s _ => (statements_code_respell respelled).1 s) allKnown number

theorem fault?_respell (respelled : c.Respelled r known c') {occurrence : Occurrence}
    (isKnown : ∀ name, occurrence = .variable name → known name.value) :
    c'.fault? (occurrence.respell r) = (c.fault? occurrence).map (CompileError.relined r.line) := by
  cases occurrence with
  | «variable» name =>
    rcases respelled.resolve (isKnown name rfl) with ⟨here, kept, there⟩ | ⟨v, v', here, there, _⟩
    · simp only [Occurrence.respell, Context.fault?, Respelling.nameToken, here, kept, there]
      rfl
    · simp only [Occurrence.respell, Context.fault?, Respelling.nameToken, here, there]
      rfl
  | text literal =>
    have unquoted : (r.token literal).unquoted = literal.unquoted := rfl
    simp only [Occurrence.respell, Context.fault?, unquoted, Option.map_map]
    rfl
  | call arguments => rfl
  | leave hasValue =>
    simp only [Occurrence.respell, Context.fault?, respelled.isVoid, respelled.subroutine]
    cases c.isVoid <;> cases hasValue <;> rfl

theorem faults_respell (respelled : c.Respelled r known c') {occurrences : List Occurrence}
    (allKnown : ∀ name, .variable name ∈ occurrences → known name.value) :
    c'.faults (occurrences.map (Occurrence.respell r)) =
      (c.faults occurrences).map (CompileError.relined r.line) := by
  rw [Context.faults, Context.faults, List.filterMap_map, List.map_filterMap]
  refine List.filterMap_congr fun occurrence member => fault?_respell respelled ?_
  rintro name rfl
  exact allKnown name member

end Phrases

namespace SymbolTable

variable (r : Respelling)

def respell (table : SymbolTable) : SymbolTable :=
  ⟨table.entries.map fun v => { v with name := r.variableName v.name }⟩

theorem count_respell (table : SymbolTable) (kind : VariableKind) :
    (table.respell r).count kind = table.count kind := by
  rw [count, respell, List.countP_map]
  rfl

theorem extend_respell (table : SymbolTable) (declared : List Declared) :
    (table.respell r).extend (declared.map (Declared.respell r)) =
      (table.extend declared).respell r := by
  induction declared generalizing table with
  | nil => rfl
  | cons d declared ih =>
    rw [List.map_cons, extend, extend, ← ih, count_respell]
    rfl

theorem extend_empty_respell (declared : List Declared) :
    empty.extend (declared.map (Declared.respell r)) = (empty.extend declared).respell r :=
  extend_respell r empty declared

variable {r}

theorem get?_respell {table : SymbolTable} {name : String}
    (apart : ∀ other ∈ table.names, r.variableName other = r.variableName name → other = name) :
    ((table.respell r).get? (r.variableName name)).map Variable.unnamed =
      (table.get? name).map Variable.unnamed := by
  rw [get?, get?, respell, List.find?_map, Option.map_map]
  have same : ∀ v ∈ table.entries,
      (r.variableName v.name == r.variableName name) = (v.name == name) := by
    intro v member
    rw [Bool.eq_iff_iff, beq_iff_eq, beq_iff_eq]
    exact ⟨apart v.name (List.mem_map_of_mem member), congrArg _⟩
  exact congrArg (Option.map Variable.unnamed) (List.find?_congr same)

theorem names_empty_extend (declared : List Declared) (name : String) :
    name ∈ (empty.extend declared).names ↔ name ∈ declared.map (·.name) := by
  rw [names_extend]
  simp [names, empty]

theorem get?_eq_none {table : SymbolTable} {name : String} :
    table.get? name = none ↔ name ∉ table.names := by
  rw [← get?_isSome, ← Option.not_isSome_iff_eq_none]

theorem lookup_eq_none {own inClass : SymbolTable} {name : String} :
    lookup own inClass name = none ↔ name ∉ own.names ∧ name ∉ inClass.names := by
  rw [lookup, Option.or_eq_none_iff, get?_eq_none, get?_eq_none]

theorem lookup_respell {outer : Respelling} {own inClass : SymbolTable} {name : String}
    (ownApart : ∀ other ∈ own.names, r.variableName other = r.variableName name → other = name)
    (classApart : ∀ other ∈ inClass.names,
      outer.variableName other = outer.variableName name → other = name)
    (agree : name ∉ own.names → outer.variableName name = r.variableName name) :
    (lookup (own.respell r) (inClass.respell outer) (r.variableName name)).map Variable.unnamed =
      (lookup own inClass name).map Variable.unnamed := by
  rw [lookup, lookup, Option.map_or, Option.map_or, get?_respell ownApart]
  cases here : own.get? name with
  | some v => rfl
  | none => rw [← agree (get?_eq_none.mp here), get?_respell classApart]

end SymbolTable

section Subroutines

variable {r outer : Respelling} {known : String → Prop} {d d' : ClassDeclaration}
  {s : SubroutineDeclaration} {comments : Bool}

theorem SubroutineDeclaration.variableList_respell (receiver : r.variableName "this" = "this")
    (className : String) :
    (s.respell r).variableList className = (s.variableList className).map (Declared.respell r) := by
  have kind : (s.respell r).kind = s.kind := rfl
  rw [variableList, variableList, List.map_append, declared_respell]
  refine congrArg (· ++ _) ?_
  rw [SubroutineDeclaration.receiver, SubroutineDeclaration.receiver, kind]
  split
  · simp [Declared.respell, receiver]
  · rfl

theorem SubroutineDeclaration.variableList_names_of (tokens : ∀ t ∈ s.tokens, known t.value)
    (receiver : known "this") (className : String) :
    ∀ name ∈ (s.variableList className).map (·.name), known name := by
  intro name member
  rw [s.variableList_names] at member
  rcases List.mem_append.mp member with member | member
  · split at member
    · cases List.mem_singleton.mp member
      exact receiver
    · cases member
  · obtain ⟨own, inside, rfl⟩ := s.exists_of_mem_names member
    exact tokens _ inside

theorem Statement.isReturn_respell (statement : Statement) :
    (statement.respell r).isReturn = statement.isReturn := by
  cases statement <;> rfl

theorem SubroutineBody.code_respell {c c' : Context} (respelled : c.Respelled r known c')
    (count : c'.subroutineVariables.count .localVariable =
      c.subroutineVariables.count .localVariable)
    (fields : c'.classVariables.count .field = c.classVariables.count .field)
    {body : SubroutineBody} (allKnown : ∀ t ∈ statementTokens body.statements, known t.value)
    (number : Nat) : (body.respell r).code c' number = body.code c number := by
  have last : (respellStatements r body.statements).getLast?.any Statement.isReturn =
      body.statements.getLast?.any Statement.isReturn := by
    rw [respellStatements_eq, List.getLast?_map, Option.any_map]
    exact congrArg (Option.any · _) (funext Statement.isReturn_respell)
  have prologue : prologue c'.scope c.subroutine.kind = prologue c.scope c.subroutine.kind := by
    cases c.subroutine.kind with
    | constructor =>
      change [Instruction.push .constant (max (c'.classVariables.count .field) 1), _, _] = _
      rw [fields]
      rfl
    | method => rfl
    | function => rfl
  rw [SubroutineBody.code, localNodes_respell]
  simp only [SubroutineBody.respell, last, respelled.comments, respelled.className,
    respelled.subroutine, count, prologue, respelled.isVoid,
    statementCode_respell respelled allKnown]
  rfl

structure SpelledClass (outer : Respelling) (known : String → Prop) (d d' : ClassDeclaration) :
    Prop where
  className : d'.className = d.className
  kindOf : d'.kindOf = d.kindOf
  declared : d'.variableList = d.variableList.map (Declared.respell outer)
  names : ∀ name ∈ d.names, known name
  apart : ∀ name, known name → ∀ other ∈ d.names,
    outer.variableName other = outer.variableName name → other = name

/-- A subroutine of such a class, whose variables are spelled in a way of its own. What it does not
declare itself is spelled as in the class, and what is no variable keeps its name. -/
structure SpelledIn (outer r : Respelling) (known : String → Prop) (d d' : ClassDeclaration)
    (s : SubroutineDeclaration) : Prop extends SpelledClass outer known d d' where
  tokens : ∀ t ∈ s.tokens, known t.value
  receiver : known "this" ∧ r.variableName "this" = "this"
  ownApart : ∀ name, known name → ∀ other ∈ (s.variableList d.className).map (·.name),
    r.variableName other = r.variableName name → other = name
  agree : ∀ name, known name → name ∉ (s.variableList d.className).map (·.name) →
    outer.variableName name = r.variableName name
  free : ∀ name, known name → name ∉ (s.variableList d.className).map (·.name) →
    name ∉ d.names → r.variableName name = name

namespace SpelledIn

variable (spelled : SpelledIn outer r known d d' s)

include spelled

theorem classVariables :
    (d'.context comments (s.respell r)).classVariables =
      (d.context comments s).classVariables.respell outer := by
  simp only [ClassDeclaration.context, spelled.declared, SymbolTable.extend_empty_respell]

theorem subroutineVariables :
    (d'.context comments (s.respell r)).subroutineVariables =
      (d.context comments s).subroutineVariables.respell r := by
  simp only [ClassDeclaration.context, spelled.className,
    SubroutineDeclaration.variableList_respell spelled.receiver.2, SymbolTable.extend_empty_respell]

theorem respelled :
    (d.context comments s).Respelled r known (d'.context comments (s.respell r)) where
  comments := rfl
  className := spelled.className
  subroutine := s.head_respell r
  kindOf := spelled.kindOf
  place name isKnown := by
    change (lookup (d'.context comments (s.respell r)).subroutineVariables
      (d'.context comments (s.respell r)).classVariables _).map _ = _
    rw [spelled.subroutineVariables, spelled.classVariables]
    refine SymbolTable.lookup_respell ?_ ?_ ?_
    · exact fun other member => spelled.ownApart name isKnown other
        ((SymbolTable.names_empty_extend _ _).mp member)
    · exact fun other member => spelled.apart name isKnown other
        ((SymbolTable.names_empty_extend _ _).mp member)
    · exact fun absent => spelled.agree name isKnown fun member =>
        absent ((SymbolTable.names_empty_extend _ _).mpr member)
  free name isKnown missing := by
    obtain ⟨own, inClass⟩ := SymbolTable.lookup_eq_none.mp missing
    refine spelled.free name isKnown (fun member => own ?_) (fun member => inClass ?_)
    · exact (SymbolTable.names_empty_extend _ _).mpr member
    · exact (SymbolTable.names_empty_extend _ _).mpr member

theorem bodyCode_respell (number : Nat) :
    d'.bodyCode comments (s.respell r) number = d.bodyCode comments s number := by
  have inBody : ∀ t ∈ statementTokens s.body.statements, known t.value := fun t member =>
    spelled.tokens t (s.statementTokens_subset member)
  have nodes : (s.respell r).parameters.nodes = s.parameters.nodes := s.parameters.nodes_respell r
  rw [ClassDeclaration.bodyCode, ClassDeclaration.bodyCode, nodes]
  refine SubroutineBody.code_respell spelled.respelled ?_ ?_ inBody _
  · rw [spelled.subroutineVariables, SymbolTable.count_respell]
  · rw [spelled.classVariables, SymbolTable.count_respell]

theorem faults_respell :
    (d'.context comments (s.respell r)).faults (s.respell r).occurrences =
      ((d.context comments s).faults s.occurrences).map (CompileError.relined r.line) := by
  rw [s.occurrences_respell]
  exact JackCompiler.faults_respell spelled.respelled fun name used =>
    spelled.tokens name (s.used_mem_tokens used).1

end SpelledIn

end Subroutines

section Classes

variable {d d' : ClassDeclaration} {comments : Bool}

theorem ClassDeclaration.kindOf_congr (heads : List.Forall₂ (fun s s' => s'.head = s.head)
    d.subroutines d'.subroutines) : d'.kindOf = d.kindOf := by
  funext name
  rw [kindOf, kindOf]
  generalize d.subroutines = subroutines, d'.subroutines = others at heads
  induction heads with
  | nil => rfl
  | @cons s s' _ _ head _ ih =>
    have called : s'.name.val.value = s.name.val.value := congrArg Subroutine.name head
    have kind : s'.kind = s.kind := congrArg Subroutine.kind head
    rw [List.find?_cons, List.find?_cons, called]
    split
    · exact congrArg some kind
    · exact ih

theorem ClassDeclaration.subroutineCode_congr {subroutines others : List SubroutineDeclaration}
    (bodies : List.Forall₂ (fun s s' => s'.nodes = s.nodes ∧
      ∀ number, d'.bodyCode comments s' number = d.bodyCode comments s number) subroutines others)
    (number : Nat) :
    d'.subroutineCode comments number others = d.subroutineCode comments number subroutines := by
  induction bodies generalizing number with
  | nil => rfl
  | cons first _ ih => rw [subroutineCode, subroutineCode, first.1, first.2, ih]

theorem ClassDeclaration.code_congr (className : d'.className = d.className)
    (firstNumber : d'.firstNumber = d.firstNumber)
    (bodies : List.Forall₂ (fun s s' => s'.nodes = s.nodes ∧
      ∀ number, d'.bodyCode comments s' number = d.bodyCode comments s number)
        d.subroutines d'.subroutines) :
    d'.code comments = d.code comments := by
  rw [code, code, className, firstNumber, subroutineCode_congr bodies]

theorem ClassDeclaration.firstNumber_respell (r : Respelling) (d : ClassDeclaration) :
    (d.respell r).firstNumber = d.firstNumber :=
  congrArg (5 + ·) (classVariableNodes_respell r d.declarations)

theorem ClassDeclaration.variableList_respell (r : Respelling) (d : ClassDeclaration) :
    (d.respell r).variableList = d.variableList.map (Declared.respell r) := by
  simp only [variableList, ClassDeclaration.respell, List.flatMap_map, List.map_flatMap,
    ClassVariables.variableList_respell]

structure ClassDeclaration.Respelled (outer : Respelling) (known : String → Prop)
    (d d' : ClassDeclaration) : Prop extends SpelledClass outer known d d' where
  firstNumber : d'.firstNumber = d.firstNumber
  subroutines : List.Forall₂ (fun s s' => ∃ r, s' = s.respell r ∧ SpelledIn outer r known d d' s)
    d.subroutines d'.subroutines

section Respelled

variable {outer r : Respelling} {known : String → Prop} {s : SubroutineDeclaration}

theorem ClassDeclaration.Respelled.code_eq (respelled : d.Respelled outer known d') :
    d'.code comments = d.code comments := by
  refine code_congr respelled.className respelled.firstNumber (respelled.subroutines.imp ?_)
  rintro s _ ⟨r, rfl, spelled⟩
  exact ⟨s.nodes_respell r, spelled.bodyCode_respell⟩

theorem nodup_respell {declared : List Declared}
    (names : ∀ name ∈ declared.map (·.name), known name)
    (apart : ∀ name, known name → ∀ other ∈ declared.map (·.name),
      r.variableName other = r.variableName name → other = name)
    (distinct : (declared.map (·.name)).Nodup) :
    ((declared.map (Declared.respell r)).map (·.name)).Nodup := by
  have same : (declared.map (Declared.respell r)).map (·.name) =
      (declared.map (·.name)).map r.variableName := by
    rw [List.map_map, List.map_map]
    rfl
  rw [same]
  exact distinct.map_on fun other there name here => apart name (names name here) other there

theorem ClassDeclaration.Respelled.nesting_eq (respelled : d.Respelled outer known d') :
    d'.nesting = d.nesting := by
  have each : List.Forall₂ (fun s s' => s'.nesting = s.nesting) d.subroutines d'.subroutines := by
    refine respelled.subroutines.imp ?_
    rintro s _ ⟨r, rfl, -⟩
    exact s.nesting_respell r
  rw [nesting, nesting]
  generalize d.subroutines = subroutines, d'.subroutines = others at each
  induction each with
  | nil => rfl
  | cons same _ ih => rw [List.map_cons, List.map_cons, List.foldr_cons, List.foldr_cons, same, ih]

theorem SpelledIn.faultless (spelled : SpelledIn outer r known d d' s)
    (faultless : d.subroutineFaults s = []) : d'.subroutineFaults (s.respell r) = [] := by
  rw [ClassDeclaration.subroutineFaults, List.append_eq_nil_iff,
    SymbolTable.duplicates_empty_eq_nil] at faultless ⊢
  obtain ⟨distinct, accepted⟩ := faultless
  constructor
  · rw [spelled.className, s.variableList_respell spelled.receiver.2]
    exact nodup_respell (s.variableList_names_of spelled.tokens spelled.receiver.1 _)
      spelled.ownApart distinct
  · rw [spelled.faults_respell, accepted]
    rfl

private theorem forall_mem_of_forall₂ {α : Type} {P Q : α → Prop} {first second : List α}
    (each : List.Forall₂ (fun x y => P x → Q y) first second) (all : ∀ x ∈ first, P x) :
    ∀ y ∈ second, Q y := by
  induction each with
  | nil => exact List.forall_mem_nil _
  | cons one _ ih =>
    rw [List.forall_mem_cons] at all ⊢
    exact ⟨one all.1, ih all.2⟩

theorem ClassDeclaration.Respelled.faultless (respelled : d.Respelled outer known d')
    (faultless : d.faults = []) : d'.faults = [] := by
  rw [faults, List.append_eq_nil_iff, SymbolTable.duplicates_empty_eq_nil, List.flatMap_eq_nil_iff]
    at faultless ⊢
  obtain ⟨distinct, accepted⟩ := faultless
  refine ⟨?_, ?_⟩
  · rw [respelled.declared]
    exact nodup_respell respelled.names respelled.apart distinct
  · refine forall_mem_of_forall₂ (respelled.subroutines.imp ?_) accepted
    rintro s _ ⟨r, rfl, spelled⟩
    exact spelled.faultless

end Respelled

open Respelling

private theorem declared_unlined (declared : List Declared) :
    declared.map (Declared.respell unlined) = declared :=
  List.map_id _

private theorem spelledClass_unlined :
    SpelledClass unlined (fun _ => True) d (d.respell unlined) where
  className := rfl
  kindOf := ClassDeclaration.kindOf_congr (List.forall₂_map_right_iff.mpr
    (List.forall₂_same.mpr fun s _ => s.head_respell unlined))
  declared := d.variableList_respell unlined
  names _ _ := trivial
  apart _ _ _ _ := id

private theorem spelledIn_unlined (s : SubroutineDeclaration) :
    SpelledIn unlined unlined (fun _ => True) d (d.respell unlined) s where
  toSpelledClass := spelledClass_unlined
  tokens _ _ := trivial
  receiver := ⟨trivial, rfl⟩
  ownApart _ _ _ _ := id
  agree _ _ _ := rfl
  free _ _ _ _ := rfl

theorem ClassDeclaration.respelled_unlined (d : ClassDeclaration) :
    d.Respelled unlined (fun _ => True) (d.respell unlined) where
  toSpelledClass := spelledClass_unlined
  firstNumber := d.firstNumber_respell unlined
  subroutines := List.forall₂_map_right_iff.mpr
    (List.forall₂_same.mpr fun s _ => ⟨unlined, rfl, spelledIn_unlined s⟩)

private theorem duplicates_relined (line : Nat → Nat) (table : SymbolTable)
    (declared : List Declared) :
    (table.duplicates declared).map (CompileError.relined line) = table.duplicates declared := by
  rw [SymbolTable.duplicates, List.map_map]
  rfl

theorem ClassDeclaration.faults_unlined (d : ClassDeclaration) :
    (d.respell unlined).faults = d.faults.map (CompileError.relined fun _ => 0) := by
  have own (s : SubroutineDeclaration) : (d.respell unlined).subroutineFaults (s.respell unlined) =
      (d.subroutineFaults s).map (CompileError.relined fun _ => 0) := by
    have spelled : SpelledIn unlined unlined (fun _ => True) d (d.respell unlined) s :=
      spelledIn_unlined s
    rw [subroutineFaults, subroutineFaults, List.map_append, duplicates_relined,
      spelled.className, s.variableList_respell spelled.receiver.2, declared_unlined]
    exact congrArg (_ ++ ·) spelled.faults_respell
  rw [faults, faults, List.map_append, duplicates_relined, d.variableList_respell, declared_unlined,
    List.map_flatMap, ClassDeclaration.respell, List.flatMap_map]
  exact congrArg (_ ++ ·) (List.flatMap_congr fun s _ => own s)

end Classes

end JackCompiler
