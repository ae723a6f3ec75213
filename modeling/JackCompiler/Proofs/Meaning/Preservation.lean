import JackCompiler.Proofs.Meaning.Resolution
import JackCompiler.Proofs.Meaning.Statement
import JackCompiler.Proofs.Phrase.Acceptance
import JackCompiler.Proofs.Phrase.Terminals

/-!
# Meaning of compiled units

In a unit that has code, every node for an expression or for statements has code that does what the
tokens of the node mean.
-/

namespace JackCompiler

open Lowering Machine

/-- The code of a node is part of that of a unit, and the node stands in a subroutine of it. -/
structure ClassDeclaration.Emits (declaration : ClassDeclaration) (comments : Bool) (code : Code)
    (subroutine : SubroutineDeclaration) (node : Tree) (there : Scope) (fragment : Code) : Prop where
  member : subroutine ∈ declaration.subroutines
  around : ∃ place, (subroutine.toTree place).1 ∈ declaration.subroutineTrees ∧
    Part node (subroutine.toTree place).1
  visited : visit (declaration.setting comments) node there = .ok (fragment, there)
  inside : fragment <:+: code

/-! ## Nodes of a unit -/

section Nodes

variable {source : String} {declaration : ClassDeclaration} {code : Code} {comments : Bool}
  {node : Tree} {there : Scope} {s : SubroutineDeclaration}

theorem unit_compiled
    (read : parse .classDeclaration (items source.toList) = .ok (.classDeclaration declaration))
    (compiles : compile comments source = .ok code) :
    (∀ t ∈ declaration.tokens, t.WellFormed) ∧ declaration.faults = [] ∧
      declaration.code comments = code := by
  obtain ⟨other, same, formed, result⟩ := compile_unit comments read
  cases same
  rw [result, settle_eq_ok] at compiles
  exact ⟨formed, compiles⟩

def faultlessUnit? (source : String) : Option ClassDeclaration :=
  match parse .classDeclaration (items source.toList) with
  | .ok (.classDeclaration declaration) =>
    if declaration.faults.isEmpty then some declaration else none
  | _ => none

theorem compile_of_faultlessUnit? (comments : Bool)
    (found : faultlessUnit? source = some declaration) :
    parse .classDeclaration (items source.toList) = .ok (.classDeclaration declaration) ∧
      compile comments source = .ok (declaration.code comments) := by
  rw [faultlessUnit?] at found
  split at found
  case h_1 read =>
    obtain ⟨faultless, here⟩ := Option.ite_none_right_eq_some.mp found
    obtain ⟨other, same, -, result⟩ := compile_unit comments read
    cases here
    cases same
    rw [result, List.isEmpty_iff.mp faultless]
    exact ⟨read, rfl⟩
  case h_2 => cases found

theorem visits_of_part (formed : ∀ t ∈ declaration.tokens, t.WellFormed)
    (faultless : declaration.faults = [])
    (part : Part node (Phrase.classDeclaration declaration).toTree) :
    ∃ there, Visits (declaration.setting comments) [(Phrase.classDeclaration declaration).toTree]
      outermost node there := by
  have visited := visit_unit formed comments
  rw [faultless] at visited
  exact Visits.of_part part visited

theorem faults_within (faultless : declaration.faults = []) (member : s ∈ declaration.subroutines)
    {occurrences : List Occurrence} (within : ∀ o ∈ occurrences, o ∈ s.occurrences) :
    (declaration.context comments s).faults occurrences = [] := by
  rw [ClassDeclaration.faults, List.append_eq_nil_iff, List.flatMap_eq_nil_iff] at faultless
  have own := faultless.2 s member
  rw [ClassDeclaration.subroutineFaults, List.append_eq_nil_iff, Context.faults,
    List.filterMap_eq_nil_iff] at own
  exact List.filterMap_eq_nil_iff.mpr fun o inside => own.2 o (within o inside)

theorem covered_of_faultless (formed : ∀ t ∈ declaration.tokens, t.WellFormed)
    (faultless : declaration.faults = []) (moderate : declaration.Moderate)
    (member : s ∈ declaration.subroutines) : Covered (declaration.bindings s) s.occurrences := by
  have consistent := declaration.consistent_of_faultless formed faultless
  have knows := declaration.context_knows formed consistent moderate false member
  refine ⟨fun name used => ?_, moderate.arguments s member⟩
  have none : (declaration.context false s).faults [.variable name] = [] :=
    faults_within faultless member (by simpa using used)
  simp only [Context.faults, Context.fault?, knows.resolve, List.filterMap_cons] at none
  cases found : (declaration.bindings s).lookup name.value with
  | none =>
    rw [found] at none
    cases none
  | some binding => exact ⟨binding, rfl⟩

private structure Met (declaration : ClassDeclaration) (comments : Bool) (s : SubroutineDeclaration)
    (node : Tree) (there : Scope) : Prop where
  member : s ∈ declaration.subroutines
  scope : there = (declaration.context comments s).scope
  around : ∃ place, (s.toTree place).1 ∈ declaration.subroutineTrees ∧ Part node (s.toTree place).1
  formed : ∀ t ∈ statementTokens s.body.statements, t.WellFormed
  knows : (declaration.context comments s).Knows (declaration.bindings s)
  covered : Covered (declaration.bindings s) s.occurrences
  clear : ∀ occurrences, (∀ o ∈ occurrences, o ∈ s.occurrences) →
    (declaration.context comments s).faults occurrences = []
  located : Located (declaration.context comments s)
    ⟨statementTokens s.body.statements, s.occurrences, declaration.code comments⟩ node

private theorem met_in_subroutine (formed : ∀ t ∈ declaration.tokens, t.WellFormed)
    (faultless : declaration.faults = []) (moderate : declaration.Moderate)
    (visits : Visits (declaration.setting comments) [(Phrase.classDeclaration declaration).toTree]
      outermost node there)
    (kind : isPiece node.kind = true) :
    ∃ s, Met declaration comments s node there := by
  obtain ⟨s, member, same, around, located⟩ := visits_unit formed faultless visits kind
  have consistent := declaration.consistent_of_faultless formed faultless
  have formedBody (t : Token) (inside : t ∈ statementTokens s.body.statements) : t.WellFormed := by
    apply formed_subroutines formed s member t
    simp [SubroutineDeclaration.tokens, SubroutineBody.tokens, inside]
  exact ⟨s, member, same, around, formedBody,
    declaration.context_knows formed consistent moderate comments member,
    covered_of_faultless formed faultless moderate member,
    fun _ within => faults_within faultless member within, located⟩

end Nodes

/-! ## A unit -/

private def successorText : String := "class A { function int next(int x) { return x + 1; } }"

private def successorSum : Expression :=
  .binary (.term (.name ⟨⟨1, .identifier, "x"⟩, rfl⟩)) ⟨⟨1, .symbol, "+"⟩, rfl⟩
    (.literal ⟨⟨1, .integerConstant, "1"⟩, rfl⟩)

private def successorBody : List Statement :=
  [.returnValue ⟨⟨1, .keyword, "return"⟩, rfl⟩ successorSum ⟨⟨1, .symbol, ";"⟩, rfl⟩]

private def successor : SubroutineDeclaration where
  keyword := ⟨⟨1, .keyword, "function"⟩, rfl⟩
  returnType := .value (.builtIn ⟨⟨1, .keyword, "int"⟩, rfl⟩)
  name := ⟨⟨1, .identifier, "next"⟩, rfl⟩
  opening := ⟨⟨1, .symbol, "("⟩, rfl⟩
  parameters := .listed ⟨.builtIn ⟨⟨1, .keyword, "int"⟩, rfl⟩, ⟨⟨1, .identifier, "x"⟩, rfl⟩⟩ []
  closing := ⟨⟨1, .symbol, ")"⟩, rfl⟩
  body := ⟨⟨⟨1, .symbol, "\x7b"⟩, rfl⟩, [], successorBody, ⟨⟨1, .symbol, "\x7d"⟩, rfl⟩⟩

private def successorUnit : ClassDeclaration where
  keyword := ⟨⟨1, .keyword, "class"⟩, rfl⟩
  name := ⟨⟨1, .identifier, "A"⟩, rfl⟩
  opening := ⟨⟨1, .symbol, "\x7b"⟩, rfl⟩
  declarations := []
  subroutines := [successor]
  closing := ⟨⟨1, .symbol, "\x7d"⟩, rfl⟩

private theorem successor_read : parse .classDeclaration (items successorText.toList) =
    .ok (.classDeclaration successorUnit) := by
  have same : items successorText.toList =
      successorUnit.tokens.map .ok ++ .ok (.endOfFile 1) :: [] := by decide +kernel
  have read : parse (Phrase.classDeclaration successorUnit).entry _ = _ :=
    parse_of_phrase (by decide) (.endOfFile 1) rfl []
  rw [same]
  exact read

private def successorCode : Code :=
  [.function "A.next" 0, .push .argument 0, .push .constant 1, .arithmetic .add, .ret]

private theorem successor_compiles : compile false successorText = .ok successorCode := by
  obtain ⟨other, same, -, result⟩ := compile_unit false successor_read
  cases same
  rw [result]
  decide +kernel

private theorem successor_moderate : successorUnit.Moderate := by decide +kernel

private def noCalls : Calls Unit := ⟨fun _ _ _ => none, fun _ _ _ scratch => scratch⟩

private def three : Point Unit := ⟨⟨[], [3], 0⟩, ⟨fun _ => none, [], ()⟩⟩

/-! ## Expressions -/

/-- The code leaves the value of the expression on any stack, and stops where there is none. -/
def Expression.ComputedBy (e : Expression) (bindings : Bindings) (fragment : Code) : Prop :=
  ∀ {World : Type} (calls : Calls World) frame memory scratch stack,
    (exec calls fragment ⟨memory, frame, scratch, stack⟩).map State.seen =
      (e.value calls bindings frame memory).map
        (fun result => (result.2, frame, result.1 :: stack)) ∧
    ∀ value after, e.value calls bindings frame memory = some (value, after) →
      ∀ program position, CodeAt program position fragment →
        ∃ scratch', Reaches calls program ⟨position, ⟨memory, frame, scratch, stack⟩⟩
          ⟨position + fragment.length, ⟨after, frame, scratch', value :: stack⟩⟩

/-- In a compiled unit, every node for an expression has code that computes the one expression with
the tokens of the node. -/
theorem expression_code_computes {source : String} {declaration : ClassDeclaration} {code : Code}
    {comments : Bool} {node : Tree}
    (read : parse .classDeclaration (items source.toList) = .ok (.classDeclaration declaration))
    (compiles : compile comments source = .ok code) (moderate : declaration.Moderate)
    (part : Part node (Phrase.classDeclaration declaration).toTree)
    (kind : node.kind = .expression) :
    (∃ there, Visits (declaration.setting comments) [(Phrase.classDeclaration declaration).toTree]
      outermost node there) ∧
    ∀ there, Visits (declaration.setting comments) [(Phrase.classDeclaration declaration).toTree]
      outermost node there →
      ∃ subroutine fragment, declaration.Emits comments code subroutine node there fragment ∧
        ∃ e : Expression, e.tokens = node.terminals ∧
          (∀ other : Expression, other.tokens = node.terminals → other = e) ∧
          e.ComputedBy (declaration.bindings subroutine) fragment := by
  obtain ⟨formed, faultless, rfl⟩ := unit_compiled read compiles
  refine ⟨visits_of_part formed faultless part, fun there visits => ?_⟩
  obtain ⟨s, member, rfl, around, formedBody, knows, covered, clear, located⟩ :=
    met_in_subroutine formed faultless moderate visits (by rw [kind]; rfl)
  obtain ⟨e, number, rfl, within⟩ := located.expression kind
  have covered : Covered (declaration.bindings s) e.occurrences := covered.mono within.occurrences
  have visited := visit_expression (agrees_unit declaration comments s)
    (fun t inside => formedBody t (within.tokens t inside)) number
  rw [clear e.occurrences within.occurrences] at visited
  refine ⟨s, e.code _, ⟨member, around, visited, within.code⟩, e, (e.toTree_terminals number).symm,
    fun other same => ?_, fun calls frame memory scratch stack => ⟨?_, ?_⟩⟩
  · exact Expression.eq_of_tokens_eq (same.trans (e.toTree_terminals number))
  · exact e.turns knows covered memory scratch stack
  · intro value after found program position located
    exact (e.turns knows covered).reaches located found scratch stack

private theorem successor_part :
    Part (statementsTree successorBody 16).1 (Phrase.classDeclaration successorUnit).toTree := by
  refine .inside (.head _) (.inside (.tail _ (.tail _ (.tail _ (.head _)))) ?_)
  refine .inside (.tail _ (.tail _ (.tail _ (.tail _ (.tail _ (.tail _ (.head _))))))) ?_
  exact .inside (.tail _ (.head _)) (.self _)

private theorem successorSum_part :
    Part (successorSum.toTree 19).1 (Phrase.classDeclaration successorUnit).toTree := by
  have inner : Part (successorSum.toTree 19).1 (statementsTree successorBody 16).1 :=
    .inside (.head _) (.inside (.tail _ (.head _)) (.self _))
  exact inner.trans successor_part

theorem expression_code_computes_sum :
    ∃ there subroutine fragment,
      successorUnit.Emits false successorCode subroutine (successorSum.toTree 19).1 there fragment ∧
      successorSum.ComputedBy (successorUnit.bindings subroutine) fragment := by
  obtain ⟨⟨there, visits⟩, all⟩ := expression_code_computes successor_read successor_compiles
    successor_moderate successorSum_part (successorSum.toTree_kind 19)
  obtain ⟨subroutine, fragment, emits, e, -, only, computed⟩ := all there visits
  have same : successorSum = e := only _ (successorSum.toTree_terminals 19).symm
  exact ⟨there, subroutine, fragment, emits, same ▸ computed⟩

/-! ## Statements -/

/-- Wherever the code stands in a program, it ends as the statements do. -/
def SimulatedBy (statements : List Statement) (bindings : Bindings) (program fragment : Code) :
    Prop :=
  ∀ {World : Type} (calls : Calls World) (before : Point World) outcome after,
    Runs calls bindings statements before outcome after →
      ∀ position scratch stack, CodeAt program position fragment →
        Ends calls program ⟨position, before.state scratch stack⟩ position
          (position + fragment.length) stack after outcome

/-- In a compiled unit, every node for statements has code that does what the statements with the
tokens of the node do. -/
theorem statement_code_simulates {source : String} {declaration : ClassDeclaration} {code : Code}
    {comments : Bool} {node : Tree}
    (read : parse .classDeclaration (items source.toList) = .ok (.classDeclaration declaration))
    (compiles : compile comments source = .ok code) (moderate : declaration.Moderate)
    (part : Part node (Phrase.classDeclaration declaration).toTree)
    (kind : node.kind = .statements) :
    (∃ there, Visits (declaration.setting comments) [(Phrase.classDeclaration declaration).toTree]
      outermost node there) ∧
    ∀ there, Visits (declaration.setting comments) [(Phrase.classDeclaration declaration).toTree]
      outermost node there →
      ∃ subroutine fragment, declaration.Emits comments code subroutine node there fragment ∧
        ∃ statements, statementTokens statements = node.terminals ∧
          (∀ others, statementTokens others = node.terminals → others = statements) ∧
          SimulatedBy statements (declaration.bindings subroutine) code fragment := by
  obtain ⟨formed, faultless, rfl⟩ := unit_compiled read compiles
  refine ⟨visits_of_part formed faultless part, fun there visits => ?_⟩
  obtain ⟨s, member, rfl, around, formedBody, knows, covered, clear, located⟩ :=
    met_in_subroutine formed faultless moderate visits (by rw [kind]; rfl)
  obtain ⟨statements, number, rfl, within⟩ := located.statements kind
  have covered : Covered (declaration.bindings s) (statementOccurrences statements) :=
    covered.mono within.occurrences
  have visited := visit_statements (agrees_unit declaration comments s)
    (fun t inside => formedBody t (within.tokens t inside)) number
  rw [clear (statementOccurrences statements) within.occurrences] at visited
  refine ⟨s, statementCode _ (number + 1) statements, ⟨member, around, visited, within.code⟩,
    statements, (statementsTree_terminals statements number).symm, fun others same => ?_, ?_⟩
  · exact statements_eq_of_tokens_eq (same.trans (statementsTree_terminals statements number))
  · intro World calls before outcome after runs position scratch stack located
    exact runs.ends (labels_unit comments declaration) knows covered located scratch stack

theorem statement_code_simulates_return :
    ∃ position place scratch, successorCode[place]? = some .ret ∧
      Reaches noCalls successorCode ⟨position, three.state ⟨0, fun _ => 0⟩ []⟩
        ⟨place, three.state scratch [4]⟩ := by
  obtain ⟨⟨there, visits⟩, all⟩ := statement_code_simulates successor_read successor_compiles
    successor_moderate successor_part rfl
  obtain ⟨subroutine, fragment, emits, statements, -, only, simulated⟩ := all there visits
  cases only _ (statementsTree_terminals successorBody 16).symm
  cases List.mem_singleton.mp emits.member
  have runs : Runs noCalls (successorUnit.bindings successor) successorBody three (.returned 4)
      three := .returnValue rfl
  obtain ⟨before, after, whole⟩ := emits.inside
  have located := codeAt_self before fragment after
  rw [whole] at located
  obtain ⟨place, scratch, -, -, returns, reaches⟩ :=
    simulated noCalls three _ _ runs before.length ⟨0, fun _ => 0⟩ [] located
  exact ⟨_, place, scratch, returns, reaches⟩

end JackCompiler
