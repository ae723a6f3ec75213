import JackCompiler.Proofs.Flow.Blocks

namespace JackCompiler

open Lowering

section Pieces

variable {setting : Setting} {context : Context} {declaration : ClassDeclaration} {comments : Bool}
  {node : Tree} {there : Scope}

theorem visit_piece (agrees : Agrees setting context) {piece : Piece} {number : Nat}
    (formed : ∀ t ∈ (piece.extent context number).tokens, t.WellFormed) :
    visit setting (piece.tree number) context.scope =
      settle (context.faults (piece.extent context number).occurrences)
        ((piece.extent context number).code, context.scope) := by
  cases piece with
  | expression e => exact visit_expression agrees formed number
  | term t => exact visit_term agrees formed number
  | call c => exact visit_call agrees formed number
  | statement s => exact visit_statement agrees formed number
  | statements list => exact visit_statements agrees formed number

theorem formed_statements (formed : ∀ t ∈ declaration.tokens, t.WellFormed)
    {s : SubroutineDeclaration} (member : s ∈ declaration.subroutines) :
    ∀ t ∈ statementTokens s.body.statements, t.WellFormed := by
  intro t inside
  apply formed_subroutines formed s member t
  simp [SubroutineDeclaration.tokens, SubroutineBody.tokens, inside]

/-- A piece of a body that has its code in the code of the class. -/
structure ClassDeclaration.Placed (declaration : ClassDeclaration) (comments : Bool)
    (s : SubroutineDeclaration) (piece : Piece) (number : Nat) : Prop where
  member : s ∈ declaration.subroutines
  formed : ∀ t ∈ (piece.extent (declaration.context comments s) number).tokens, t.WellFormed
  occurs : ∀ o ∈ (piece.extent (declaration.context comments s) number).occurrences,
    o ∈ s.occurrences
  faultless : (declaration.context comments s).faults
    (piece.extent (declaration.context comments s) number).occurrences = []
  emits : declaration.Emits comments (declaration.code comments) s (piece.tree number)
    (declaration.context comments s).scope (piece.extent (declaration.context comments s) number).code

variable {s : SubroutineDeclaration} {block : Code}

private theorem placed_of_located (formed : ∀ t ∈ declaration.tokens, t.WellFormed)
    (faultless : declaration.faults = []) (member : s ∈ declaration.subroutines)
    (around : ∃ place, (s.toTree place).1 ∈ declaration.subroutineTrees ∧
      Part node (s.toTree place).1)
    (located : Located (declaration.context comments s)
      ⟨statementTokens s.body.statements, s.occurrences, block⟩ node)
    (inside : block <:+: declaration.code comments) (kind : isPiece node.kind = true) :
    ∃ piece number, node = piece.tree number ∧ declaration.Placed comments s piece number ∧
      (piece.extent (declaration.context comments s) number).code <:+: block := by
  obtain ⟨piece, number, rfl, within⟩ := located.piece kind
  have formedPiece : ∀ t ∈ (piece.extent (declaration.context comments s) number).tokens,
      t.WellFormed :=
    fun t inside => formed_statements formed member t (within.tokens t inside)
  have clear : (declaration.context comments s).faults
      (piece.extent (declaration.context comments s) number).occurrences = [] :=
    faults_within faultless member within.occurrences
  have visited := visit_piece (agrees_unit declaration comments s) formedPiece
  rw [clear] at visited
  exact ⟨piece, number, rfl, ⟨member, formedPiece, within.occurrences, clear, member, around,
    visited, within.code.trans inside⟩, within.code⟩

theorem placed_of_visits (formed : ∀ t ∈ declaration.tokens, t.WellFormed)
    (faultless : declaration.faults = [])
    (visits : Visits (declaration.setting comments) [(Phrase.classDeclaration declaration).toTree]
      outermost node there) (kind : isPiece node.kind = true) :
    ∃ s piece number, node = piece.tree number ∧
      there = (declaration.context comments s).scope ∧
      declaration.Placed comments s piece number := by
  obtain ⟨s, member, rfl, around, located⟩ := visits_unit formed faultless visits kind
  obtain ⟨piece, number, rfl, placed, -⟩ :=
    placed_of_located formed faultless member around located (List.infix_refl _) kind
  exact ⟨s, piece, number, rfl, rfl, placed⟩

/-- The visit of a class meets a node, and wherever it does, the code of the node is part of that of
the class and has a property. -/
def ClassDeclaration.Shows (declaration : ClassDeclaration) (comments : Bool) (code : Code)
    (node : Tree) (property : SubroutineDeclaration → Scope → Code → Prop) : Prop :=
  (∃ there, Visits (declaration.setting comments) [(Phrase.classDeclaration declaration).toTree]
    outermost node there) ∧
  ∀ there, Visits (declaration.setting comments) [(Phrase.classDeclaration declaration).toTree]
    outermost node there →
    ∃ s fragment, declaration.Emits comments code s node there fragment ∧ property s there fragment

theorem shows_of_placed {property : SubroutineDeclaration → Scope → Code → Prop}
    (formed : ∀ t ∈ declaration.tokens, t.WellFormed) (faultless : declaration.faults = [])
    (part : Part node (Phrase.classDeclaration declaration).toTree)
    (kind : isPiece node.kind = true)
    (holds : ∀ s piece number, node = piece.tree number → declaration.Placed comments s piece number →
      property s (declaration.context comments s).scope
        (piece.extent (declaration.context comments s) number).code) :
    declaration.Shows comments (declaration.code comments) node property := by
  refine ⟨visits_of_part formed faultless part, fun there visits => ?_⟩
  obtain ⟨s, piece, number, rfl, rfl, placed⟩ := placed_of_visits formed faultless visits kind
  exact ⟨s, _, placed.emits, holds s piece number rfl placed⟩

end Pieces

section Subroutines

variable {declaration : ClassDeclaration} {comments : Bool} {s : SubroutineDeclaration}
  {index : Nat}

structure ClassDeclaration.BlockAt (declaration : ClassDeclaration) (comments : Bool) (code : Code)
    (index : Nat) (before block after : Code) : Prop where
  whole : code = before ++ block ++ after
  entry : (entries before).length = index
  visited : ∃ tree, declaration.subroutineTrees[index]? = some tree ∧
    visit (declaration.setting comments) tree declaration.scope = .ok (block, declaration.scope)

@[simp]
theorem entries_marker (text : String) : entries (marker comments text) = [] := by
  cases comments <;> rfl

theorem entries_bodyCode (declaration : ClassDeclaration) (s : SubroutineDeclaration)
    (number : Nat) : (entries (declaration.bodyCode comments s number)).length = 1 := by
  have closed := s.body.closed_inside (declaration.context comments s)
  rw [ClassDeclaration.bodyCode, SubroutineBody.code_parts, entries_append, entries_marker]
  exact congrArg List.length (congrArg (List.cons _) (closed _).inner)

theorem ClassDeclaration.subroutineCode_split {subroutines : List SubroutineDeclaration}
    (comments : Bool) (found : subroutines[index]? = some s) (number : Nat) :
    ∃ before place after, declaration.subroutineCode comments number subroutines =
        before ++ declaration.bodyCode comments s place ++ after ∧
      (entries before).length = index ∧
      (treesOf SubroutineDeclaration.toTree subroutines [] number).1[index]? =
        some (s.toTree place).1 := by
  induction subroutines generalizing index number with
  | nil => cases found
  | cons first subroutines ih =>
    rw [subroutineCode, treesOf_cons]
    cases index with
    | zero =>
      cases found
      exact ⟨[], number, _, rfl, rfl, rfl⟩
    | succ index =>
      obtain ⟨before, place, after, same, length, tree⟩ := ih found (number + first.nodes)
      refine ⟨declaration.bodyCode comments first number ++ before, place, after, ?_, ?_, ?_⟩
      · simp only [same, List.append_assoc]
      · rw [entries_append, List.length_append, entries_bodyCode, length, Nat.add_comm]
      · rw [first.toTree_next]
        exact tree

theorem ClassDeclaration.exists_blockAt (comments : Bool)
    (formed : ∀ t ∈ declaration.tokens, t.WellFormed) (faultless : declaration.faults = [])
    (found : declaration.subroutines[index]? = some s) :
    ∃ before place after, declaration.BlockAt comments (declaration.code comments) index before
      (declaration.bodyCode comments s place) after := by
  obtain ⟨before, place, after, same, length, tree⟩ :=
    declaration.subroutineCode_split comments found declaration.firstNumber
  have member := List.mem_of_getElem? found
  have visited := visit_subroutine (agrees_unit declaration comments s)
    (formed_subroutines formed s member) place
  rw [ClassDeclaration.faults, List.append_eq_nil_iff, List.flatMap_eq_nil_iff] at faultless
  rw [faultless.2 s member] at visited
  refine ⟨marker comments declaration.className ++ before, place,
    after ++ marker comments ("~" ++ declaration.className), ?_, ?_, _, tree, visited⟩
  · simp only [ClassDeclaration.code, same, List.append_assoc]
  · rw [entries_append, entries_marker, List.nil_append, length]

theorem ClassDeclaration.BlockAt.eq_bodyCode {code before block after : Code}
    (at_index : declaration.BlockAt comments code index before block after)
    (formed : ∀ t ∈ declaration.tokens, t.WellFormed)
    (found : declaration.subroutines[index]? = some s) :
    ∃ place, declaration.subroutineTrees[index]? = some (s.toTree place).1 ∧
      block = declaration.bodyCode comments s place := by
  -- The code with an index in the class is that of the subroutine with this index.
  obtain ⟨-, place, -, -, -, there⟩ :=
    declaration.subroutineCode_split comments found declaration.firstNumber
  obtain ⟨tree, same, visited⟩ := at_index.visited
  obtain rfl : (s.toTree place).1 = tree := Option.some.inj (there.symm.trans same)
  rw [visit_subroutine (agrees_unit declaration comments s)
    (formed_subroutines formed s (List.mem_of_getElem? found)) place, settle_eq_ok] at visited
  exact ⟨place, there, (congrArg Prod.fst visited.2).symm⟩

def ClassDeclaration.ShowsIn (declaration : ClassDeclaration) (comments : Bool) (tree : Tree)
    (block : Code) (node : Tree) (property : Scope → Code → Prop) : Prop :=
  (∃ there, Visits (declaration.setting comments) [tree] declaration.scope node there) ∧
  ∀ there, Visits (declaration.setting comments) [tree] declaration.scope node there →
    ∃ fragment, visit (declaration.setting comments) node there = .ok (fragment, there) ∧
      fragment <:+: block ∧ property there fragment

theorem showsIn_of_placed {property : Scope → Code → Prop} {node : Tree} {place : Nat}
    (formed : ∀ t ∈ declaration.tokens, t.WellFormed) (faultless : declaration.faults = [])
    (found : declaration.subroutineTrees[index]? = some (s.toTree place).1)
    (member : s ∈ declaration.subroutines)
    (inside : declaration.bodyCode comments s place <:+: declaration.code comments)
    (part : Part node (s.toTree place).1) (kind : isPiece node.kind = true)
    (holds : ∀ piece number, node = piece.tree number →
      declaration.Placed comments s piece number →
      property (declaration.context comments s).scope
        (piece.extent (declaration.context comments s) number).code) :
    declaration.ShowsIn comments (s.toTree place).1 (declaration.bodyCode comments s place) node
      property := by
  have clear : declaration.subroutineFaults s = [] := by
    rw [ClassDeclaration.faults, List.append_eq_nil_iff, List.flatMap_eq_nil_iff] at faultless
    exact faultless.2 s member
  have formedTokens := formed_subroutines formed s member
  have visited := visit_subroutine (agrees_unit declaration comments s) formedTokens place
  rw [clear] at visited
  refine ⟨Visits.of_part part visited, fun there visits => ?_⟩
  obtain ⟨rfl, part, located⟩ := visits_subroutine formedTokens clear visits kind
  obtain ⟨piece, number, rfl, placed, code⟩ := placed_of_located formed faultless member
    ⟨place, List.mem_of_getElem? found, part⟩ located inside kind
  exact ⟨_, placed.emits.visited, code, holds piece number rfl placed⟩

end Subroutines

end JackCompiler
