import JackCompiler.Proofs.Lowering.Visit
import JackCompiler.Proofs.Tree

/-!
# Nodes in bodies

Every node of a body that stands for an expression, a term, a call or statements is the tree of such
a phrase, whose tokens, occurrences and code are part of those of the body.
-/

namespace JackCompiler

open Lowering

def isQuiet : NodeKind → Bool
  | .classDec | .subroutineDec | .classVarDec | .parameterList | .varDec => false
  | _ => true

/-! ## Visited nodes -/

/-- While some trees are visited in a row from a scope, a node is met in the scope `there`. -/
inductive Visits (setting : Setting) : List Tree → Scope → Tree → Scope → Prop
  | here {tree : Tree} {trees : List Tree} {scope : Scope} :
    Visits setting (tree :: trees) scope tree scope
  | inside {tree node : Tree} {trees : List Tree} {scope inner there : Scope} :
    enter tree scope = .ok inner → Visits setting tree.children inner node there →
      Visits setting (tree :: trees) scope node there
  | later {tree node : Tree} {trees : List Tree} {scope after there : Scope} {code : Code} :
    visit setting tree scope = .ok (code, after) → Visits setting trees after node there →
      Visits setting (tree :: trees) scope node there

namespace Visits

variable {setting : Setting} {trees : List Tree} {scope there : Scope} {node : Tree}

theorem part (visits : Visits setting trees scope node there) :
    ∃ tree ∈ trees, Part node tree := by
  induction visits with
  | here => exact ⟨_, .head _, .self _⟩
  | inside _ _ ih =>
    obtain ⟨child, member, part⟩ := ih
    exact ⟨_, .head _, .inside member part⟩
  | later _ _ ih =>
    obtain ⟨tree, member, part⟩ := ih
    exact ⟨tree, .tail _ member, part⟩

theorem of_append {first second : List Tree} {middle : Scope} {codes : List Code}
    (visits : Visits setting (first ++ second) scope node there)
    (visited : visitAll setting first scope [] = .ok (codes, middle)) :
    Visits setting first scope node there ∨ Visits setting second middle node there := by
  induction first generalizing scope codes with
  | nil =>
    cases visited
    exact .inr visits
  | cons tree first ih =>
    cases visits with
    | here => exact .inl .here
    | inside enters inner => exact .inl (.inside enters inner)
    | later visit visits =>
      rw [visitAll, visit] at visited
      change visitAll setting first _ [_] = _ at visited
      rw [visitAll_done] at visited
      cases rest : visitAll setting first _ [] with
      | error e =>
        rw [rest] at visited
        cases visited
      | ok result =>
        rw [rest] at visited
        cases visited
        exact (ih visits rest).imp_left (.later visit)

private theorem inScope_scope {scope after : Scope} {result : Lower Code} {code : Code}
    (done : inScope scope result = .ok (code, after)) : after = scope := by
  cases result with
  | error e => cases done
  | ok code =>
    cases done
    rfl

private theorem leave_quiet {setting : Setting} {tree : Tree} {scope after : Scope}
    {fragments : List Code} {code : Code} (quiet : isQuiet tree.kind = true)
    (leaves : leave setting tree scope fragments = .ok (code, after)) : after = scope := by
  obtain ⟨number, kind, token?, children⟩ := tree
  cases kind
  case classDec | subroutineDec | classVarDec | parameterList | varDec => cases quiet
  case start | statements | expression | expressionList | letStatement | keyword | symbol
      | identifier | integerConstant | stringConstant =>
    cases leaves
    rfl
  all_goals exact inScope_scope leaves

mutual

private theorem visit_quiet : (tree : Tree) → (scope after : Scope) → (code : Code) →
    (∀ node, Part node tree → isQuiet node.kind = true) →
    visit setting tree scope = .ok (code, after) → after = scope
  | .node number kind token? children, scope, after, code, quiet, visited => by
    have own : isQuiet kind = true := quiet _ (.self _)
    have enters : enter (.node number kind token? children) scope = .ok scope := by
      cases kind <;> first | rfl | cases own
    rw [visit, enters] at visited
    change visitAll setting children scope [] >>= _ = _ at visited
    cases parts : visitAll setting children scope [] with
    | error e =>
      rw [parts] at visited
      cases visited
    | ok result =>
      rw [parts] at visited
      have same := visitAll_quiet children scope result.2 [] result.1
        (fun child member node part => quiet node (.inside member part)) parts
      rw [← same]
      exact leave_quiet (quiet _ (.self _)) visited

private theorem visitAll_quiet : (trees : List Tree) → (scope after : Scope) →
    (done codes : List Code) →
    (∀ tree ∈ trees, ∀ node, Part node tree → isQuiet node.kind = true) →
    visitAll setting trees scope done = .ok (codes, after) → after = scope
  | [], scope, after, done, codes, _, visited => by
    cases visited
    rfl
  | tree :: trees, scope, after, done, codes, quiet, visited => by
    rw [visitAll] at visited
    cases first : visit setting tree scope with
    | error e =>
      rw [first] at visited
      cases visited
    | ok result =>
      rw [first] at visited
      have same := visit_quiet tree scope result.2 result.1 (quiet tree (.head _)) first
      have rest := visitAll_quiet trees result.2 after _ codes
        (fun other member => quiet other (.tail _ member)) visited
      rw [rest, same]

end

theorem scope_eq (visits : Visits setting trees scope node there)
    (quiet : ∀ tree ∈ trees, ∀ node, Part node tree → isQuiet node.kind = true) :
    there = scope := by
  induction visits with
  | here => rfl
  | @inside tree _ _ scope _ _ enters _ ih =>
    have own : isQuiet tree.kind = true := quiet tree (.head _) tree (.self _)
    have same : enter tree scope = .ok scope := by
      obtain ⟨number, kind, token?, children⟩ := tree
      cases kind <;> first | rfl | cases own
    rw [same] at enters
    cases enters
    exact ih fun child member node part => quiet tree (.head _) node (.inside member part)
  | later visited _ ih =>
    rw [← visit_quiet _ _ _ _ (quiet _ (.head _)) visited]
    exact ih fun other member => quiet other (.tail _ member)

theorem first_or_later {tree : Tree} {after : Scope} {code : Code}
    (visits : Visits setting (tree :: trees) scope node there)
    (visited : visit setting tree scope = .ok (code, after)) :
    Visits setting [tree] scope node there ∨ Visits setting trees after node there := by
  cases visits with
  | here => exact .inl .here
  | inside enters inner => exact .inl (.inside enters inner)
  | later other visits =>
    rw [visited] at other
    cases other
    exact .inr visits

private theorem visit_inner {number : Nat} {kind : NodeKind} {token? : Option Token}
    {children : List Tree} {result : Code × Scope}
    (visited : visit setting (.node number kind token? children) scope = .ok result) :
    ∃ inner codes, enter (.node number kind token? children) scope = .ok inner ∧
      visitAll setting children inner [] = .ok codes := by
  rw [visit] at visited
  cases enters : enter (.node number kind token? children) scope with
  | error e =>
    rw [enters] at visited
    cases visited
  | ok inner =>
    rw [enters] at visited
    change visitAll setting children inner [] >>= _ = _ at visited
    cases parts : visitAll setting children inner [] with
    | error e =>
      rw [parts] at visited
      cases visited
    | ok codes => exact ⟨inner, codes, rfl, parts⟩

private theorem visitAll_first {tree : Tree} {result : List Code × Scope}
    (visited : visitAll setting (tree :: trees) scope [] = .ok result) :
    ∃ code middle codes, visit setting tree scope = .ok (code, middle) ∧
      visitAll setting trees middle [] = .ok codes := by
  rw [visitAll] at visited
  cases first : visit setting tree scope with
  | error e =>
    rw [first] at visited
    cases visited
  | ok here =>
    rw [first] at visited
    change visitAll setting trees here.2 [here.1] = _ at visited
    rw [visitAll_done] at visited
    cases rest : visitAll setting trees here.2 [] with
    | error e =>
      rw [rest] at visited
      cases visited
    | ok codes => exact ⟨here.1, here.2, codes, rfl, rest⟩

private theorem among {tree : Tree} {result : List Code × Scope} (member : tree ∈ trees)
    (visited : visitAll setting trees scope [] = .ok result)
    (alone : ∀ scope result, visit setting tree scope = .ok result →
      ∃ there, Visits setting [tree] scope node there) :
    ∃ there, Visits setting trees scope node there := by
  induction trees generalizing scope result with
  | nil => cases member
  | cons first trees ih =>
    obtain ⟨code, middle, codes, here, rest⟩ := visitAll_first visited
    rcases List.mem_cons.mp member with rfl | member
    · obtain ⟨there, visits⟩ := alone scope _ here
      cases visits with
      | here => exact ⟨_, .here⟩
      | inside enters inner => exact ⟨_, .inside enters inner⟩
      | later _ none => cases none
    · obtain ⟨there, visits⟩ := ih member rest
      exact ⟨there, .later here visits⟩

theorem of_part {tree : Tree} {result : Code × Scope} (part : Part node tree)
    (visited : visit setting tree scope = .ok result) :
    ∃ there, Visits setting [tree] scope node there := by
  induction part generalizing scope result with
  | self => exact ⟨scope, .here⟩
  | @inside child tree member _ ih =>
    obtain ⟨number, kind, token?, children⟩ := tree
    obtain ⟨inner, codes, enters, parts⟩ := visit_inner visited
    obtain ⟨there, visits⟩ := among member parts fun _ _ => ih
    exact ⟨there, .inside enters visits⟩

end Visits

/-! ## Extents -/

/-- What a phrase takes up of a source and of its code. -/
structure Extent where
  tokens : List Token
  occurrences : List Occurrence
  code : Code

structure Extent.Within (small large : Extent) : Prop where
  tokens : ∀ t ∈ small.tokens, t ∈ large.tokens
  occurrences : ∀ o ∈ small.occurrences, o ∈ large.occurrences
  code : small.code <:+: large.code

namespace Extent.Within

theorem refl (extent : Extent) : extent.Within extent :=
  ⟨fun _ => id, fun _ => id, List.infix_rfl⟩

theorem trans {small middle large : Extent} (first : small.Within middle)
    (second : middle.Within large) : small.Within large :=
  ⟨fun t member => second.tokens t (first.tokens t member),
    fun o member => second.occurrences o (first.occurrences o member),
    first.code.trans second.code⟩

end Extent.Within

section Extents

variable (context : Context)

def Expression.extent (e : Expression) : Extent := ⟨e.tokens, e.occurrences, e.code context⟩

def Term.extent (t : Term) : Extent := ⟨t.tokens, t.occurrences, t.code context⟩

def Call.extent (c : Call) : Extent := ⟨c.tokens, c.occurrences, c.code context⟩

def Arguments.extent (a : Arguments) : Extent := ⟨a.tokens, a.occurrences, a.code context⟩

def Statement.extent (number : Nat) (s : Statement) : Extent :=
  ⟨s.tokens, s.occurrences, s.code context number⟩

def Block.extent (number : Nat) (b : Block) : Extent :=
  ⟨b.tokens, b.occurrences, b.code context number⟩

def statementsExtent (number : Nat) (statements : List Statement) : Extent :=
  ⟨statementTokens statements, statementOccurrences statements,
    statementCode context number statements⟩

end Extents

/-! ## Pieces -/

/-- A phrase of a body whose code is put together by a node of its own. -/
inductive Piece
  | expression (e : Expression)
  | term (t : Term)
  | call (c : Call)
  | statement (s : Statement)
  | statements (list : List Statement)

def isPiece : NodeKind → Bool
  | .expression | .term | .subroutineCall | .statements | .letStatement | .ifStatement
  | .whileStatement | .doStatement | .returnStatement => true
  | _ => false

namespace Piece

def tree (number : Nat) : Piece → Tree
  | .expression e => (e.toTree number).1
  | .term t => (t.toTree number).1
  | .call c => (c.toTree number).1
  | .statement s => (s.toTree number).1
  | .statements list => (statementsTree list number).1

def extent (context : Context) (number : Nat) : Piece → Extent
  | .expression e => e.extent context
  | .term t => t.extent context
  | .call c => c.extent context
  | .statement s => s.extent context number
  | .statements list => statementsExtent context (number + 1) list

end Piece

def Statement.nodeKind : Statement → NodeKind
  | .assign _ _ _ _ _ | .assignElement _ _ _ _ _ _ _ _ => .letStatement
  | .ifThen _ _ _ _ _ | .ifElse _ _ _ _ _ _ _ => .ifStatement
  | .loop _ _ _ _ _ => .whileStatement
  | .perform _ _ _ => .doStatement
  | .returnNothing _ _ | .returnValue _ _ _ => .returnStatement

def Piece.kind : Piece → NodeKind
  | .expression _ => .expression
  | .term _ => .term
  | .call _ => .subroutineCall
  | .statement s => s.nodeKind
  | .statements _ => .statements

@[simp]
theorem Piece.tree_kind (piece : Piece) (number : Nat) :
    (piece.tree number).kind = piece.kind := by
  cases piece with
  | statement s => cases s <;> simp [tree, kind, Statement.toTree, Statement.nodeKind]
  | _ => simp [tree, kind]

theorem Piece.tree_quiet (piece : Piece) (number : Nat) :
    isQuiet (piece.tree number).kind = true := by
  rw [tree_kind]
  cases piece with
  | statement s => cases s <;> rfl
  | _ => rfl

/-! ## Located nodes -/

section Located

variable {context : Context} {small large : Extent}

/-- A node of a body declares nothing, and is the tree of a piece of it if its kind says so. -/
structure Located (context : Context) (large : Extent) (node : Tree) : Prop where
  quiet : isQuiet node.kind = true
  piece : isPiece node.kind = true → ∃ (piece : Piece) (number : Nat),
    node = piece.tree number ∧ (piece.extent context number).Within large

def AllLocated (context : Context) (large : Extent) (tree : Tree) : Prop :=
  ∀ node, Part node tree → Located context large node

theorem Located.mono {node : Tree} (located : Located context small node)
    (within : small.Within large) : Located context large node where
  quiet := located.quiet
  piece kind := by
    obtain ⟨piece, number, same, inner⟩ := located.piece kind
    exact ⟨piece, number, same, inner.trans within⟩

theorem Located.expression {node : Tree} (located : Located context large node)
    (kind : node.kind = .expression) : ∃ (e : Expression) (number : Nat),
      node = (e.toTree number).1 ∧ (e.extent context).Within large := by
  obtain ⟨piece, number, rfl, within⟩ := located.piece (by rw [kind]; rfl)
  rw [Piece.tree_kind] at kind
  cases piece with
  | expression e => exact ⟨e, number, rfl, within⟩
  | statement s => cases s <;> cases kind
  | _ => cases kind

theorem Located.statements {node : Tree} (located : Located context large node)
    (kind : node.kind = .statements) : ∃ (statements : List Statement) (number : Nat),
      node = (statementsTree statements number).1 ∧
        (statementsExtent context (number + 1) statements).Within large := by
  obtain ⟨piece, number, rfl, within⟩ := located.piece (by rw [kind]; rfl)
  rw [Piece.tree_kind] at kind
  cases piece with
  | statements list => exact ⟨list, number, rfl, within⟩
  | statement s => cases s <;> cases kind
  | _ => cases kind

theorem AllLocated.mono {tree : Tree} (located : AllLocated context small tree)
    (within : small.Within large) : AllLocated context large tree :=
  fun node part => (located node part).mono within

theorem allLocated_of {tree : Tree} (own : Located context large tree)
    (all : ∀ child ∈ tree.children, AllLocated context large child) :
    AllLocated context large tree := by
  intro node part
  cases part with
  | self => exact own
  | inside member part => exact all _ member node part

theorem allLocated_piece (piece : Piece) (number : Nat)
    (all : ∀ child ∈ (piece.tree number).children,
      AllLocated context (piece.extent context number) child) :
    AllLocated context (piece.extent context number) (piece.tree number) :=
  allLocated_of ⟨piece.tree_quiet number, fun _ => ⟨piece, number, rfl, .refl _⟩⟩ all

def isPlain (kind : NodeKind) : Bool := isQuiet kind && !isPiece kind

theorem allLocated_node {number : Nat} {kind : NodeKind} {token? : Option Token}
    {children : List Tree} (plain : isPlain kind = true)
    (all : ∀ child ∈ children, AllLocated context large child) :
    AllLocated context large (.node number kind token? children) := by
  simp only [isPlain, Bool.and_eq_true, Bool.not_eq_true'] at plain
  refine allLocated_of ⟨plain.1, fun piece => ?_⟩ all
  rw [Tree.kind_node, plain.2] at piece
  cases piece

theorem allLocated_none : ∀ child ∈ ([] : List Tree), AllLocated context large child :=
  fun _ member => absurd member List.not_mem_nil

theorem allLocated_nil {number : Nat} {kind : NodeKind} {token? : Option Token}
    (plain : isPlain kind = true) : AllLocated context large (.node number kind token? []) :=
  allLocated_node plain allLocated_none

theorem allLocated_wordLeaf (token : Token) (number : Nat) :
    AllLocated context large (wordLeaf token number).1 := by
  change AllLocated context large (.node number (if token.kind = .keyword then .keyword else .symbol)
    (some token) [])
  split
  · exact allLocated_nil rfl
  · exact allLocated_nil rfl

theorem allLocated_literalLeaf (token : Token) (number : Nat) :
    AllLocated context large (literalLeaf token number).1 := by
  obtain ⟨line, kind, value⟩ := token
  cases kind <;> exact allLocated_nil rfl

theorem allLocated_cons {tree : Tree} {trees : List Tree}
    (first : AllLocated context large tree)
    (rest : ∀ child ∈ trees, AllLocated context large child) :
    ∀ child ∈ tree :: trees, AllLocated context large child :=
  List.forall_mem_cons.mpr ⟨first, rest⟩

theorem allLocated_append {trees others : List Tree}
    (first : ∀ child ∈ trees, AllLocated context large child)
    (rest : ∀ child ∈ others, AllLocated context large child) :
    ∀ child ∈ trees ++ others, AllLocated context large child :=
  List.forall_mem_append.mpr ⟨first, rest⟩

/-! ## Expressions -/

private theorem allLocated_expression {e : Expression}
    (operand : ∀ number, AllLocated context (e.extent context) (e.operandTree number).1)
    (number : Nat) : AllLocated context (e.extent context) (e.toTree number).1 := by
  refine allLocated_piece (.expression e) number ?_
  rw [Piece.tree, Expression.toTree]
  exact allLocated_cons (operand _) allLocated_none

private theorem allLocated_binary {left : Expression} {operator : Word binaryOperators}
    {right : Term}
    (first : ∀ number, AllLocated context (left.extent context) (left.operandTree number).1)
    (second : ∀ number, AllLocated context (right.extent context) (right.toTree number).1)
    (number : Nat) :
    AllLocated context ((Expression.binary left operator right).extent context)
      ((Expression.binary left operator right).operandTree number).1 := by
  have withinLeft : (left.extent context).Within
      ((Expression.binary left operator right).extent context) := by
    refine ⟨fun t member => ?_, fun o member => ?_, ?_⟩
    · simp_all [Expression.extent, Expression.tokens]
    · simp_all [Expression.extent, Expression.occurrences]
    · exact ⟨[], right.code context ++ [_], (List.append_assoc _ _ _).symm⟩
  have withinRight : (right.extent context).Within
      ((Expression.binary left operator right).extent context) := by
    refine ⟨fun t member => ?_, fun o member => ?_, ?_⟩
    · simp_all [Expression.extent, Term.extent, Expression.tokens]
    · simp_all [Expression.extent, Term.extent, Expression.occurrences]
    · exact ⟨left.code context, [_], rfl⟩
  rw [Expression.operandTree]
  exact allLocated_node rfl (allLocated_cons ((first _).mono withinLeft)
    (allLocated_cons ((second _).mono withinRight) allLocated_none))

private theorem allLocated_moreArguments {more : List (Comma × Expression)}
    (each : ∀ pair ∈ more, ∀ number,
      AllLocated context (pair.2.extent context) (pair.2.toTree number).1)
    (within : ∀ pair ∈ more, (pair.2.extent context).Within large) (number : Nat) :
    ∀ child ∈ (moreArgumentTrees more [] number).1, AllLocated context large child := by
  induction more generalizing number with
  | nil => simp [moreArgumentTrees]
  | cons pair more ih =>
    obtain ⟨comma, argument⟩ := pair
    rw [moreArgumentTrees_cons]
    exact allLocated_cons (allLocated_wordLeaf _ _) (allLocated_cons
      ((each _ (.head _) _).mono (within _ (.head _)))
      (ih (fun pair member => each pair (.tail _ member))
        (fun pair member => within pair (.tail _ member)) _))

private theorem moreArguments_within {more : List (Comma × Expression)} {pair : Comma × Expression}
    (member : pair ∈ more) : (pair.2.extent context).Within
      ⟨moreArgumentTokens more, moreArgumentOccurrences more, moreArgumentCode context more⟩ := by
  induction more with
  | nil => cases member
  | cons other more ih =>
    obtain ⟨comma, argument⟩ := other
    rcases List.mem_cons.mp member with rfl | member
    · refine ⟨fun t inside => ?_, fun o inside => ?_, ?_⟩
      · simp_all [Expression.extent, moreArgumentTokens]
      · simp_all [Expression.extent, moreArgumentOccurrences]
      · exact List.infix_append_left
    · refine (ih member).trans ⟨fun t inside => ?_, fun o inside => ?_, ?_⟩
      · simp_all [moreArgumentTokens]
      · simp_all [moreArgumentOccurrences]
      · exact List.infix_append_right

private theorem allLocated_arguments {first : Expression} {more : List (Comma × Expression)}
    (one : ∀ number, AllLocated context (first.extent context) (first.toTree number).1)
    (each : ∀ pair ∈ more, ∀ number,
      AllLocated context (pair.2.extent context) (pair.2.toTree number).1) (number : Nat) :
    AllLocated context ((Arguments.listed first more).extent context)
      ((Arguments.listed first more).toTree number).1 := by
  have withinFirst : (first.extent context).Within
      ((Arguments.listed first more).extent context) := by
    refine ⟨fun t member => ?_, fun o member => ?_, ?_⟩
    · simp_all [Expression.extent, Arguments.extent, Arguments.tokens]
    · simp_all [Expression.extent, Arguments.extent, Arguments.occurrences]
    · exact List.infix_append_left
  have withinMore : Extent.Within
      ⟨moreArgumentTokens more, moreArgumentOccurrences more, moreArgumentCode context more⟩
      ((Arguments.listed first more).extent context) := by
    refine ⟨fun t member => ?_, fun o member => ?_, ?_⟩
    · simp_all [Arguments.extent, Arguments.tokens]
    · simp_all [Arguments.extent, Arguments.occurrences]
    · exact List.infix_append_right
  rw [Arguments.toTree_listed]
  exact allLocated_node rfl (allLocated_cons ((one _).mono withinFirst)
    (allLocated_moreArguments each
      (fun pair member => (moreArguments_within member).trans withinMore) _))

private theorem infix_cons_append (first : Instruction) (inner last : Code) :
    inner <:+: first :: inner ++ last :=
  ⟨[first], last, rfl⟩

private theorem arguments_within_qualified {qualifier : Name} {dot : Word ["."]} {name : MemberName}
    {opening : Word ["("]} {arguments : Arguments} {closing : Word [")"]} :
    (arguments.extent context).Within
      ((Call.qualified qualifier dot name opening arguments closing).extent context) := by
  refine ⟨fun t member => ?_, fun o member => ?_, ?_⟩
  · simp_all [Arguments.extent, Call.extent, Call.tokens]
  · simp_all [Arguments.extent, Call.extent, Call.occurrences]
  · change arguments.code context <:+: Call.code context _
    rw [Call.code]
    split
    · exact infix_cons_append _ _ _
    · split
      · exact infix_cons_append _ _ _
      · exact List.infix_append_left

private theorem allLocated_all :
    (∀ (e : Expression) number,
      AllLocated context (e.extent context) (e.operandTree number).1) ∧
    (∀ (t : Term) number, AllLocated context (t.extent context) (t.toTree number).1) ∧
    (∀ (c : Call) number, AllLocated context (c.extent context) (c.toTree number).1) ∧
    (∀ (a : Arguments) number, AllLocated context (a.extent context) (a.toTree number).1) := by
  apply Expression.induction
  case term =>
    intro t ih number
    rw [Expression.operandTree]
    exact ih number
  case binary => exact fun _ _ _ first second number => allLocated_binary first second number
  case literal =>
    intro value number
    refine allLocated_piece (.term (.literal value)) number ?_
    rw [Piece.tree, Term.toTree]
    exact allLocated_cons (allLocated_literalLeaf _ _) allLocated_none
  case name =>
    intro name number
    refine allLocated_piece (.term (.name name)) number ?_
    rw [Piece.tree, Term.toTree]
    exact allLocated_cons (allLocated_nil rfl) allLocated_none
  case element =>
    intro array opening index closing ih number
    have within : (index.extent context).Within
        ((Term.element array opening index closing).extent context) := by
      refine ⟨fun t member => ?_, fun o member => ?_, ?_⟩
      · simp_all [Expression.extent, Term.extent, Term.tokens]
      · simp_all [Expression.extent, Term.extent, Term.occurrences]
      · exact ⟨context.load array.val, [.arithmetic .add, .pop .pointer 1, .push .that 0], rfl⟩
    refine allLocated_piece (.term (.element array opening index closing)) number ?_
    rw [Piece.tree, Term.toTree]
    exact allLocated_cons (allLocated_node rfl
      (allLocated_cons (allLocated_nil rfl) (allLocated_cons (allLocated_wordLeaf _ _)
        (allLocated_cons ((allLocated_expression ih _).mono within)
          (allLocated_cons (allLocated_wordLeaf _ _) allLocated_none))))) allLocated_none
  case call =>
    intro c ih number
    have within : (c.extent context).Within ((Term.call c).extent context) := .refl _
    refine allLocated_piece (.term (.call c)) number ?_
    rw [Piece.tree, Term.toTree]
    exact allLocated_cons ((ih _).mono within) allLocated_none
  case group =>
    intro opening inner closing ih number
    have within : (inner.extent context).Within
        ((Term.group opening inner closing).extent context) := by
      refine ⟨fun t member => ?_, fun o member => member, List.infix_rfl⟩
      simp_all [Expression.extent, Term.extent, Term.tokens]
    refine allLocated_piece (.term (.group opening inner closing)) number ?_
    rw [Piece.tree, Term.toTree]
    exact allLocated_cons (allLocated_wordLeaf _ _)
      (allLocated_cons ((allLocated_expression ih _).mono within)
        (allLocated_cons (allLocated_wordLeaf _ _) allLocated_none))
  case unary =>
    intro operator operand ih number
    have within : (operand.extent context).Within
        ((Term.unary operator operand).extent context) := by
      refine ⟨fun t member => ?_, fun o member => member, List.infix_append_left⟩
      simp_all [Term.extent, Term.tokens]
    refine allLocated_piece (.term (.unary operator operand)) number ?_
    rw [Piece.tree, Term.toTree]
    exact allLocated_cons
      (allLocated_node rfl (allLocated_cons ((ih _).mono within) allLocated_none)) allLocated_none
  case bare =>
    intro name opening arguments closing ih number
    have within : (arguments.extent context).Within
        ((Call.bare name opening arguments closing).extent context) := by
      refine ⟨fun t member => ?_, fun o member => ?_, infix_cons_append _ _ _⟩
      · simp_all [Arguments.extent, Call.extent, Call.tokens]
      · simp_all [Arguments.extent, Call.extent, Call.occurrences]
    refine allLocated_piece (.call (.bare name opening arguments closing)) number ?_
    rw [Piece.tree, Call.toTree]
    exact allLocated_cons (allLocated_nil rfl)
      (allLocated_cons (allLocated_wordLeaf _ _) (allLocated_cons ((ih _).mono within)
        (allLocated_cons (allLocated_wordLeaf _ _) allLocated_none)))
  case qualified =>
    intro qualifier dot name opening arguments closing ih number
    refine allLocated_piece (.call (.qualified qualifier dot name opening arguments closing)) number ?_
    rw [Piece.tree, Call.toTree]
    exact allLocated_cons (allLocated_nil rfl)
      (allLocated_cons (allLocated_wordLeaf _ _) (allLocated_cons (allLocated_nil rfl)
        (allLocated_cons (allLocated_wordLeaf _ _)
          (allLocated_cons ((ih _).mono arguments_within_qualified)
            (allLocated_cons (allLocated_wordLeaf _ _) allLocated_none)))))
  case empty =>
    intro number
    rw [Arguments.toTree]
    exact allLocated_nil rfl
  case listed =>
    intro first more one each number
    exact allLocated_arguments (allLocated_expression one)
      (fun pair member => allLocated_expression (each pair member)) number

theorem Expression.allLocated (e : Expression) (number : Nat) :
    AllLocated context (e.extent context) (e.toTree number).1 :=
  allLocated_expression (allLocated_all.1 e) number

theorem Call.allLocated (c : Call) (number : Nat) :
    AllLocated context (c.extent context) (c.toTree number).1 :=
  allLocated_all.2.2.1 c number

/-! ## Statements -/

private theorem allLocated_statementTrees {statements : List Statement}
    (each : ∀ s ∈ statements, ∀ number,
      AllLocated context (s.extent context number) (s.toTree number).1) (number : Nat) :
    ∀ child ∈ (statementTrees statements [] number).1,
      AllLocated context (statementsExtent context number statements) child := by
  induction statements generalizing number with
  | nil => simp [statementTrees]
  | cons s statements ih =>
    have withinFirst : (s.extent context number).Within
        (statementsExtent context number (s :: statements)) := by
      refine ⟨fun t member => ?_, fun o member => ?_, List.infix_append_left⟩
      · simp_all [Statement.extent, statementsExtent, statementTokens]
      · simp_all [Statement.extent, statementsExtent, statementOccurrences]
    have withinRest : (statementsExtent context (number + s.nodes) statements).Within
        (statementsExtent context number (s :: statements)) := by
      refine ⟨fun t member => ?_, fun o member => ?_, List.infix_append_right⟩
      · simp_all [statementsExtent, statementTokens]
      · simp_all [statementsExtent, statementOccurrences]
    rw [statementTrees_cons]
    refine allLocated_cons ((each s (.head _) number).mono withinFirst) fun child member => ?_
    exact (ih (fun s member => each s (.tail _ member)) _ child member).mono withinRest

private theorem allLocated_statements {statements : List Statement}
    (each : ∀ s ∈ statements, ∀ number,
      AllLocated context (s.extent context number) (s.toTree number).1) (number : Nat) :
    AllLocated context (statementsExtent context (number + 1) statements)
      (statementsTree statements number).1 :=
  allLocated_piece (.statements statements) number (allLocated_statementTrees each (number + 1))

private abbrev BlockLocated (context : Context) (b : Block) : Prop :=
  ∀ number, ∀ child ∈ (b.toTrees number).1, AllLocated context (b.extent context number) child

private theorem allLocated_assign {keyword : Word ["let"]} {target : Name} {equals : Word ["="]}
    {value : Expression} {semicolon : Word [";"]} (number : Nat) :
    let s := Statement.assign keyword target equals value semicolon
    AllLocated context (s.extent context number) (s.toTree number).1 := by
  intro s
  have within : (value.extent context).Within (s.extent context number) := by
    refine ⟨fun t member => ?_, fun o member => ?_, ?_⟩
    · simp_all [s, Expression.extent, Statement.extent, Statement.tokens]
    · simp_all [s, Expression.extent, Statement.extent, Statement.occurrences]
    · exact List.infix_append_of_infix_right List.infix_append_left
  refine allLocated_piece (.statement s) number ?_
  rw [Piece.tree, Statement.toTree]
  exact allLocated_cons (allLocated_wordLeaf _ _) (allLocated_cons
    (allLocated_node rfl (allLocated_cons (allLocated_nil rfl)
      (allLocated_cons (allLocated_wordLeaf _ _)
        (allLocated_cons ((value.allLocated _).mono within) allLocated_none))))
    (allLocated_cons (allLocated_wordLeaf _ _) allLocated_none))

private theorem allLocated_assignElement {keyword : Word ["let"]} {array : Name}
    {opening : Word ["["]} {index : Expression} {closing : Word ["]"]} {equals : Word ["="]}
    {value : Expression} {semicolon : Word [";"]} (number : Nat) :
    let s := Statement.assignElement keyword array opening index closing equals value semicolon
    AllLocated context (s.extent context number) (s.toTree number).1 := by
  intro s
  have withinIndex : (index.extent context).Within (s.extent context number) := by
    refine ⟨fun t member => ?_, fun o member => ?_, ?_⟩
    · simp_all [s, Expression.extent, Statement.extent, Statement.tokens]
    · simp_all [s, Expression.extent, Statement.extent, Statement.occurrences]
    · exact List.infix_append_of_infix_right (List.infix_append_of_infix_left
        (List.infix_append_of_infix_left (List.infix_append_of_infix_left List.infix_append_right)))
  have withinValue : (value.extent context).Within (s.extent context number) := by
    refine ⟨fun t member => ?_, fun o member => ?_, ?_⟩
    · simp_all [s, Expression.extent, Statement.extent, Statement.tokens]
    · simp_all [s, Expression.extent, Statement.extent, Statement.occurrences]
    · exact List.infix_append_of_infix_right
        (List.infix_append_of_infix_left List.infix_append_right)
  refine allLocated_piece (.statement s) number ?_
  rw [Piece.tree, Statement.toTree]
  exact allLocated_cons (allLocated_wordLeaf _ _) (allLocated_cons
    (allLocated_node rfl (allLocated_cons (allLocated_nil rfl)
      (allLocated_cons (allLocated_wordLeaf _ _)
        (allLocated_cons ((index.allLocated _).mono withinIndex)
          (allLocated_cons (allLocated_wordLeaf _ _) (allLocated_cons (allLocated_wordLeaf _ _)
            (allLocated_cons ((value.allLocated _).mono withinValue) allLocated_none)))))))
    (allLocated_cons (allLocated_wordLeaf _ _) allLocated_none))

private theorem allLocated_ifThen {keyword : Word ["if"]} {opening : Word ["("]}
    {condition : Expression} {closing : Word [")"]} {body : Block}
    (block : BlockLocated context body) (number : Nat) :
    let s := Statement.ifThen keyword opening condition closing body
    AllLocated context (s.extent context number) (s.toTree number).1 := by
  intro s
  have withinCondition : (condition.extent context).Within (s.extent context number) := by
    refine ⟨fun t member => ?_, fun o member => ?_, ?_⟩
    · simp_all [s, Expression.extent, Statement.extent, Statement.tokens]
    · simp_all [s, Expression.extent, Statement.extent, Statement.occurrences]
    · exact List.infix_append_of_infix_left (List.infix_append_of_infix_left
        (List.infix_append_of_infix_left (List.infix_append_of_infix_left List.infix_append_right)))
  have withinBody : (body.extent context (number + 4 + condition.nodes)).Within
      (s.extent context number) := by
    refine ⟨fun t member => ?_, fun o member => ?_, ?_⟩
    · simp_all [s, Block.extent, Statement.extent, Statement.tokens]
    · simp_all [s, Block.extent, Statement.extent, Statement.occurrences]
    · exact List.infix_append_of_infix_left
        (List.infix_append_of_infix_left List.infix_append_right)
  have next : (condition.toTree (number + 3)).2 + 1 = number + 4 + condition.nodes := by
    rw [condition.toTree_next]
    omega
  refine allLocated_piece (.statement s) number ?_
  rw [Piece.tree, Statement.toTree]
  refine (allLocated_append (allLocated_cons (allLocated_wordLeaf _ _)
    (allLocated_cons (allLocated_wordLeaf _ _)
      (allLocated_cons ((condition.allLocated _).mono withinCondition)
        (allLocated_cons (allLocated_wordLeaf _ _) allLocated_none)))) fun child member => ?_)
  change child ∈ (body.toTrees ((condition.toTree (number + 3)).2 + 1)).1 at member
  rw [next] at member
  exact (block _ child member).mono withinBody

private theorem allLocated_ifElse {keyword : Word ["if"]} {opening : Word ["("]}
    {condition : Expression} {closing : Word [")"]} {body : Block} {otherwise : Word ["else"]}
    {alternative : Block} (block : BlockLocated context body)
    (other : BlockLocated context alternative) (number : Nat) :
    let s := Statement.ifElse keyword opening condition closing body otherwise alternative
    AllLocated context (s.extent context number) (s.toTree number).1 := by
  intro s
  have withinCondition : (condition.extent context).Within (s.extent context number) := by
    refine ⟨fun t member => ?_, fun o member => ?_, ?_⟩
    · simp_all [s, Expression.extent, Statement.extent, Statement.tokens]
    · simp_all [s, Expression.extent, Statement.extent, Statement.occurrences]
    · exact List.infix_append_of_infix_left (List.infix_append_of_infix_left
        (List.infix_append_of_infix_left (List.infix_append_of_infix_left
          (List.infix_append_of_infix_left List.infix_append_right))))
  have withinBody : (body.extent context (number + 4 + condition.nodes)).Within
      (s.extent context number) := by
    refine ⟨fun t member => ?_, fun o member => ?_, ?_⟩
    · simp_all [s, Block.extent, Statement.extent, Statement.tokens]
    · simp_all [s, Block.extent, Statement.extent, Statement.occurrences]
    · exact List.infix_append_of_infix_left (List.infix_append_of_infix_left
        (List.infix_append_of_infix_left List.infix_append_right))
  have withinOther : (alternative.extent context (number + 5 + condition.nodes + body.nodes)).Within
      (s.extent context number) := by
    refine ⟨fun t member => ?_, fun o member => ?_, ?_⟩
    · simp_all [s, Block.extent, Statement.extent, Statement.tokens]
    · simp_all [s, Block.extent, Statement.extent, Statement.occurrences]
    · exact List.infix_append_of_infix_left
        (List.infix_append_of_infix_right List.infix_append_left)
  have next : (condition.toTree (number + 3)).2 + 1 = number + 4 + condition.nodes := by
    rw [condition.toTree_next]
    omega
  have after : (body.toTrees ((condition.toTree (number + 3)).2 + 1)).2 + 1 =
      number + 5 + condition.nodes + body.nodes := by
    rw [next, body.toTrees_next]
    omega
  refine allLocated_piece (.statement s) number ?_
  rw [Piece.tree, Statement.toTree]
  refine (allLocated_append (allLocated_append (allLocated_append
    (allLocated_cons (allLocated_wordLeaf _ _) (allLocated_cons (allLocated_wordLeaf _ _)
      (allLocated_cons ((condition.allLocated _).mono withinCondition)
        (allLocated_cons (allLocated_wordLeaf _ _) allLocated_none)))) fun child member => ?_)
    (allLocated_cons (allLocated_wordLeaf _ _) allLocated_none)) fun child member => ?_)
  · change child ∈ (body.toTrees ((condition.toTree (number + 3)).2 + 1)).1 at member
    rw [next] at member
    exact (block _ child member).mono withinBody
  · change child ∈ (alternative.toTrees
      ((body.toTrees ((condition.toTree (number + 3)).2 + 1)).2 + 1)).1 at member
    rw [after] at member
    exact (other _ child member).mono withinOther

private theorem allLocated_loop {keyword : Word ["while"]} {opening : Word ["("]}
    {condition : Expression} {closing : Word [")"]} {body : Block}
    (block : BlockLocated context body) (number : Nat) :
    let s := Statement.loop keyword opening condition closing body
    AllLocated context (s.extent context number) (s.toTree number).1 := by
  intro s
  have withinCondition : (condition.extent context).Within (s.extent context number) := by
    refine ⟨fun t member => ?_, fun o member => ?_, ?_⟩
    · simp_all [s, Expression.extent, Statement.extent, Statement.tokens]
    · simp_all [s, Expression.extent, Statement.extent, Statement.occurrences]
    · exact List.infix_append_of_infix_left (List.infix_append_of_infix_left
        (List.infix_append_of_infix_left List.infix_append_right))
  have withinBody : (body.extent context (number + 4 + condition.nodes)).Within
      (s.extent context number) := by
    refine ⟨fun t member => ?_, fun o member => ?_, ?_⟩
    · simp_all [s, Block.extent, Statement.extent, Statement.tokens]
    · simp_all [s, Block.extent, Statement.extent, Statement.occurrences]
    · exact List.infix_append_of_infix_left List.infix_append_right
  have next : (condition.toTree (number + 3)).2 + 1 = number + 4 + condition.nodes := by
    rw [condition.toTree_next]
    omega
  refine allLocated_piece (.statement s) number ?_
  rw [Piece.tree, Statement.toTree]
  refine (allLocated_append (allLocated_cons (allLocated_wordLeaf _ _)
    (allLocated_cons (allLocated_wordLeaf _ _)
      (allLocated_cons ((condition.allLocated _).mono withinCondition)
        (allLocated_cons (allLocated_wordLeaf _ _) allLocated_none)))) fun child member => ?_)
  change child ∈ (body.toTrees ((condition.toTree (number + 3)).2 + 1)).1 at member
  rw [next] at member
  exact (block _ child member).mono withinBody

private theorem allLocated_all_statements :
    (∀ (s : Statement) number,
      AllLocated context (s.extent context number) (s.toTree number).1) ∧
    (∀ b : Block, BlockLocated context b) := by
  apply Statement.induction
  case assign => exact fun _ _ _ _ _ number => allLocated_assign number
  case assignElement => exact fun _ _ _ _ _ _ _ _ number => allLocated_assignElement number
  case ifThen => exact fun _ _ _ _ _ block number => allLocated_ifThen block number
  case ifElse => exact fun _ _ _ _ _ _ _ block other number => allLocated_ifElse block other number
  case loop => exact fun _ _ _ _ _ block number => allLocated_loop block number
  case perform =>
    intro keyword call semicolon number
    have within : (call.extent context).Within
        ((Statement.perform keyword call semicolon).extent context number) := by
      refine ⟨fun t member => ?_, fun o member => member, ?_⟩
      · simp_all [Call.extent, Statement.extent, Statement.tokens]
      exact List.infix_append_of_infix_left List.infix_append_right
    refine allLocated_piece (.statement (.perform keyword call semicolon)) number ?_
    rw [Piece.tree, Statement.toTree]
    exact allLocated_cons (allLocated_wordLeaf _ _)
      (allLocated_cons ((call.allLocated _).mono within)
        (allLocated_cons (allLocated_wordLeaf _ _) allLocated_none))
  case returnNothing =>
    intro keyword semicolon number
    refine allLocated_piece (.statement (.returnNothing keyword semicolon)) number ?_
    rw [Piece.tree, Statement.toTree]
    exact allLocated_cons (allLocated_wordLeaf _ _)
      (allLocated_cons (allLocated_wordLeaf _ _) allLocated_none)
  case returnValue =>
    intro keyword value semicolon number
    have within : (value.extent context).Within
        ((Statement.returnValue keyword value semicolon).extent context number) := by
      refine ⟨fun t member => ?_, fun o member => ?_, ?_⟩
      · simp_all [Expression.extent, Statement.extent, Statement.tokens]
      · simp_all [Expression.extent, Statement.extent, Statement.occurrences]
      exact List.infix_append_of_infix_left List.infix_append_right
    refine allLocated_piece (.statement (.returnValue keyword value semicolon)) number ?_
    rw [Piece.tree, Statement.toTree]
    exact allLocated_cons (allLocated_wordLeaf _ _)
      (allLocated_cons ((value.allLocated _).mono within)
        (allLocated_cons (allLocated_wordLeaf _ _) allLocated_none))
  case braced =>
    intro opening statements closing each number child member
    have within : (statementsExtent context (number + 2) statements).Within
        ((Block.braced opening statements closing).extent context number) := by
      refine ⟨fun t member => ?_, fun o member => member, List.infix_rfl⟩
      simp_all [statementsExtent, Block.extent, Block.tokens]
    obtain ⟨first, last, after, same⟩ :=
      (Block.braced opening statements closing).toTrees_eq number
    rw [same] at member
    exact allLocated_cons (allLocated_wordLeaf _ _)
      (allLocated_cons ((allLocated_statements each _).mono within)
        (allLocated_cons (allLocated_wordLeaf _ _)
          fun _ none => absurd none List.not_mem_nil)) child member

theorem statementsTree_allLocated (statements : List Statement) (number : Nat) :
    AllLocated context (statementsExtent context (number + 1) statements)
      (statementsTree statements number).1 :=
  allLocated_statements (fun s _ => allLocated_all_statements.1 s) number

end Located

end JackCompiler
