import JackCompiler.Proofs.Listing.Names
import JackCompiler.Proofs.Meaning.Preservation

/-!
# Markers

Markers change nothing but the comments: with them a source compiles exactly if it does without, to
the same code once the comments are taken out, and a comment stands for the start and the end of the
class, for each subroutine and for each statement.
-/

namespace JackCompiler

open Lowering

/-! ## Code without comments -/

def Code.plain (code : Code) : Code := code.filter fun instruction => !instruction.isComment

/-- Code without markers, next to the same code with so many of them. -/
structure Marked (count : Nat) (plain commented : Code) : Prop where
  removed : commented.plain = plain
  counted : commented.countP Instruction.isComment = count

namespace Marked

variable {count more : Nat} {plain plain' commented commented' code : Code}

theorem append (first : Marked count plain commented) (rest : Marked more plain' commented') :
    Marked (count + more) (plain ++ plain') (commented ++ commented') where
  removed := by
    rw [Code.plain, List.filter_append]
    exact congrArg₂ _ first.removed rest.removed
  counted := by rw [List.countP_append, first.counted, rest.counted]

theorem marker (text : String) : Marked 1 (marker false text) (marker true text) := ⟨rfl, rfl⟩

theorem silent (none : ∀ instruction ∈ code, instruction.isComment = false) :
    Marked 0 code code where
  removed := List.filter_eq_self.mpr fun instruction member => by simp [none instruction member]
  counted := List.countP_eq_zero.mpr fun instruction member => by simp [none instruction member]

theorem cons {instruction : Instruction} (spoken : instruction.isComment = false)
    (rest : Marked count plain commented) :
    Marked count (instruction :: plain) (instruction :: commented) where
  removed := by
    rw [Code.plain, List.filter_cons_of_pos (by simp [spoken])]
    exact congrArg _ rest.removed
  counted := by rw [List.countP_cons_of_neg (by simp [spoken]), rest.counted]

theorem straight (straight : Straight code) : Marked 0 code code := by
  refine silent fun instruction member => ?_
  have own := straight instruction member
  cases instruction <;> first | rfl | cases own

theorem of_eq (marked : Marked count plain commented) (same : count = more) :
    Marked more plain commented :=
  same ▸ marked

end Marked

/-! ## Statements of a tree -/

def NodeKind.isStatement : NodeKind → Bool
  | .letStatement | .doStatement | .ifStatement | .whileStatement | .returnStatement => true
  | _ => false

def Tree.statementCount (tree : Tree) : Nat := tree.nodes.countP fun node => node.kind.isStatement

def statementsIn (trees : List Tree) : Nat :=
  (trees.flatMap Tree.nodes).countP fun node => node.kind.isStatement

section StatementsIn

variable {tree : Tree} {trees others : List Tree}

@[simp]
theorem statementsIn_nil : statementsIn [] = 0 := rfl

@[simp]
theorem statementsIn_cons :
    statementsIn (tree :: trees) = tree.statementCount + statementsIn trees := by
  rw [statementsIn, List.flatMap_cons, List.countP_append, Tree.statementCount, statementsIn]

@[simp]
theorem statementsIn_append :
    statementsIn (trees ++ others) = statementsIn trees + statementsIn others := by
  rw [statementsIn, List.flatMap_append, List.countP_append, statementsIn, statementsIn]

theorem statementsIn_eq_zero (none : ∀ tree ∈ trees, tree.statementCount = 0) :
    statementsIn trees = 0 := by
  induction trees with
  | nil => rfl
  | cons tree trees ih =>
    rw [List.forall_mem_cons] at none
    rw [statementsIn_cons, none.1, ih none.2]

@[simp]
theorem Tree.statementCount_node (number : Nat) (kind : NodeKind) (token? : Option Token) :
    (Tree.node number kind token? trees).statementCount =
      (if kind.isStatement then 1 else 0) + statementsIn trees := by
  rw [statementCount, Tree.nodes, Tree.nodesAll_eq, List.countP_cons, Tree.kind_node]
  exact Nat.add_comm _ _

private theorem isStatement_of_isBare {kind : NodeKind} :
    isBare kind = true → kind.isStatement = false := by
  cases kind <;> decide

theorem Bare.statementCount (bare : Bare tree) : tree.statementCount = 0 := by
  rw [Tree.statementCount, List.countP_eq_zero]
  intro node member
  simp [isStatement_of_isBare (bare node (Tree.mem_nodes.mp member))]

end StatementsIn

/-! ## Expressions -/

section Expressions

variable {context : Context}

@[simp]
theorem wordLeaf_statementCount (token : Token) (number : Nat) :
    (wordLeaf token number).1.statementCount = 0 :=
  (Leaf.word token number).bare.statementCount

private theorem literalLeaf_statementCount (token : Token) (number : Nat) :
    (literalLeaf token number).1.statementCount = 0 := by
  obtain ⟨line, kind, value⟩ := token
  cases kind <;> rfl

private theorem statementsIn_moreArguments {more : List (Comma × Expression)}
    (each : ∀ pair ∈ more, ∀ number, (pair.2.toTree number).1.statementCount = 0) (number : Nat) :
    statementsIn (moreArgumentTrees more [] number).1 = 0 := by
  induction more generalizing number with
  | nil => simp [moreArgumentTrees]
  | cons pair more ih =>
    rw [List.forall_mem_cons] at each
    rw [moreArgumentTrees_cons]
    simp [each.1, ih each.2]

private theorem statementCount_expression {e : Expression}
    (operand : ∀ number, (e.operandTree number).1.statementCount = 0) (number : Nat) :
    (e.toTree number).1.statementCount = 0 := by
  simp [Expression.toTree, operand, NodeKind.isStatement]

private theorem statementCount_expressions :
    (∀ (e : Expression) number, (e.operandTree number).1.statementCount = 0) ∧
    (∀ (t : Term) number, (t.toTree number).1.statementCount = 0) ∧
    (∀ (c : Call) number, (c.toTree number).1.statementCount = 0) ∧
    (∀ (a : Arguments) number, (a.toTree number).1.statementCount = 0) := by
  apply Expression.induction
  case term =>
    intro t ih number
    rw [Expression.operandTree]
    exact ih number
  case listed =>
    intro first more one each number
    have rest := statementsIn_moreArguments fun pair member =>
      statementCount_expression (each pair member)
    rw [Arguments.toTree_listed]
    simp [statementCount_expression one, rest, NodeKind.isStatement]
  case literal =>
    intro value number
    simp [Term.toTree, literalLeaf_statementCount, NodeKind.isStatement]
  all_goals
    intros
    simp_all [Expression.operandTree, Term.toTree, Call.toTree, Arguments.toTree,
      statementCount_expression, NodeKind.isStatement]

def Context.commenting (comments : Bool) (context : Context) : Context := { context with comments }

private theorem code_commenting_moreArguments {comments : Bool} {more : List (Comma × Expression)}
    (each : ∀ pair ∈ more, pair.2.code (context.commenting comments) = pair.2.code context) :
    moreArgumentCode (context.commenting comments) more = moreArgumentCode context more := by
  induction more with
  | nil => rfl
  | cons pair more ih =>
    rw [List.forall_mem_cons] at each
    rw [moreArgumentCode, moreArgumentCode, each.1, ih each.2]

private theorem code_commenting (comments : Bool) :
    (∀ e : Expression, e.code (context.commenting comments) = e.code context) ∧
    (∀ t : Term, t.code (context.commenting comments) = t.code context) ∧
    (∀ c : Call, c.code (context.commenting comments) = c.code context) ∧
    (∀ a : Arguments, a.code (context.commenting comments) = a.code context) := by
  have resolve (name : String) :
      (context.commenting comments).resolve name = context.resolve name := rfl
  have load (name : Token) : (context.commenting comments).load name = context.load name := rfl
  apply Expression.induction
  case listed =>
    intro first more one each
    rw [Arguments.code, Arguments.code, one, code_commenting_moreArguments each]
  case qualified =>
    intro qualifier dot name opening arguments closing ih
    rw [Call.code, Call.code, ih, resolve]
    rfl
  all_goals
    intros
    simp_all [Expression.code, Term.code, Call.code, Arguments.code, Context.commenting]

@[simp]
private theorem Expression.statementCount_toTree (e : Expression) (number : Nat) :
    (e.toTree number).1.statementCount = 0 :=
  statementCount_expression (statementCount_expressions.1 e) number

@[simp]
private theorem Call.statementCount_toTree (c : Call) (number : Nat) :
    (c.toTree number).1.statementCount = 0 :=
  statementCount_expressions.2.2.1 c number

private theorem Expression.marked (e : Expression) :
    Marked 0 (e.code (context.commenting false)) (e.code (context.commenting true)) := by
  rw [(code_commenting false).1, (code_commenting true).1]
  exact .straight e.straight_code

private theorem Call.marked (c : Call) :
    Marked 0 (c.code (context.commenting false)) (c.code (context.commenting true)) := by
  rw [(code_commenting false).2.2.1, (code_commenting true).2.2.1]
  exact .straight c.straight_code

end Expressions

/-! ## Statements -/

section Statements

variable {context : Context}

private abbrev MarkedFor (context : Context) (count : Nat) (code : Context → Code) : Prop :=
  Marked count (code (context.commenting false)) (code (context.commenting true))

private theorem marked_statementTrees {statements : List Statement}
    (each : ∀ s ∈ statements, ∀ place number,
      MarkedFor context (s.toTree place).1.statementCount (Statement.code · number s))
    (place number : Nat) :
    MarkedFor context (statementsIn (statementTrees statements [] place).1)
      (statementCode · number statements) := by
  induction statements generalizing place number with
  | nil => exact ⟨rfl, by simp [statementCode, statementTrees]⟩
  | cons s statements ih =>
    rw [List.forall_mem_cons] at each
    rw [MarkedFor, statementTrees_cons, statementsIn_cons, statementCode, statementCode]
    exact (each.1 place number).append (ih each.2 _ _)

private theorem marked_statements :
    (∀ (s : Statement) place number,
      MarkedFor context (s.toTree place).1.statementCount (Statement.code · number s)) ∧
    (∀ (b : Block) place number,
      MarkedFor context (statementsIn (b.toTrees place).1) (Block.code · number b)) := by
  -- The tree and the labels are numbered apart: neither count depends on where they start.
  apply Statement.induction
  case assign =>
    intro keyword target equals value semicolon place number
    have store : Marked 0 ((context.commenting false).store target.val)
      ((context.commenting true).store target.val) := .straight (straight_store target.val)
    rw [MarkedFor, Statement.code, Statement.code]
    refine ((Marked.marker "let").append (value.marked.append store)).of_eq ?_
    simp [Statement.toTree, NodeKind.isStatement]
  case assignElement =>
    intro keyword array opening index closing equals value semicolon place number
    have load : Marked 0 ((context.commenting false).load array.val)
      ((context.commenting true).load array.val) := .straight (straight_load array.val)
    rw [MarkedFor, Statement.code, Statement.code]
    refine ((Marked.marker "let").append ((((load.append index.marked).append
      (.silent (by simp [Instruction.isComment]))).append value.marked).append
      (.silent (by simp [Instruction.isComment])))).of_eq ?_
    simp [Statement.toTree, NodeKind.isStatement]
  case ifThen =>
    intro keyword opening condition closing body ih place number
    have inner := ih (place + 1 + 1 + 1 + condition.nodes + 1) (number + 4 + condition.nodes)
    rw [MarkedFor, Statement.code, Statement.code]
    refine ((((((Marked.marker "if").append condition.marked).append (.silent ?_)).append
      inner).append (.silent ?_)).append (.silent ?_)).of_eq ?_
    case refine_4 => simp [Statement.toTree, NodeKind.isStatement]
    all_goals simp [Instruction.isComment]
  case ifElse =>
    intro keyword opening condition closing body otherwise alternative ih ih' place number
    have inner := ih (place + 1 + 1 + 1 + condition.nodes + 1) (number + 4 + condition.nodes)
    have other := ih' (place + 1 + 1 + 1 + condition.nodes + 1 + body.nodes + 1)
      (number + 5 + condition.nodes + body.nodes)
    rw [MarkedFor, Statement.code, Statement.code]
    refine (((((((Marked.marker "if").append condition.marked).append (.silent ?_)).append
      inner).append (.silent ?_)).append (other.append (.silent ?_))).append (.silent ?_)).of_eq ?_
    case refine_5 => simp [Statement.toTree, NodeKind.isStatement, Nat.add_assoc 1]
    all_goals simp [Instruction.isComment]
  case loop =>
    intro keyword opening condition closing body ih place number
    have inner := ih (place + 1 + 1 + 1 + condition.nodes + 1) (number + 4 + condition.nodes)
    rw [MarkedFor, Statement.code, Statement.code]
    refine ((((((Marked.marker "while").append (.silent ?_)).append condition.marked).append
      (.silent ?_)).append inner).append (.silent ?_)).of_eq ?_
    case refine_4 => simp [Statement.toTree, NodeKind.isStatement]
    all_goals simp [Instruction.isComment]
  case perform =>
    intro keyword call semicolon place number
    rw [MarkedFor, Statement.code, Statement.code]
    refine (((Marked.marker "do").append call.marked).append
      (.silent (by simp [Instruction.isComment]))).of_eq ?_
    simp [Statement.toTree, NodeKind.isStatement]
  case returnNothing =>
    intro keyword semicolon place number
    rw [MarkedFor, Statement.code, Statement.code]
    refine (((Marked.marker "return").append (.silent ?_)).append (.silent ?_)).of_eq ?_
    case refine_3 => simp [Statement.toTree, NodeKind.isStatement]
    all_goals simp [Instruction.isComment]
  case returnValue =>
    intro keyword value semicolon place number
    rw [MarkedFor, Statement.code, Statement.code]
    refine (((Marked.marker "return").append value.marked).append
      (.silent (by simp [Instruction.isComment]))).of_eq ?_
    simp [Statement.toTree, NodeKind.isStatement]
  case braced =>
    intro opening statements closing each place number
    rw [MarkedFor, Block.code, Block.code]
    refine (marked_statementTrees each (place + 1 + 1) (number + 2)).of_eq ?_
    simp [Block.toTrees, NodeKind.isStatement]

end Statements

/-! ## Units -/

section Units

private theorem statementCount_body (body : SubroutineBody) (place : Nat) :
    (body.toTree place).1.statementCount = statementsIn (statementTrees body.statements []
      (place + 2 + nodesOf LocalVariables.nodes body.locals + 1)).1 := by
  have locals : statementsIn (treesOf LocalVariables.toTree body.locals [] (place + 2)).1 = 0 :=
    statementsIn_eq_zero (treesOf_forall
      (fun declaration _ number => (declaration.bare number).statementCount) _)
  rw [body.toTree_eq]
  simp [locals, statementsTree, NodeKind.isStatement]

private theorem marked_body (context : Context) (body : SubroutineBody) (place number : Nat) :
    MarkedFor context (1 + (body.toTree place).1.statementCount)
      (SubroutineBody.code · number body) := by
  have opening : Marked 0 (prologue (context.commenting false).scope context.subroutine.kind)
    (prologue (context.commenting true).scope context.subroutine.kind) :=
    .straight (straight_prologue _ _)
  have statements (place number : Nat) :
      MarkedFor context (statementsIn (statementTrees body.statements [] place).1)
        (statementCode · number body.statements) :=
    marked_statementTrees (fun s _ => marked_statements.1 s) place number
  have last : Marked 0 (body.lastReturn (context.commenting false))
      (body.lastReturn (context.commenting true)) := by
    refine .silent ?_
    rw [SubroutineBody.lastReturn]
    split <;> simp [Instruction.isComment]
  rw [MarkedFor, body.code_parts, body.code_parts, statementCount_body]
  have inner := (opening.append (statements
    (place + 2 + nodesOf LocalVariables.nodes body.locals + 1)
    (number + 3 + nodesOf LocalVariables.nodes body.locals))).append last
  refine ((Marked.marker context.subroutine.kind.name).append (inner.cons rfl)).of_eq ?_
  rw [Nat.zero_add, Nat.add_zero]

private theorem statementCount_subroutine (s : SubroutineDeclaration) (place : Nat) :
    (s.toTree place).1.statementCount =
      (s.body.toTree (place + 6 + s.parameters.nodes)).1.statementCount := by
  rw [s.toTree_eq]
  simp [(s.returnType.leaf (place + 2)).bare.statementCount,
    (s.parameters.bare (place + 5)).statementCount, NodeKind.isStatement]

private theorem marked_subroutines (declaration : ClassDeclaration)
    (subroutines : List SubroutineDeclaration) (place number : Nat) :
    Marked (subroutines.length +
        statementsIn (treesOf SubroutineDeclaration.toTree subroutines [] place).1)
      (declaration.subroutineCode false number subroutines)
      (declaration.subroutineCode true number subroutines) := by
  induction subroutines generalizing place number with
  | nil => exact ⟨rfl, rfl⟩
  | cons s subroutines ih =>
    have first := marked_body (declaration.context false s) s.body
      (place + 6 + s.parameters.nodes) (number + 6 + s.parameters.nodes)
    rw [← statementCount_subroutine] at first
    rw [treesOf_cons, ClassDeclaration.subroutineCode, ClassDeclaration.subroutineCode]
    refine (Marked.append first (ih (s.toTree place).2 (number + s.nodes))).of_eq ?_
    rw [statementsIn_cons, List.length_cons]
    omega

theorem marked_unit (declaration : ClassDeclaration) :
    Marked (2 + declaration.subroutines.length +
        (Phrase.classDeclaration declaration).toTree.statementCount)
      (declaration.code false) (declaration.code true) := by
  obtain ⟨after, tree⟩ := unit_toTree declaration
  have head : statementsIn declaration.headTrees = 0 :=
    statementsIn_eq_zero fun tree member => (headTrees_bare declaration tree member).statementCount
  have inner := marked_subroutines declaration declaration.subroutines declaration.firstNumber
    declaration.firstNumber
  have whole := ((Marked.marker declaration.className).append inner).append
    (.marker ("~" ++ declaration.className))
  have within : (Phrase.classDeclaration declaration).toTree.statementCount =
      statementsIn declaration.subroutineTrees := by
    rw [tree]
    simp [head, NodeKind.isStatement]
  refine whole.of_eq ?_
  rw [within, ClassDeclaration.subroutineTrees]
  omega

end Units

/-! ## Lines -/

section Lines

/-- Whether a line begins like that of a comment. -/
def isMarkerLine (line : List Char) : Bool := ['/', '/'].isPrefixOf line

/-- A text without the lines that begin like comments. -/
def withoutMarkers (text : String) : String :=
  String.ofList (['\n'].intercalate
    ((text.toList.splitOn '\n').filter fun line => !isMarkerLine line))

def Code.lines (code : Code) : List (List Char) := code.map (·.text.toList) ++ [[]]

theorem Code.text_eq_lines (code : Code) : code.text.toList = ['\n'].intercalate code.lines := by
  rw [Code.text, String.toList_join, Code.lines]
  induction code with
  | nil => rfl
  | cons instruction code ih =>
    rw [List.map_cons, List.flatMap_cons, ih, List.map_cons, List.cons_append,
      List.intercalate_cons_of_ne_nil (by simp), String.toList_append]
    rfl

theorem isMarkerLine_text (instruction : Instruction) :
    isMarkerLine instruction.text.toList = instruction.isComment := by
  cases instruction with
  | arithmetic command => cases command <;> rfl
  | _ => simp [isMarkerLine, Instruction.text, Instruction.isComment, List.isPrefixOf]

theorem Code.lines_plain (code : Code) :
    code.plain.lines = code.lines.filter fun line => !isMarkerLine line := by
  rw [lines, lines, plain, List.filter_append, List.filter_map]
  simp only [Function.comp_def, isMarkerLine_text]
  rfl

theorem Instruction.not_mem_break {instruction : Instruction}
    (unbroken : ∀ name ∈ instruction.name?, Unbroken name) : '\n' ∉ instruction.text.toList := by
  have digits (n : Nat) : '\n' ∉ Nat.toDigits 10 n :=
    Nat.toList_repr ▸ (unbroken_repr n).not_mem (by decide)
  cases instruction with
  | push segment index => cases segment <;> simp [text, Segment.name, digits]
  | pop segment index => cases segment <;> simp [text, Segment.name, digits]
  | arithmetic command => cases command <;> decide
  | ret => decide
  | _ =>
    have name := (unbroken _ rfl).not_mem (by decide : isBlank '\n' = true)
    simp [text, name, digits]

theorem Code.splitOn_text {code : Code} (worded : Worded code) :
    code.text.toList.splitOn '\n' = code.lines := by
  rw [code.text_eq_lines]
  refine List.splitOn_intercalate _ (fun line member => ?_) (by simp [lines])
  rcases List.mem_append.mp member with inside | last
  · obtain ⟨instruction, held, rfl⟩ := List.mem_map.mp inside
    exact Instruction.not_mem_break (worded instruction held)
  · simp [List.mem_singleton.mp last]

theorem Code.text_plain {code : Code} (worded : Worded code) :
    code.plain.text = withoutMarkers code.text := by
  rw [withoutMarkers, splitOn_text worded, ← lines_plain, ← text_eq_lines, String.ofList_toList]

end Lines

section Texts

/-- Markers carry no meaning: all that they change is the comments in the code and the lines that
begin with two slashes in its text, and there is one for each end of the class, for each subroutine
and for each statement. -/
theorem markers_carry_no_meaning (source : String) :
    compile false source = (compile true source).map Code.plain ∧
    compileToText false source = (compileToText true source).map withoutMarkers ∧
    ∀ code, compile true source = .ok code →
      ∃ declaration, parse .classDeclaration (items source.toList) =
          .ok (.classDeclaration declaration) ∧
        code.countP Instruction.isComment = 2 + declaration.subroutines.length +
          (Phrase.classDeclaration declaration).toTree.statementCount := by
  cases read : parse .classDeclaration (items source.toList) with
  | error e =>
    have fails (comments : Bool) : compile comments source = .error e := by
      rw [compile, read]
      rfl
    simp [compileToText, fails, Except.map]
  | ok phrase =>
    obtain ⟨declaration, rfl, formed, plain⟩ := compile_unit false read
    obtain ⟨same, equal, -, commented⟩ := compile_unit true read
    cases equal
    have marked := marked_unit declaration
    have worded := declaration.worded_code formed true
    rw [compileToText, compileToText, plain, commented]
    cases declaration.faults with
    | cons e faults => simp [settle, Except.map]
    | nil =>
      refine ⟨congrArg _ marked.removed.symm, ?_, fun code same => ⟨declaration, rfl, ?_⟩⟩
      · simp only [settle_nil, Except.map, ← marked.removed, Code.text_plain worded]
      · cases same
        exact marked.counted

private def doorText : String :=
  "class Door \x7b field int turns; " ++
    "method void open() \x7b if (turns = 2) \x7b let turns = 0; \x7d " ++
      "else \x7b while (turns > 0) \x7b do close(); \x7d \x7d return; \x7d " ++
    "method int close() \x7b return turns; \x7d \x7d"

theorem markers_carry_no_meaning_door : ∃ declaration code,
    parse .classDeclaration (items doorText.toList) = .ok (.classDeclaration declaration) ∧
    compile true doorText = .ok code ∧ compile false doorText = .ok code.plain ∧
    code.countP Instruction.isComment = 10 ∧ declaration.subroutines.length = 2 ∧
    (Phrase.classDeclaration declaration).toTree.statementCount = 6 := by
  have found : (faultlessUnit? doorText).any (fun d => d.subroutines.length == 2 &&
      (d.code true).countP Instruction.isComment == 10) = true := by decide +kernel
  obtain ⟨declaration, unit, counts⟩ := Option.any_eq_true _ _ |>.mp found
  obtain ⟨two, ten⟩ : declaration.subroutines.length = 2 ∧
      (declaration.code true).countP Instruction.isComment = 10 := by simpa using counts
  obtain ⟨read, compiles⟩ := compile_of_faultlessUnit? true unit
  obtain ⟨same, -, counted⟩ := markers_carry_no_meaning doorText
  obtain ⟨other, read', marks⟩ := counted _ compiles
  obtain rfl : declaration = other := by simpa using read.symm.trans read'
  exact ⟨declaration, _, read, compiles, by rw [same, compiles]; rfl, ten, two, by omega⟩

end Texts

end JackCompiler
