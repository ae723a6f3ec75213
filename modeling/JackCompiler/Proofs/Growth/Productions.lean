import JackCompiler.Proofs.Growth.Mirroring

namespace JackCompiler

open JackCompiler.Numbering (single both many under taking)

theorem moreArgumentTrees_eq (more : List (Comma × Expression)) (done : List Tree) :
    moreArgumentTrees more done = both (return done.reverse)
      (many (fun pair => both (single (wordLeaf pair.1.val)) (single pair.2.toTree)) more) := by
  refine Numbering.collects (fun _ => ?_) (fun pair more done => ?_) more done
  · rw [moreArgumentTrees]
  · rw [moreArgumentTrees]
    rfl

theorem statementTrees_eq (statements : List Statement) (done : List Tree) :
    statementTrees statements done =
      both (return done.reverse) (many (fun s => single s.toTree) statements) := by
  refine Numbering.collects (fun _ => ?_) (fun s statements done => ?_) statements done
  · rw [statementTrees]
  · rw [statementTrees]
    rfl

theorem treesOf_eq {α : Type} (toTree : α → Numbering Tree) (phrases : List α) (done : List Tree) :
    treesOf toTree phrases done =
      both (return done.reverse) (many (fun phrase => single (toTree phrase)) phrases) :=
  Numbering.collects (fun _ => rfl) (fun _ _ _ => rfl) phrases done

theorem moreNameTrees_eq (more : List (Comma × Name)) (done : List Tree) :
    moreNameTrees more done = both (return done.reverse)
      (many (fun pair => both (single (wordLeaf pair.1.val)) (single (nameLeaf pair.2.val)))
        more) :=
  Numbering.collects (fun _ => rfl) (fun _ _ _ => rfl) more done

theorem moreParameterTrees_eq (more : List (Comma × Parameter)) (done : List Tree) :
    moreParameterTrees more done = both (return done.reverse)
      (many (fun pair => both (single (wordLeaf pair.1.val))
        (both (single pair.2.type.toTree) (single (nameLeaf pair.2.name.val)))) more) :=
  Numbering.collects (fun _ => rfl) (fun _ _ _ => rfl) more done

section Expressions

variable {depth : Nat} {expression term : Nat → Growing Nat} {reader : Parse Expression}
  {operand : Parse Term}

theorem expressionList_makes (makes : Makes depth expression reader Expression.toTree) :
    Makes depth (Growing.expressionList expression) (Parse.argumentsOf reader)
      Arguments.toTree := by
  refine .within fun node base _ => .branch ?_ (.finish ?_)
  · refine .step makes.grows fun first _ => .last makes.grows.afterCommas fun more => ?_
    rw [Arguments.toTree]
    simp only [moreArgumentTrees_eq]
    rfl
  · rw [Arguments.toTree]
    rfl

inductive CallRest
  | bare (opening : Word ["("]) (arguments : Arguments) (closing : Word [")"])
  | qualified (dot : Word ["."]) (name : MemberName) (opening : Word ["("])
      (arguments : Arguments) (closing : Word [")"])

def CallRest.call (name : Name) : CallRest → Call
  | .bare opening arguments closing => .bare name opening arguments closing
  | .qualified dot member opening arguments closing =>
    .qualified name dot member opening arguments closing

def CallRest.trees : CallRest → Numbering (List Tree)
  | .bare opening arguments closing =>
    both (both (single (wordLeaf opening.val)) (single arguments.toTree))
      (single (wordLeaf closing.val))
  | .qualified dot name opening arguments closing =>
    both (both (both (both (single (wordLeaf dot.val)) (single (nameLeaf name.val)))
      (single (wordLeaf opening.val))) (single arguments.toTree)) (single (wordLeaf closing.val))

theorem CallRest.toTree_call (name : Name) (rest : CallRest) :
    (rest.call name).toTree = taking .subroutineCall (nameLeaf name.val) rest.trees := by
  cases rest <;> rw [call, Call.toTree] <;> rfl

def Parse.callRest (expression : Parse Expression) : Parse CallRest := do
  match ← Parse.accept (Token.isOneOf ["."]) with
  | some dot =>
    let member ← Parse.memberName
    let opening ← Parse.expect ["("]
    let arguments ← Parse.argumentsOf expression
    return .qualified dot member opening arguments (← Parse.expect [")"])
  | none =>
    let opening ← Parse.expect ["("]
    let arguments ← Parse.argumentsOf expression
    return .bare opening arguments (← Parse.expect [")"])

theorem Parse.callAfter_eq (expression : Parse Expression) (name : Name) :
    Parse.callAfter expression name =
      Parse.callRest expression >>= fun rest => pure (rest.call name) := by
  rw [Parse.callAfter, Parse.callRest, bind_assoc]
  congr 1
  funext dot
  cases dot <;> simp [CallRest.call]

theorem callRest_grows (makes : Makes depth expression reader Expression.toTree) :
    Grows depth (Growing.callRest expression) (Parse.callRest reader) CallRest.trees := by
  refine .of_continues fun node base => .accept (fun dot => ?_) ?_
  · refine .step (memberName_makes depth).grows fun member _ => ?_
    refine .step (expect_makes depth ["("]).grows fun opening _ => ?_
    refine .step (expressionList_makes makes).grows fun arguments _ => ?_
    exact .last (expect_makes depth [")"]).grows fun closing => rfl
  · refine .step (expect_makes depth ["("]).grows fun opening _ => ?_
    refine .step (expressionList_makes makes).grows fun arguments _ => ?_
    exact .last (expect_makes depth [")"]).grows fun closing => rfl

def indexTrees (index : Word ["["] × Expression × Word ["]"]) : Numbering (List Tree) :=
  both (both (single (wordLeaf index.1.val)) (single index.2.1.toTree))
    (single (wordLeaf index.2.2.val))

def Parse.index (expression : Parse Expression) :
    Parse (Word ["["] × Expression × Word ["]"]) := do
  let opening ← Parse.expect ["["]
  let index ← expression
  return (opening, index, ← Parse.expect ["]"])

theorem index_grows (makes : Makes depth expression reader Expression.toTree) :
    Grows depth (Growing.index expression) (Parse.index reader) indexTrees := by
  refine .of_continues fun node base => ?_
  refine .step (expect_makes depth ["["]).grows fun opening _ => ?_
  refine .step makes.grows fun index _ => ?_
  exact .last (expect_makes depth ["]"]).grows fun closing => rfl

theorem discard_eq {α : Type} (work : Growing α) : discard work = work >>= fun _ => pure () := rfl

theorem Growing.consume_of_isLiteral {state : Growth}
    (literal : state.cursor.token.isLiteral = true) (parent : Nat) :
    Growing.consume parent state = Growing.terminal parent
      (match state.cursor.token.kind with
      | .integerConstant => .integerConstant
      | .stringConstant => .stringConstant
      | _ => .keyword) state := by
  rw [Growing.consume, Growing.current_bind]
  rw [Token.isLiteral] at literal
  cases kind : state.cursor.token.kind <;> simp only [kind] at literal <;>
    first | rfl | cases literal

theorem Token.ne_eof_of_isLiteral {token : Token} (literal : token.isLiteral = true) :
    token.kind ≠ .eof := by
  intro kind
  simp [Token.isLiteral, kind] at literal

theorem Plants.unary {before middle : Forest} {node : Nat} {token : Token}
    {operand : Numbering Tree} (bare : before.children node = [])
    (done : Plants (Numbering.both (single (JackCompiler.leaf .unaryOp token)) (single operand))
      before middle node) :
    Plants
      (single do
        let number ← nextNumber
        return .node number .unaryOp (some token) [← operand])
      before (middle.adopt before.size (operand (before.size + 1)).1.number) node := by
  obtain ⟨planted, size⟩ := done
  have beside : before.Planted middle node ([.node before.size .unaryOp (some token) []] ++
      (operand (before.size + 1)).1 :: []) := planted
  have above : before.Planted _ node ([] ++ .node before.size .unaryOp (some token) ([] ++ _) ::
      []) := beside.adopt bare rfl
  exact ⟨above, (Forest.size_adopt ..).trans size⟩

theorem termAfter_continues {node : Nat} {base : Forest}
    (makes : Makes depth expression reader Expression.toTree) (bare : base.children node = [])
    (name : Name) :
    Continues depth node base (both (return []) (single (nameLeaf name.val)))
      (do
        if (← Growing.current).isOneOf [".", "("] then
          discard (Growing.subroutineCall expression node base.size)
        else if (← Growing.current).isOneOf ["["] then
          discard (Growing.arrayAccess expression node base.size))
      (Parse.termAfter reader name) fun x row => under .term row = x.toTree := by
  refine .branch ?_ (.ahead ?_ (.finish ?_))
  · rw [Parse.callAfter_eq, bind_assoc]
    refine .behind bare (callRest_grows makes) fun rest _ => .finish ?_
    rw [Term.toTree, CallRest.toTree_call]
    rfl
  · have read : (do
        let opening ← Parse.expect ["["]
        let index ← reader
        return .element name opening index (← Parse.expect ["]"])) =
          Parse.index reader >>= fun index =>
            pure (Term.element name index.1 index.2.1 index.2.2) := by
      simp [Parse.index]
    refine read ▸ .behind bare (index_grows makes) fun index _ => .finish ?_
    rw [Term.toTree]
    rfl
  · rw [Term.toTree]
    rfl

theorem unary_continues {node : Nat} {base : Forest} (deeper : Makes depth term operand Term.toTree)
    (bare : base.children node = []) (operator : SymbolWord unaryOperators) :
    Continues depth node base (single (leaf .unaryOp operator.val))
      (do
        let argument ← term node
        Growing.pivot base.size [argument])
      (do
        let argument ← operand
        return Term.unary operator argument) fun x row => under .term row = x.toTree := by
  -- The operand of a unary operator is read beside it and then taken in.
  intro state level plants
  refine (deeper node state plants.parent_lt level).bind fun x argument after made => ?_
  have size : state.forest.size = base.size + 1 := plants.2
  have planted := Plants.unary bare (plants.both made.plants)
  rw [← size, made.root, ← made.first] at planted
  refine ⟨(), _, rfl, rfl, made.level, _, ?_, planted⟩
  change under .term _ = (Term.unary operator x).toTree
  rw [Term.toTree]
  rfl

theorem operand_continues {node : Nat} {base : Forest}
    (makes : Makes depth expression reader Expression.toTree)
    (deeper : Makes depth term operand Term.toTree) (bare : base.children node = []) :
    Continues depth node base (return []) (Growing.operand expression term node)
      (Parse.termOf reader operand) fun x row => under .term row = x.toTree := by
  intro state level plants
  have size : state.forest.size = base.size := plants.2
  rw [Growing.operand, Growing.current_bind, Parse.termOf]
  refine .alternative (fun literal => ?_) fun _ => .alternative (fun name => ?_) fun _ =>
    .alternative (fun opening => ?_) fun _ => .alternative (fun operator => ?_) fun _ => rfl
  · rw [discard_eq, Growing.bind_at (Growing.consume_of_isLiteral literal node)]
    refine Continues.taken level plants literal (Token.ne_eof_of_isLiteral literal) (.finish ?_)
    rw [Term.toTree]
    rfl
  · have leaf : Growing.identifier node state = Growing.terminal node .identifier state := by
      rw [Growing.identifier, Growing.current_bind, if_pos name]
    rw [Growing.bind_at leaf]
    refine Continues.taken level plants name (by simp [Token.kind_of_isName name]) ?_
    rw [size]
    exact termAfter_continues makes bare ⟨_, name⟩
  · have word := Token.isOneOf_of_isSymbolOf opening
    rw [Growing.bind_at (Growing.consume_of_isOneOf word node)]
    refine Continues.taken level plants opening (Token.ne_eof_of_isOneOf word)
      (.step makes.grows fun inner _ => .discard (.last (expect_makes depth [")"]).grows ?_))
    intro closing
    rw [Term.toTree]
    rfl
  · have real := Token.ne_eof_of_isOneOf (Token.isOneOf_of_isSymbolOf operator)
    refine Continues.taken level plants operator real ?_
    rw [size]
    exact unary_continues deeper bare ⟨_, operator⟩

theorem termOf_makes (makes : Makes (depth + 1) expression reader Expression.toTree)
    (deeper : Makes (depth + 1) term operand Term.toTree) (room : depth < maxNesting) :
    Makes depth (Growing.termOf expression term) (Parse.termOf reader operand) Term.toTree :=
  .nested (.within fun _ _ bare => operand_continues makes deeper bare) room _

end Expressions

/-- The operators after an operand, in a state in which it is all that stands below the node. -/
def Folds (depth levels : Nat) : Prop :=
  ∀ (left : Expression) (base : Forest) (node folds : Nat) (state : Growth),
    base.children node = [] → state.depth = depth →
    Plants (single left.operandTree) base state.forest node →
    Mirrors
      (Growing.operators levels node (left.operandTree base.size).1.number folds state)
      (Parse.operators (maxNesting - depth) left state.cursor) fun whole entered after =>
        folds ≤ entered ∧ after.depth = depth + (entered - folds) ∧
          Plants (single whole.operandTree) base after.forest node

theorem expressionOf_makes {depth levels : Nat}
    (makes : Makes depth (Growing.term levels) (Parse.term (maxNesting - depth)) Term.toTree)
    (folds : Folds depth levels) :
    Makes depth (Growing.expression levels) (Parse.expression (maxNesting - depth))
      Expression.toTree := by
  refine .within fun node base bare state level plants => ?_
  refine (makes node state plants.parent_lt level).bind fun left number after made => ?_
  have first : left.toTree = (Expression.term left).operandTree := by rw [Expression.operandTree]
  have size : state.forest.size = base.size := plants.2
  have planted := plants.both made.plants
  have root := made.root
  rw [Numbering.none_both, first] at planted
  rw [size, first] at root
  rw [made.first, size, ← root]
  refine (folds (.term left) base node 0 after bare made.level planted).andThen
    fun whole entered last => ?_
  rintro ⟨-, entered, planted⟩
  refine ⟨(), _, rfl, rfl, ?_, _, ?_, planted⟩
  · simp [entered]
  · change under .expression (single whole.operandTree) = whole.toTree
    rw [Expression.toTree]
    rfl

theorem Plants.binary {before middle : Forest} {node : Nat} {token : Token}
    {left right : Numbering Tree} (bare : before.children node = [])
    (done : Plants (Numbering.both (Numbering.both (single left)
      (single (JackCompiler.leaf .binaryOp token))) (single right)) before middle node) :
    Plants
      (single do
        let left ← left
        let number ← nextNumber
        return .node number .binaryOp (some token) [left, ← right])
      before
      (middle.pivot (left before.size).2
        [(left before.size).1.number, (right ((left before.size).2 + 1)).1.number]) node := by
  obtain ⟨planted, size⟩ := done
  have beside : before.Planted middle node ([] ++ (left before.size).1 ::
      [.node (left before.size).2 .binaryOp (some token) [],
        (right ((left before.size).2 + 1)).1]) := planted
  have first : before.Planted _ node ([] ++ .node (left before.size).2 .binaryOp (some token)
      ([] ++ [(left before.size).1]) :: [(right ((left before.size).2 + 1)).1]) :=
    beside.adopt bare rfl
  have beside' : before.Planted _ node ([.node (left before.size).2 .binaryOp (some token)
      [(left before.size).1]] ++ (right ((left before.size).2 + 1)).1 :: []) := first
  have second : before.Planted _ node ([] ++ .node (left before.size).2 .binaryOp (some token)
      ([(left before.size).1] ++ [(right ((left before.size).2 + 1)).1]) :: []) :=
    beside'.adopt bare rfl
  exact ⟨second, (Forest.size_adopt ..).trans ((Forest.size_adopt ..).trans size)⟩

section Full

variable {depth : Nat}

theorem term_of_full (full : maxNesting ≤ depth) (levels : Nat) :
    Makes depth (Growing.term levels) (Parse.term (maxNesting - depth)) Term.toTree := by
  -- Where no level is left, a term fails as its reader does.
  rintro parent state there rfl
  rw [Nat.sub_eq_zero_of_le full]
  cases levels with
  | zero => rfl
  | succ levels => exact Growing.nest_bind_of_full full _ _

theorem operators_of_none {state : Growth}
    (none : state.cursor.token.isOneOf binaryOperators = false) (levels node left folds room : Nat)
    (whole : Expression) :
    Growing.operators levels node left folds state = .ok (folds, state) ∧
      Parse.operators room whole state.cursor = .ok (whole, state.cursor) := by
  constructor
  · cases levels <;> rw [Growing.operators, Growing.current_bind, none] <;> rfl
  · cases room <;> rw [Parse.operators] <;>
      exact (Parse.bind_of (Parse.current_of _)).trans (by rw [none]; rfl)

theorem folds_of_full (full : maxNesting ≤ depth) (levels : Nat) : Folds depth levels := by
  rintro left base node folds state bare rfl plants
  rw [Nat.sub_eq_zero_of_le full]
  by_cases one : state.cursor.token.isOneOf binaryOperators = true
  · have read : Parse.operators 0 left state.cursor =
        .error (.syntactic state.cursor.token.line (.nestedTooDeeply .expression)) := by
      rw [Parse.operators]
      exact (Parse.bind_of (Parse.current_of _)).trans (by rw [one]; rfl)
    rw [read]
    cases levels with
    | zero =>
      rw [Growing.operators, Growing.current_bind, one]
      rfl
    | succ levels =>
      rw [Growing.operators, Growing.current_bind, if_pos one]
      exact Growing.nest_bind_of_full full _ _
  · obtain ⟨grown, read⟩ := operators_of_none (Bool.eq_false_iff.mpr one) levels node
      (left.operandTree base.size).1.number folds 0 left
    rw [grown, read]
    exact .ok ⟨le_rfl, by simp, plants⟩

end Full

theorem Growing.operators_succ {state : Growth}
    (one : state.cursor.token.isOneOf binaryOperators = true) (room : state.depth < maxNesting)
    (levels node left folds : Nat) :
    Growing.operators (levels + 1) node left folds state = (do
      let operator ← Growing.terminal node .binaryOp
      let right ← Growing.term levels node
      Growing.pivot operator [left, right]
      Growing.operators levels node operator (folds + 1))
        { state with depth := state.depth + 1 } := by
  -- An operator enters a level before it is taken.
  rw [Growing.operators, Growing.current_bind, if_pos one, Growing.nest_bind room]

theorem Parse.operators_succ {cursor : Cursor}
    (one : cursor.token.isOneOf binaryOperators = true) (room : Nat) (left : Expression) :
    Parse.operators (room + 1) left cursor = (do
      Parse.advance
      let right ← Parse.term room
      Parse.operators room (.binary left ⟨_, one⟩ right)) cursor := by
  rw [Parse.operators, Parse.bind_of (Parse.current_of _), if_pos one, Parse.expect_bind one]

theorem Folds.succ {depth levels room : Nat} (left' : maxNesting - depth = room + 1)
    (term : Makes (depth + 1) (Growing.term levels) (Parse.term room) Term.toTree)
    (folds : Folds (depth + 1) levels) : Folds depth (levels + 1) := by
  have left : maxNesting - (depth + 1) = room := by omega
  rintro whole base node entered state bare rfl plants
  rw [left']
  by_cases one : state.cursor.token.isOneOf binaryOperators = true
  · rw [Growing.operators_succ one (by omega), Parse.operators_succ one]
    refine (Mirrors.terminal { state with depth := state.depth + 1 } (Token.ne_eof_of_isOneOf one)
      node .binaryOp).bind fun _ operator middle => ?_
    rintro ⟨rfl, level, grown⟩
    -- The operator and its right operand are planted beside what was folded so far; only then do
    -- both operands move below the operator.
    have both := plants.both (.leaf plants.parent_lt .binaryOp state.cursor.token)
    rw [← grown] at both
    refine (term node middle both.parent_lt level).bind fun right number after made => ?_
    have size : state.forest.size = (whole.operandTree base.size).2 := plants.2
    have size' : middle.forest.size = (whole.operandTree base.size).2 + 1 := both.2
    have tree : (Expression.binary whole ⟨_, one⟩ right).operandTree = (do
        let left ← whole.operandTree
        let number ← nextNumber
        return .node number .binaryOp (some state.cursor.token) [left, ← right.toTree]) := by
      rw [Expression.operandTree]
    have planted := Plants.binary bare (both.both made.plants)
    rw [← size', made.root, ← made.first, ← size, ← tree] at planted
    have root : ((Expression.binary whole ⟨_, one⟩ right).operandTree base.size).1.number =
        state.forest.size := by
      rw [tree, size]
      rfl
    -- The operator is now the only child of the node, as the next round needs it.
    let forest := after.forest.pivot state.forest.size
      [(whole.operandTree base.size).1.number, number]
    have rest := folds (.binary whole ⟨_, one⟩ right) base node (entered + 1)
      { after with forest } bare made.level planted
    rw [root, left] at rest
    refine rest.mono fun whole all last => ?_
    rintro ⟨more, deeper, planted⟩
    exact ⟨by omega, by omega, planted⟩
  · obtain ⟨grown, read⟩ := operators_of_none (Bool.eq_false_iff.mpr one) (levels + 1) node
      (whole.operandTree base.size).1.number entered (room + 1) whole
    rw [grown, read]
    exact .ok ⟨le_rfl, by simp, plants⟩

theorem terms_make (levels : Nat) :
    ∀ depth, maxNesting - depth ≤ levels →
      Makes depth (Growing.term levels) (Parse.term (maxNesting - depth)) Term.toTree ∧
        Folds depth levels := by
  induction levels with
  | zero =>
    intro depth enough
    have full : maxNesting ≤ depth := by omega
    exact ⟨term_of_full full 0, folds_of_full full 0⟩
  | succ levels ih =>
    intro depth enough
    by_cases full : maxNesting ≤ depth
    · exact ⟨term_of_full full _, folds_of_full full _⟩
    -- What stands in a term and behind an operator is one level further down.
    obtain ⟨term, folds⟩ := ih (depth + 1) (by omega)
    obtain ⟨room, left⟩ : ∃ room, maxNesting - depth = room + 1 :=
      ⟨maxNesting - depth - 1, by omega⟩
    have expression := expressionOf_makes term folds
    rw [show maxNesting - (depth + 1) = room by omega] at term expression
    refine ⟨?_, folds.succ left term⟩
    rw [left, Parse.term_succ]
    exact termOf_makes expression term (by omega)

theorem expression_makes {depth levels : Nat} (enough : maxNesting - depth ≤ levels) :
    Makes depth (Growing.expression levels) (Parse.expression (maxNesting - depth))
      Expression.toTree :=
  let ⟨term, folds⟩ := terms_make levels depth enough
  expressionOf_makes term folds

section Statements

variable {depth : Nat} {expression statements : Nat → Growing Nat} {reader : Parse Expression}
  {run : Parse (List Statement)}

def Parse.assigned (expression : Parse Expression) : Parse (Word ["="] × Expression) := do
  let equals ← Parse.expect ["="]
  return (equals, ← expression)

def assignedTrees (assigned : Word ["="] × Expression) : Numbering (List Tree) :=
  both (single (wordLeaf assigned.1.val)) (single assigned.2.toTree)

theorem assigned_grows (makes : Makes depth expression reader Expression.toTree) :
    Grows depth (Growing.assigned expression) (Parse.assigned reader) assignedTrees :=
  .of_continues fun _ _ => .step (expect_makes depth ["="]).grows fun _ _ =>
    .last makes.grows fun _ => rfl

theorem letStatement_makes (makes : Makes depth expression reader Expression.toTree) :
    Makes depth (Growing.letStatement expression) (Parse.letStatement reader)
      Statement.toTree := by
  refine .within fun node base bare => ?_
  refine .step (expect_makes depth ["let"]).grows fun keyword _ => .named fun target => ?_
  refine .ahead ?_ ?_
  · have element : Grows depth
        (fun node => do
          let _ ← Growing.index expression node
          Growing.assigned expression node)
        (do
          let index ← Parse.index reader
          return (index, ← Parse.assigned reader))
        fun element => both (indexTrees element.1) (assignedTrees element.2) :=
      .of_continues fun _ _ => .step (index_grows makes) fun _ _ =>
        .last (assigned_grows makes) fun _ => rfl
    have read : (do
        let opening ← Parse.expect ["["]
        let index ← reader
        let closing ← Parse.expect ["]"]
        let equals ← Parse.expect ["="]
        let value ← reader
        return Statement.assignElement keyword target opening index closing equals value
          (← Parse.expect [";"])) = (do
        let element ← (do
          let index ← Parse.index reader
          return (index, ← Parse.assigned reader))
        return Statement.assignElement keyword target element.1.1 element.1.2.1 element.1.2.2
          element.2.1 element.2.2 (← Parse.expect [";"])) := by
      simp [Parse.index, Parse.assigned]
    refine read ▸ .behind bare element fun element _ =>
      .last (expect_makes depth [";"]).grows fun semicolon => ?_
    rw [Statement.toTree]
    rfl
  · have read : (do
        let equals ← Parse.expect ["="]
        let value ← reader
        return Statement.assign keyword target equals value (← Parse.expect [";"])) = (do
        let assigned ← Parse.assigned reader
        return Statement.assign keyword target assigned.1 assigned.2 (← Parse.expect [";"])) := by
      simp [Parse.assigned]
    refine read ▸ .behind bare (assigned_grows makes) fun assigned _ =>
      .last (expect_makes depth [";"]).grows fun semicolon => ?_
    rw [Statement.toTree]
    rfl

theorem block_grows (makes : Makes depth statements run statementsTree) :
    Grows depth (Growing.block statements) (Parse.blockOf run) Block.toTrees := by
  refine .of_continues fun node base => ?_
  refine .step (expect_makes depth ["\x7b"]).grows fun opening _ => ?_
  refine .step makes.grows fun inner _ => ?_
  refine .last (expect_makes depth ["\x7d"]).grows fun closing => ?_
  rw [Block.toTrees]
  rfl

theorem ifStatement_makes (makes : Makes depth expression reader Expression.toTree)
    (runs : Makes depth statements run statementsTree) :
    Makes depth (Growing.ifStatement expression statements)
      (Parse.ifStatement reader (Parse.blockOf run)) Statement.toTree := by
  refine .within fun node base _ => ?_
  refine .step (expect_makes depth ["if"]).grows fun keyword _ => ?_
  refine .step (expect_makes depth ["("]).grows fun opening _ => ?_
  refine .step makes.grows fun condition _ => ?_
  refine .step (expect_makes depth [")"]).grows fun closing _ => ?_
  refine .step (block_grows runs) fun body _ => ?_
  refine .accept (fun otherwise => .discard (.last (block_grows runs) fun alternative => ?_))
    (.finish ?_)
  all_goals
    rw [Statement.toTree]
    rfl

theorem whileStatement_makes (makes : Makes depth expression reader Expression.toTree)
    (runs : Makes depth statements run statementsTree) :
    Makes depth (Growing.whileStatement expression statements)
      (Parse.whileStatement reader (Parse.blockOf run)) Statement.toTree := by
  refine .within fun node base _ => ?_
  refine .step (expect_makes depth ["while"]).grows fun keyword _ => ?_
  refine .step (expect_makes depth ["("]).grows fun opening _ => ?_
  refine .step makes.grows fun condition _ => ?_
  refine .step (expect_makes depth [")"]).grows fun closing _ => ?_
  refine .last (block_grows runs) fun body => ?_
  rw [Statement.toTree]
  rfl

theorem doStatement_makes (makes : Makes depth expression reader Expression.toTree) :
    Makes depth (Growing.doStatement expression) (Parse.doStatement reader) Statement.toTree := by
  refine .within fun node base bare => ?_
  refine .step (expect_makes depth ["do"]).grows fun keyword _ => .named fun callee => ?_
  rw [Parse.callAfter_eq, bind_assoc]
  refine .behind bare (callRest_grows makes) fun rest _ =>
    .last (expect_makes depth [";"]).grows fun semicolon => ?_
  rw [Statement.toTree, CallRest.toTree_call]
  rfl

theorem returnStatement_makes (makes : Makes depth expression reader Expression.toTree) :
    Makes depth (Growing.returnStatement expression) (Parse.returnStatement reader)
      Statement.toTree := by
  refine .within fun node base _ => ?_
  refine .step (expect_makes depth ["return"]).grows fun keyword _ => ?_
  refine .accept (fun semicolon => .finish ?_) ?_
  · rw [Statement.toTree]
    rfl
  · refine .step makes.grows fun value _ =>
      .discard (.last (expect_makes depth [";"]).grows fun semicolon => ?_)
    rw [Statement.toTree]
    rfl

theorem statementOf_makes (makes : Makes depth expression reader Expression.toTree)
    (runs : Makes depth statements run statementsTree) :
    Makes depth (Growing.statementOf expression statements)
      (Parse.statementOf reader (Parse.blockOf run)) Statement.toTree := by
  intro parent state there level
  rw [Growing.statementOf, Growing.current_bind, Parse.statementOf,
    Parse.bind_of (Parse.current_of _)]
  generalize state.cursor.token.value = word
  rcases eq_or_ne word "let" with rfl | first
  · exact letStatement_makes makes parent state there level
  rcases eq_or_ne word "do" with rfl | second
  · exact doStatement_makes makes parent state there level
  rcases eq_or_ne word "if" with rfl | third
  · exact ifStatement_makes makes runs parent state there level
  rcases eq_or_ne word "while" with rfl | fourth
  · exact whileStatement_makes makes runs parent state there level
  · simp only
    exact returnStatement_makes makes parent state there level

end Statements

theorem statements_of_full {depth : Nat} (full : maxNesting ≤ depth) (levels : Nat) :
    Makes depth (Growing.statements levels) (Parse.statements (maxNesting - depth))
      statementsTree := by
  rintro parent state there rfl
  rw [Nat.sub_eq_zero_of_le full]
  cases levels with
  | zero => rfl
  | succ levels => exact Growing.nest_bind_of_full full _ _

theorem statements_make (levels : Nat) : ∀ depth, maxNesting - depth ≤ levels →
    Makes depth (Growing.statements levels) (Parse.statements (maxNesting - depth))
      statementsTree := by
  induction levels with
  | zero => exact fun depth enough => statements_of_full (by omega) 0
  | succ levels ih =>
    intro depth enough
    by_cases room : depth < maxNesting
    · have less : maxNesting - (depth + 1) ≤ levels := by omega
      rw [show maxNesting - depth = (maxNesting - (depth + 1)) + 1 by omega]
      have each := statementOf_makes (expression_makes less) (ih (depth + 1) less)
      refine .nested (.within fun node base _ => .whole (each.grows.repeatWhile _) fun list => ?_)
        room _
      change under .statements (many _ list) = _
      rw [statementsTree, statementTrees_eq]
      rfl
    · exact statements_of_full (by omega) _

section Declarations

variable (depth : Nat)

theorem typeName_grows :
    Grows depth Growing.typeName Parse.typeName fun type => single type.toTree :=
  .of_continues fun _ _ => .accept (fun _ => .finish rfl)
    (.discard (.last (identifier_makes depth).grows fun _ => rfl))

theorem returnType_grows :
    Grows depth Growing.returnType Parse.returnType fun type => single type.toTree :=
  .of_continues fun _ _ => .accept (fun _ => .finish rfl)
    (.last (typeName_grows depth) fun _ => rfl)

theorem nameList_grows : Grows depth Growing.nameList Parse.nameList NameList.toTrees := by
  refine .of_continues fun node base => .step (identifier_makes depth).grows fun first _ => ?_
  refine .last (identifier_makes depth).grows.afterCommas fun more => ?_
  simp only [NameList.toTrees, moreNameTrees_eq]
  rfl

theorem parameter_grows : Grows depth Growing.parameter Parse.parameter fun parameter =>
    both (single parameter.type.toTree) (single (nameLeaf parameter.name.val)) :=
  .of_continues fun _ _ => .step (typeName_grows depth) fun _ _ =>
    .last (identifier_makes depth).grows fun _ => rfl

theorem parameterList_makes :
    Makes depth Growing.parameterList Parse.parameters Parameters.toTree := by
  refine .within fun node base _ => .branch ?_ (.finish rfl)
  refine .step (parameter_grows depth) fun first _ => ?_
  refine .last (parameter_grows depth).afterCommas fun more => ?_
  simp only [Parameters.toTree, moreParameterTrees_eq]
  rfl

theorem variableDeclaration_makes {α : Type} {kind : NodeKind} {words : List String}
    {make : Word words → TypeName → NameList → Word [";"] → α} {tree : α → Numbering Tree}
    (drawn : ∀ opening type names semicolon,
      under kind (both (both (both (single (wordLeaf opening.val)) (single type.toTree))
        names.toTrees) (single (wordLeaf semicolon.val))) =
          tree (make opening type names semicolon)) :
    Makes depth (Growing.variableDeclaration kind words)
      (do
        let opening ← Parse.expect words
        let type ← Parse.typeName
        let names ← Parse.nameList
        return make opening type names (← Parse.expect [";"])) tree := by
  refine .within fun node base _ => ?_
  refine .step (expect_makes depth words).grows fun opening _ => ?_
  refine .step (typeName_grows depth) fun type _ => .step (nameList_grows depth) fun names _ => ?_
  exact .last (expect_makes depth [";"]).grows fun semicolon => drawn opening type names semicolon

theorem classVariables_makes :
    Makes depth Growing.classVariables Parse.classVariables ClassVariables.toTree :=
  variableDeclaration_makes depth fun _ _ _ _ => rfl

theorem localVariables_makes :
    Makes depth Growing.localVariables Parse.localVariables LocalVariables.toTree :=
  variableDeclaration_makes depth fun _ _ _ _ => rfl

def Parse.subroutineBodyWithin (room : Nat) : Parse SubroutineBody := do
  let opening ← Parse.expect ["\x7b"]
  let locals ← Parse.repeatWhile (Token.isOneOf ["var"]) Parse.localVariables
  let statements ← Parse.statements room
  return ⟨opening, locals, statements, ← Parse.expect ["\x7d"]⟩

def Parse.subroutineDeclarationWithin (room : Nat) : Parse SubroutineDeclaration := do
  let keyword ← Parse.expect subroutineWords
  let returnType ← Parse.returnType
  let name ← Parse.name
  let opening ← Parse.expect ["("]
  let parameters ← Parse.parameters
  let closing ← Parse.expect [")"]
  return ⟨keyword, returnType, name, opening, parameters, closing,
    ← Parse.subroutineBodyWithin room⟩

def Parse.classDeclarationWithin (room : Nat) : Parse ClassDeclaration := do
  let keyword ← Parse.expect ["class"]
  let name ← Parse.name
  let opening ← Parse.expect ["\x7b"]
  let declarations ← Parse.classDeclarations
  let subroutines ← Parse.repeatWhile (Token.isOneOf subroutineWords)
    (Parse.subroutineDeclarationWithin room)
  return ⟨keyword, name, opening, declarations, subroutines, ← Parse.expect ["\x7d"]⟩

theorem subroutineBody_makes : Makes depth Growing.subroutineBody
    (Parse.subroutineBodyWithin (maxNesting - depth)) SubroutineBody.toTree := by
  refine .within fun node base _ => ?_
  refine .step (expect_makes depth ["\x7b"]).grows fun opening _ => ?_
  refine .step ((localVariables_makes depth).grows.repeatWhile _) fun locals _ => ?_
  refine .step (statements_make maxNesting depth (Nat.sub_le ..)).grows fun list _ => ?_
  refine .last (expect_makes depth ["\x7d"]).grows fun closing => ?_
  simp only [SubroutineBody.toTree, treesOf_eq]
  funext number
  simp [under, both, single]

theorem subroutineDeclaration_makes : Makes depth Growing.subroutineDeclaration
    (Parse.subroutineDeclarationWithin (maxNesting - depth)) SubroutineDeclaration.toTree := by
  refine .within fun node base _ => ?_
  refine .step (expect_makes depth subroutineWords).grows fun keyword _ => ?_
  refine .step (returnType_grows depth) fun type _ => ?_
  refine .step (identifier_makes depth).grows fun name _ => ?_
  refine .step (expect_makes depth ["("]).grows fun opening _ => ?_
  refine .step (parameterList_makes depth).grows fun parameters _ => ?_
  refine .step (expect_makes depth [")"]).grows fun closing _ => ?_
  exact .last (subroutineBody_makes depth).grows fun body => rfl

theorem classDeclarations_grows : Grows depth Growing.classDeclarations Parse.classDeclarations
    (many fun declaration => single declaration.toTree) :=
  (classVariables_makes depth).grows.repeatWhile _

theorem classDeclaration_makes : Makes depth Growing.classDeclaration
    (Parse.classDeclarationWithin (maxNesting - depth)) ClassDeclaration.toTree := by
  refine .within fun node base _ => ?_
  refine .step (expect_makes depth ["class"]).grows fun keyword _ => ?_
  refine .step (identifier_makes depth).grows fun name _ => ?_
  refine .step (expect_makes depth ["\x7b"]).grows fun opening _ => ?_
  refine .step (classDeclarations_grows depth) fun declarations _ => ?_
  refine .step ((subroutineDeclaration_makes depth).grows.repeatWhile _) fun subroutines _ => ?_
  refine .last (expect_makes depth ["\x7d"]).grows fun closing => ?_
  simp only [ClassDeclaration.toTree, treesOf_eq]
  rfl

end Declarations

theorem phrase_grows (entry : EntryPoint) :
    Grows 0 (Growing.phrase entry) (Parse.phrase entry) Phrase.toTrees := by
  have levels : maxNesting - 0 ≤ maxNesting := Nat.sub_le ..
  refine .of_continues fun node base => ?_
  cases entry <;> rw [Growing.phrase, Parse.phrase, map_eq_pure_bind]
  case classDeclaration => exact .discard (.last (classDeclaration_makes 0).grows fun _ => rfl)
  case classVariables =>
    refine .last (classDeclarations_grows 0) fun declarations => ?_
    rw [Phrase.toTrees, treesOf_eq]
    rfl
  case subroutineDeclaration =>
    exact .discard (.last (subroutineDeclaration_makes 0).grows fun _ => rfl)
  case parameters => exact .discard (.last (parameterList_makes 0).grows fun _ => rfl)
  case subroutineBody => exact .discard (.last (subroutineBody_makes 0).grows fun _ => rfl)
  case statements => exact .discard (.last (statements_make maxNesting 0 levels).grows fun _ => rfl)
  case statement =>
    exact .discard (.last (statementOf_makes (expression_makes levels)
      (statements_make maxNesting 0 levels)).grows fun _ => rfl)
  case expression => exact .discard (.last (expression_makes levels).grows fun _ => rfl)
  case term => exact .discard (.last (terms_make maxNesting 0 levels).1.grows fun _ => rfl)
  case arguments =>
    exact .discard (.last (expressionList_makes (expression_makes levels)).grows fun _ => rfl)

theorem toForest_of_planted {after : Forest} {trees : List Tree}
    (planted : Forest.start.Planted after 0 trees) :
    (Tree.node 0 .start none trees).toForest = after := by
  have root : after.node? 0 = some ⟨none, .start, none, trees.map Tree.number⟩ :=
    planted.kept 0 Nat.zero_lt_one
  obtain ⟨more, size⟩ := Nat.exists_eq_add_of_le' (show 1 ≤ after.size from planted.adds.size_le)
  refine Tree.toForest_eq ?_ (List.forall_mem_cons.mpr ⟨root, planted.adds.held⟩)
  have numbers : List.range after.size = 0 :: List.range' 1 (after.size - 1) := by
    rw [List.range_eq_range', size]
    rfl
  rw [numbers]
  exact planted.adds.numbers.cons 0

/-- Reading into a forest gives the forest of the tree of the phrase that is read. -/
theorem grow_eq (entry : EntryPoint) (stream : List Item) :
    grow entry stream = (parse entry stream).map fun phrase => phrase.toTree.toForest := by
  cases stream with
  | nil => rfl
  | cons item rest =>
    cases item with
    | error e => rfl
    | ok token =>
      have mirrors := phrase_grows entry 0 ⟨⟨token, rest⟩, .start, 0⟩ Nat.zero_lt_one rfl
      rw [grow, parse]
      cases read : Parse.phrase entry ⟨token, rest⟩ with
      | error e =>
        rw [read] at mirrors
        rw [show Growing.phrase entry 0 ⟨⟨token, rest⟩, .start, 0⟩ = .error e from mirrors]
        rfl
      | ok pair =>
        obtain ⟨phrase, cursor⟩ := pair
        rw [read] at mirrors
        obtain ⟨_, after, grown, rfl, -, plants⟩ := mirrors
        rw [grown]
        change (if after.cursor.token.kind = .eof then pure after.forest else _) =
          (if after.cursor.token.kind = .eof then pure phrase else _ : Except _ _).map _
        split
        · exact congrArg Except.ok (toForest_of_planted plants.1).symm
        · rfl

end JackCompiler
