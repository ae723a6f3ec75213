import JackCompiler.Proofs.Lexer
import JackCompiler.Proofs.Lowering.Code
import JackCompiler.Proofs.Lowering.Settle
import JackCompiler.Proofs.Phrase.Reading

namespace JackCompiler

open Lowering

section Leaves

variable {setting : Setting} {scope : Scope}

@[simp]
theorem Context.faults_append (context : Context) (first second : List Occurrence) :
    context.faults (first ++ second) = context.faults first ++ context.faults second :=
  List.filterMap_append

theorem visit_nameLeaf (token : Token) (number : Nat) :
    visit setting (.node number .identifier (some token) []) scope = settle [] ([], scope) := rfl

theorem visit_symbolLeaf (token : Token) (number : Nat) :
    visit setting (.node number .symbol (some token) []) scope = settle [] ([], scope) := rfl

theorem visit_wordLeaf (token : Token) (number : Nat) :
    visit setting (wordLeaf token number).1 scope = settle [] ([], scope) := by
  change visit setting (.node number (if token.kind = .keyword then .keyword else .symbol)
    (some token) []) scope = _
  split <;> rfl

theorem visit_literalLeaf (token : Token) (number : Nat) :
    visit setting (literalLeaf token number).1 scope = settle [] ([], scope) := by
  obtain ⟨line, kind, value⟩ := token
  cases kind <;> rfl

end Leaves

theorem inScope_settle {scope : Scope} {faults : List CompileError} {code : Code} :
    inScope scope (settle faults code) = settle faults (code, scope) := by
  cases faults <;> rfl

section Words

variable {α : Type} {context : Context}

theorem variableOf_bind {token : Token} {number : Nat} {next : Variable → Lower α} {x : α}
    (found : ∀ v, context.resolve token.value = some v → next v = .ok x) :
    variableOf context.scope (.node number .identifier (some token) []) >>= next =
      settle (context.faults [.variable token]) x := by
  -- The generator looks a variable up before anything else that may still fail.
  cases same : context.resolve token.value with
  | none =>
    have fault : context.faults [.variable token] = [.undeclaredSymbol token.line token.value] := by
      simp [Context.faults, Context.fault?, same]
    have missing : variableOf context.scope (.node number .identifier (some token) []) =
        .error (.undeclaredSymbol token.line token.value) := by
      simp only [variableOf, Tree.token?, ← Context.resolve.eq_def, same]
    rw [fault, missing]
    rfl
  | some v =>
    have fault : context.faults [.variable token] = [] := by
      simp [Context.faults, Context.fault?, same]
    have there : variableOf context.scope (.node number .identifier (some token) []) = .ok v := by
      simp only [variableOf, Tree.token?, ← Context.resolve.eq_def, same]
    rw [fault, there]
    exact found v same

theorem binaryOperator_eq {text : String} (one : text ∈ binaryOperators) :
    binaryOperator text = .ok (binaryInstruction text) := by
  simp only [binaryOperators, List.mem_cons, List.not_mem_nil, or_false] at one
  rcases one with rfl | rfl | rfl | rfl | rfl | rfl | rfl | rfl | rfl <;> rfl

theorem unaryOperator_eq {text : String} (one : text ∈ unaryOperators) :
    unaryOperator text = .ok (unaryInstruction text) := by
  simp only [unaryOperators, List.mem_cons, List.not_mem_nil, or_false] at one
  rcases one with rfl | rfl <;> rfl

theorem keywordCode_eq {text : String} (one : text ∈ constantWords) :
    keywordCode text = .ok (constantCode text) := by
  simp only [constantWords, List.mem_cons, List.not_mem_nil, or_false] at one
  rcases one with rfl | rfl | rfl | rfl <;> rfl

theorem integerCode_eq {token : Token} (formed : token.WellFormed)
    (kind : token.kind = .integerConstant) :
    integerCode token.value =
      .ok [.push .constant (UInt16.ofNat (decimalValue token.value.toList))] := by
  -- A well-formed number is read as the digits say and needs no sign.
  simp only [Token.WellFormed, kind, maxIntegerConstant] at formed
  obtain ⟨some, digits, bound⟩ := formed
  have natural : naturalValue? token.value.toList = .some (decimalValue token.value.toList : Int) := by
    simp [naturalValue?, some, digits]
  have value : integerValue? token.value.toList =
      .some (decimalValue token.value.toList : Int) := by
    unfold integerValue?
    have unsigned (sign : Char) (rest : List Char) (same : token.value.toList = sign :: rest) :
        isDigit sign = true := by
      rw [same] at digits
      exact (List.all_eq_true.mp digits) sign (.head _)
    split
    · rename_i same
      exact absurd (unsigned _ _ same) (by decide)
    · rename_i same
      exact absurd (unsigned _ _ same) (by decide)
    · rw [natural, Option.filter_some, if_pos]
      simp only [Bool.and_eq_true, decide_eq_true_eq]
      omega
  rw [integerCode, value]
  simp only [Int.natAbs_natCast]
  rw [if_pos (by omega), if_neg (by omega)]

theorem stringCode_eq {token : Token} (kind : token.kind = .stringConstant) :
    stringCode token.unquoted.toList =
      settle (context.faults (literalOccurrences token)) (literalCode token) := by
  rw [literalOccurrences, if_pos kind, literalCode, kind, stringCode]
  cases same : token.unquoted.toList.find? fun c => 65536 ≤ c.toNat with
  | none => simp [Context.faults, Context.fault?, same, textCode]
  | some c =>
    simp only [Context.faults, List.filterMap_cons, Context.fault?, same, Option.map_some]
    rfl

end Words

theorem wordLeaf_symbol {values : List String} (word : Word values) (formed : word.val.WellFormed)
    (marks : ∀ v ∈ values, v ∉ keywords) (number : Nat) :
    (wordLeaf word.val number).1 = .node number .symbol (some word.val) [] := by
  have kind : word.val.kind ≠ .keyword := by
    intro kind
    simp only [Token.WellFormed, kind] at formed
    exact marks _ word.value_mem formed
  change Tree.node number (if word.val.kind = .keyword then .keyword else .symbol) _ _ = _
  rw [if_neg kind]

/-- What lowering needs to know about a setting: what a called name means is what the context says. -/
structure Agrees (setting : Setting) (context : Context) : Prop where
  comments : setting.comments = context.comments
  known : ∀ name, declaredKind name setting.declared none = .ok (context.kindOf name)

section Expressions

variable {setting : Setting} {context : Context}

/-- The tree has this code, unless there is a fault in what occurs. -/
private abbrev Lowers (setting : Setting) (context : Context) (tree : Tree)
    (occurrences : List Occurrence) (code : Code) : Prop :=
  visit setting tree context.scope = settle (context.faults occurrences) (code, context.scope)

private theorem lowers_of {tree : Tree} (occurrences : List Occurrence) (code : Code) {code' : Code}
    {faults : List CompileError} (visits : visit setting tree context.scope =
      settle faults (code', context.scope)) (sameFaults : faults = context.faults occurrences)
    (sameCode : code' = code) : Lowers setting context tree occurrences code := by
  rw [Lowers, visits, sameFaults, sameCode]

private theorem lowers_expression {e : Expression}
    (operand : ∀ number, Lowers setting context (e.operandTree number).1 e.occurrences
      (e.code context)) (number : Nat) :
    Lowers setting context (e.toTree number).1 e.occurrences (e.code context) := by
  have node := visit_plain setting number .expression none rfl
    (visitAll_cons (operand (number + 1)) visitAll_nil) rfl
  simpa [Expression.toTree] using node

private theorem lowers_binary {left : Expression} {operator : Word binaryOperators} {right : Term}
    (first : ∀ number, Lowers setting context (left.operandTree number).1 left.occurrences
      (left.code context))
    (second : ∀ number, Lowers setting context (right.toTree number).1 right.occurrences
      (right.code context)) (number : Nat) :
    Lowers setting context ((Expression.binary left operator right).operandTree number).1
      (Expression.binary left operator right).occurrences
      ((Expression.binary left operator right).code context) := by
  have own (tree : Tree) (value : tree.value? = some operator.val.value) :
      lowerBinary tree [left.code context, right.code context] =
        settle [] (left.code context ++ right.code context ++
          [binaryInstruction operator.val.value]) := by
    rw [lowerBinary, valueOf, value]
    change binaryOperator operator.val.value >>= _ = _
    rw [binaryOperator_eq operator.value_mem]
    rfl
  rw [Expression.operandTree, Expression.occurrences, Expression.code]
  have node := visit_node setting (left.operandTree number).2 .binaryOp (some operator.val) rfl
    (visitAll_cons (first number) (visitAll_cons (second ((left.operandTree number).2 + 1))
      visitAll_nil)) ((congrArg _ (own _ rfl)).trans inScope_settle)
  simpa [Lowers] using node

private theorem lowers_literal {value : Literal} (formed : value.val.WellFormed) (number : Nat) :
    Lowers setting context ((Term.literal value).toTree number).1 (Term.literal value).occurrences
      ((Term.literal value).code context) := by
  have own : lowerTerm context.scope
      (.node number .term none [(literalLeaf value.val (number + 1)).1]) [[]] =
        settle (context.faults (literalOccurrences value.val)) (literalCode value.val) := by
    obtain ⟨⟨line, kind, text⟩, passes⟩ := value
    cases kind with
    | keyword => exact keywordCode_eq (List.contains_iff_mem.mp passes)
    | integerConstant => exact integerCode_eq formed rfl
    | stringConstant => exact stringCode_eq rfl
    | symbol => cases passes
    | identifier => cases passes
    | eof => cases passes
  rw [Term.occurrences, Term.code]
  have node := visit_node setting number .term none rfl
    (visitAll_cons (visit_literalLeaf value.val (number + 1)) visitAll_nil)
    ((congrArg _ own).trans inScope_settle)
  simpa [Term.toTree] using node

private theorem lowers_name (name : Name) (number : Nat) :
    Lowers setting context ((Term.name name).toTree number).1 (Term.name name).occurrences
      ((Term.name name).code context) := by
  have own : lowerTerm context.scope
      (.node number .term none [.node (number + 1) .identifier (some name.val) []]) [[]] =
        settle (context.faults [.variable name.val]) (context.load name.val) :=
    variableOf_bind fun v same => by simp only [Context.load, same]; rfl
  rw [Term.occurrences, Term.code]
  have node := visit_node setting number .term none rfl
    (visitAll_cons (visit_nameLeaf name.val (number + 1)) visitAll_nil)
    ((congrArg _ own).trans inScope_settle)
  simpa [Term.toTree] using node

private theorem lowers_operation {tree : Tree} {occurrences : List Occurrence} {code : Code}
    (kind : tree.kind = .arrayAccess ∨ tree.kind = .subroutineCall ∨ tree.kind = .unaryOp)
    (lowers : Lowers setting context tree occurrences code) (number : Nat) :
    Lowers setting context (.node number .term none [tree]) occurrences code := by
  have own : lowerTerm context.scope (.node number .term none [tree]) [code] = settle [] code := by
    obtain ⟨_, _, _, _⟩ := tree
    have whole : (pure [code].flatten : Lower Code) = settle [] code := by simp [pure, Except.pure]
    rcases kind with rfl | rfl | rfl
    · exact whole
    · exact whole
    · exact whole
  have node := visit_node setting number .term none rfl
    (visitAll_cons lowers visitAll_nil) ((congrArg _ own).trans inScope_settle)
  simpa using node

private theorem lowers_element {array : Name} {opening : Word ["["]} {index : Expression}
    {closing : Word ["]"]}
    (inner : ∀ number, Lowers setting context (index.toTree number).1 index.occurrences
      (index.code context)) (number : Nat) :
    Lowers setting context ((Term.element array opening index closing).toTree number).1
      (Term.element array opening index closing).occurrences
      ((Term.element array opening index closing).code context) := by
  have own (access : Nat) (opening index' closing : Tree) :
      lowerArrayAccess context.scope
          (.node access .arrayAccess none
            [.node (number + 1) .identifier (some array.val) [], opening, index', closing])
          [[], [], index.code context, []] =
        settle (context.faults [.variable array.val])
          (context.load array.val ++ index.code context ++
            [.arithmetic .add, .pop .pointer 1, .push .that 0]) :=
    variableOf_bind fun v same => by simp only [Context.load, same]; rfl
  rw [Term.occurrences, Term.code]
  have node := visit_node setting (number + 2) .arrayAccess none rfl
    (visitAll_cons (visit_nameLeaf array.val (number + 1))
      (visitAll_cons (visit_wordLeaf opening.val (number + 3))
        (visitAll_cons (inner (number + 4))
          (visitAll_cons (visit_wordLeaf closing.val (number + 4 + index.nodes)) visitAll_nil))))
    ((congrArg _ (own _ _ _ _)).trans inScope_settle)
  have access := lowers_of (index.occurrences ++ [.variable array.val])
    (context.load array.val ++ index.code context ++
      [.arithmetic .add, .pop .pointer 1, .push .that 0]) node (by simp) rfl
  have term := lowers_operation (.inl rfl) access number
  simpa [Lowers, Term.toTree] using term

private theorem lowers_group {opening : SymbolWord ["("]} {inner : Expression} {closing : Word [")"]}
    (ih : ∀ number, Lowers setting context (inner.toTree number).1 inner.occurrences
      (inner.code context)) (number : Nat) :
    Lowers setting context ((Term.group opening inner closing).toTree number).1
      (Term.group opening inner closing).occurrences
      ((Term.group opening inner closing).code context) := by
  have symbol : (wordLeaf opening.val (number + 1)).1 =
      .node (number + 1) .symbol (some opening.val) [] := by
    have passes := opening.property
    simp only [Token.isSymbolOf, Bool.and_eq_true, beq_iff_eq] at passes
    change Tree.node (number + 1) (if opening.val.kind = .keyword then .keyword else .symbol) _ _ = _
    rw [passes.1]
    rfl
  rw [Term.occurrences, Term.code]
  have node := visit_plain setting number .term none rfl
    (visitAll_cons (visit_symbolLeaf opening.val (number + 1))
      (visitAll_cons (ih (number + 2))
        (visitAll_cons (visit_wordLeaf closing.val (number + 2 + inner.nodes)) visitAll_nil))) rfl
  simpa [Lowers, Term.toTree, symbol] using node

private theorem lowers_unary {operator : SymbolWord unaryOperators} {operand : Term}
    (ih : ∀ number, Lowers setting context (operand.toTree number).1 operand.occurrences
      (operand.code context)) (number : Nat) :
    Lowers setting context ((Term.unary operator operand).toTree number).1
      (Term.unary operator operand).occurrences
      ((Term.unary operator operand).code context) := by
  have own (tree : Tree) (value : tree.value? = some operator.val.value) :
      lowerUnary tree [operand.code context] =
        settle [] (operand.code context ++ [unaryInstruction operator.val.value]) := by
    rw [lowerUnary, valueOf, value]
    change unaryOperator operator.val.value >>= _ = _
    rw [unaryOperator_eq operator.value_mem]
    rfl
  rw [Term.occurrences, Term.code]
  have node := visit_node setting (number + 1) .unaryOp (some operator.val) rfl
    (visitAll_cons (ih (number + 2)) visitAll_nil)
    ((congrArg _ (own _ rfl)).trans inScope_settle)
  have operation := lowers_of operand.occurrences
    (operand.code context ++ [unaryInstruction operator.val.value]) node (by simp) rfl
  have term := lowers_operation (.inr (.inr rfl)) operation number
  simpa [Lowers, Term.toTree] using term

private theorem lowers_moreArguments {more : List (Comma × Expression)}
    (each : ∀ pair ∈ more, ∀ number, Lowers setting context (pair.2.toTree number).1
      pair.2.occurrences (pair.2.code context)) (number : Nat) :
    ∃ codes, codes.flatten = moreArgumentCode context more ∧
      visitAll setting (moreArgumentTrees more [] number).1 context.scope [] =
        settle (context.faults (moreArgumentOccurrences more)) (codes, context.scope) := by
  induction more generalizing number with
  | nil => exact ⟨[], rfl, by rw [moreArgumentTrees, moreArgumentOccurrences]; rfl⟩
  | cons pair more ih =>
    obtain ⟨comma, argument⟩ := pair
    obtain ⟨codes, same, visits⟩ :=
      ih (fun pair member => each pair (.tail _ member)) (number + 1 + argument.nodes)
    refine ⟨[] :: argument.code context :: codes, ?_, ?_⟩
    · simp [moreArgumentCode, same]
    · rw [moreArgumentTrees_cons, visitAll_cons (visit_wordLeaf comma.val number)
        (visitAll_cons (each _ (.head _) (number + 1)) visits), moreArgumentOccurrences]
      simp

private theorem moreArgumentTrees_count {more : List (Comma × Expression)}
    (formed : ∀ pair ∈ more, pair.1.val.WellFormed) (number : Nat) :
    let trees := (moreArgumentTrees more [] number).1
    trees.countP (·.kind == .expression) = more.length ∧
      trees.countP (fun part => part.kind == .symbol && part.value? == some ",") = more.length ∧
      trees.length = 2 * more.length := by
  induction more generalizing number with
  | nil => simp [moreArgumentTrees]
  | cons pair more ih =>
    obtain ⟨comma, argument⟩ := pair
    obtain ⟨expressions, commas, length⟩ :=
      ih (fun pair member => formed pair (.tail _ member)) (number + 1 + argument.nodes)
    have leaf := wordLeaf_symbol comma (formed _ (.head _)) (by decide) number
    have value := Word.value_eq comma
    simp only [moreArgumentTrees_cons, leaf, List.countP_cons, List.length_cons, expressions, commas,
      length]
    simp [value, Expression.toTree]
    omega

theorem argumentCount_eq {a : Arguments} (formed : ∀ t ∈ a.tokens, t.WellFormed) (number : Nat) :
    argumentCount (a.toTree number).1 = .ok (UInt16.ofNat a.count) := by
  cases a with
  | empty => rw [Arguments.toTree]; rfl
  | listed first more =>
    have commas : ∀ pair ∈ more, pair.1.val.WellFormed := by
      intro pair member
      apply formed _
      rw [Arguments.tokens, moreArgumentTokens_eq]
      exact List.mem_append_right _ (List.mem_flatMap.mpr ⟨pair, member, .head _⟩)
    obtain ⟨expressions, separators, length⟩ :=
      moreArgumentTrees_count commas (number + 1 + first.nodes)
    have kind : (first.toTree (number + 1)).1.kind = .expression := by
      simp [Expression.toTree]
    rw [argumentCount, Arguments.toTree_listed]
    simp only [Tree.children_node, List.countP_cons, kind, expressions, separators, List.length_cons, length,
      Arguments.count]
    simp
    omega

private theorem lowers_arguments {first : Expression} {more : List (Comma × Expression)}
    (one : ∀ number, Lowers setting context (first.toTree number).1 first.occurrences
      (first.code context))
    (each : ∀ pair ∈ more, ∀ number, Lowers setting context (pair.2.toTree number).1
      pair.2.occurrences (pair.2.code context)) (number : Nat) :
    Lowers setting context ((Arguments.listed first more).toTree number).1
      (Arguments.listed first more).occurrences ((Arguments.listed first more).code context) := by
  obtain ⟨codes, same, visits⟩ := lowers_moreArguments each (number + 1 + first.nodes)
  rw [Arguments.occurrences, Arguments.code, ← same]
  have node := visit_plain setting number .expressionList none rfl
    (visitAll_cons (one (number + 1)) visits) rfl
  rw [Arguments.toTree_listed]
  simpa [Lowers] using node

@[simp]
private theorem faults_call (context : Context) (count : Nat) :
    context.faults [.call count] = [] := rfl

private theorem isQualified_dot (number after : Nat) (token? : Option Token) (first : Tree)
    (mark : Token) (rest : List Tree) :
    isQualified (.node number .subroutineCall token?
      (first :: .node after .symbol (some mark) [] :: rest)) = .ok (mark.value == ".") := rfl

private theorem lowerCall_bare {name : Name} {opening : Word ["("]} {arguments : Arguments}
    (formed : opening.val.WellFormed) (formedArguments : ∀ t ∈ arguments.tokens, t.WellFormed)
    (number start after : Nat) (closing : Tree) :
    lowerCall setting.declared context.scope
        (.node number .subroutineCall none
          [.node start .identifier (some name.val) [], (wordLeaf opening.val after).1,
            (arguments.toTree (after + 1)).1, closing]) [[], [], arguments.code context, []] =
      settle [] (.push .pointer 0 :: arguments.code context ++
        [.call (context.className ++ "." ++ name.val.value)
          (UInt16.ofNat arguments.count + 1)]) := by
  rw [wordLeaf_symbol opening formed (by decide), lowerCall, isQualified_dot, Word.value_eq opening]
  change argumentCount (arguments.toTree (after + 1)).1 >>= _ = _
  rw [argumentCount_eq formedArguments]
  rfl

private theorem lowers_bare {name : Name} {opening : Word ["("]} {arguments : Arguments}
    {closing : Word [")"]}
    (formed : ∀ t ∈ (Call.bare name opening arguments closing).tokens, t.WellFormed)
    (ih : ∀ number, Lowers setting context (arguments.toTree number).1 arguments.occurrences
      (arguments.code context)) (number : Nat) :
    Lowers setting context ((Call.bare name opening arguments closing).toTree number).1
      (Call.bare name opening arguments closing).occurrences
      ((Call.bare name opening arguments closing).code context) := by
  simp only [Call.tokens, List.forall_mem_cons, List.forall_mem_append] at formed
  rw [Call.occurrences, Call.code]
  have node := visit_node setting (number + 1) .subroutineCall none rfl
    (visitAll_cons (visit_nameLeaf name.val number)
      (visitAll_cons (visit_wordLeaf opening.val (number + 2))
        (visitAll_cons (ih (number + 3))
          (visitAll_cons (visit_wordLeaf closing.val (number + 3 + arguments.nodes)) visitAll_nil))))
    ((congrArg _ (lowerCall_bare formed.2.1 formed.2.2.1 _ _ _ _)).trans inScope_settle)
  simpa [Lowers, Call.toTree] using node

private theorem lowerCall_qualified {qualifier : Name} {dot : Word ["."]} {name : MemberName}
    {arguments : Arguments} (agrees : Agrees setting context) (formed : dot.val.WellFormed)
    (formedArguments : ∀ t ∈ arguments.tokens, t.WellFormed) (number start after : Nat)
    (opening closing : Tree) (opening' : Word ["("]) (closing' : Word [")"]) :
    lowerCall setting.declared context.scope
        (.node number .subroutineCall none
          [.node start .identifier (some qualifier.val) [], (wordLeaf dot.val after).1,
            .node (after + 1) .identifier (some name.val) [], opening,
            (arguments.toTree (after + 3)).1, closing])
        [[], [], [], [], arguments.code context, []] =
      settle [] ((Call.qualified qualifier dot name opening' arguments closing').code context) := by
  rw [wordLeaf_symbol dot formed (by decide), lowerCall, isQualified_dot, Word.value_eq dot]
  change argumentCount (arguments.toTree (after + 3)).1 >>= _ = _
  rw [argumentCount_eq formedArguments, Call.code]
  change qualifiedCall setting.declared context.scope qualifier.val.value name.val.value _ _ = _
  rw [qualifiedCall, show resolve context.scope = context.resolve from rfl]
  cases context.resolve qualifier.val.value with
  | some receiver => rfl
  | none =>
    change declaredKind name.val.value setting.declared none >>= _ = _
    rw [agrees.known]
    change (if context.kindOf name.val.value = some .method then _ else _) = _
    split <;> rfl

private theorem lowers_qualified {qualifier : Name} {dot : Word ["."]} {name : MemberName}
    {opening : Word ["("]} {arguments : Arguments} {closing : Word [")"]}
    (agrees : Agrees setting context)
    (formed : ∀ t ∈ (Call.qualified qualifier dot name opening arguments closing).tokens,
      t.WellFormed)
    (ih : ∀ number, Lowers setting context (arguments.toTree number).1 arguments.occurrences
      (arguments.code context)) (number : Nat) :
    Lowers setting context
      ((Call.qualified qualifier dot name opening arguments closing).toTree number).1
      (Call.qualified qualifier dot name opening arguments closing).occurrences
      ((Call.qualified qualifier dot name opening arguments closing).code context) := by
  simp only [Call.tokens, List.forall_mem_cons, List.forall_mem_append] at formed
  have node := visit_node setting (number + 1) .subroutineCall none rfl
    (visitAll_cons (visit_nameLeaf qualifier.val number)
      (visitAll_cons (visit_wordLeaf dot.val (number + 2))
        (visitAll_cons (visit_nameLeaf name.val (number + 3))
          (visitAll_cons (visit_wordLeaf opening.val (number + 4))
            (visitAll_cons (ih (number + 5))
              (visitAll_cons (visit_wordLeaf closing.val (number + 5 + arguments.nodes))
                visitAll_nil))))))
    ((congrArg _ (lowerCall_qualified agrees formed.2.1 formed.2.2.2.2.1 _ _ _ _ _ opening
      closing)).trans inScope_settle)
  simpa [Lowers, Call.toTree, Call.occurrences] using node

private theorem lowers_all (agrees : Agrees setting context) :
    (∀ e : Expression, (∀ t ∈ e.tokens, t.WellFormed) → ∀ number,
      Lowers setting context (e.operandTree number).1 e.occurrences (e.code context)) ∧
    (∀ t : Term, (∀ u ∈ t.tokens, u.WellFormed) → ∀ number,
      Lowers setting context (t.toTree number).1 t.occurrences (t.code context)) ∧
    (∀ c : Call, (∀ t ∈ c.tokens, t.WellFormed) → ∀ number,
      Lowers setting context (c.toTree number).1 c.occurrences (c.code context)) ∧
    (∀ a : Arguments, (∀ t ∈ a.tokens, t.WellFormed) → ∀ number,
      Lowers setting context (a.toTree number).1 a.occurrences (a.code context)) := by
  apply Expression.induction
  case term =>
    intro t ih formed number
    rw [Expression.operandTree, Expression.occurrences, Expression.code]
    exact ih formed number
  case binary =>
    intro left operator right first second formed number
    simp only [Expression.tokens, List.forall_mem_append, List.forall_mem_cons] at formed
    exact lowers_binary (first formed.1) (second formed.2.2) number
  case literal =>
    intro value formed number
    exact lowers_literal (formed _ (by simp [Term.tokens])) number
  case name => exact fun name _ number => lowers_name name number
  case element =>
    intro array opening index closing ih formed number
    simp only [Term.tokens, List.forall_mem_append, List.forall_mem_cons] at formed
    exact lowers_element (lowers_expression (ih formed.2.2.1)) number
  case call =>
    intro c ih formed number
    have inner := ih formed (number + 1)
    rw [Term.occurrences, Term.code]
    have kind : (c.toTree (number + 1)).1.kind = .subroutineCall := by
      cases c <;> simp [Call.toTree]
    have term := lowers_operation (.inr (.inl kind)) inner number
    simpa [Lowers, Term.toTree] using term
  case group =>
    intro opening inner closing ih formed number
    simp only [Term.tokens, List.forall_mem_append, List.forall_mem_cons] at formed
    exact lowers_group (lowers_expression (ih formed.2.1)) number
  case unary =>
    intro operator operand ih formed number
    simp only [Term.tokens, List.forall_mem_cons] at formed
    exact lowers_unary (ih formed.2) number
  case bare =>
    intro name opening arguments closing ih formed number
    have inner := formed
    simp only [Call.tokens, List.forall_mem_cons, List.forall_mem_append] at inner
    exact lowers_bare formed (ih inner.2.2.1) number
  case qualified =>
    intro qualifier dot name opening arguments closing ih formed number
    have inner := formed
    simp only [Call.tokens, List.forall_mem_cons, List.forall_mem_append] at inner
    exact lowers_qualified agrees formed (ih inner.2.2.2.2.1) number
  case empty =>
    intro _ number
    rw [Arguments.toTree, Arguments.occurrences, Arguments.code]
    rfl
  case listed =>
    intro first more one each formed number
    simp only [Arguments.tokens, moreArgumentTokens_eq, List.forall_mem_append] at formed
    refine lowers_arguments (lowers_expression (one formed.1)) (fun pair member => ?_) number
    refine lowers_expression (each pair member fun t inside => formed.2 t ?_)
    exact List.mem_flatMap.mpr ⟨pair, member, .tail _ inside⟩

theorem visit_expression (agrees : Agrees setting context) {e : Expression}
    (formed : ∀ t ∈ e.tokens, t.WellFormed) (number : Nat) :
    visit setting (e.toTree number).1 context.scope =
      settle (context.faults e.occurrences) (e.code context, context.scope) :=
  lowers_expression ((lowers_all agrees).1 e formed) number

theorem visit_term (agrees : Agrees setting context) {t : Term}
    (formed : ∀ u ∈ t.tokens, u.WellFormed) (number : Nat) :
    visit setting (t.toTree number).1 context.scope =
      settle (context.faults t.occurrences) (t.code context, context.scope) :=
  (lowers_all agrees).2.1 t formed number

theorem visit_call (agrees : Agrees setting context) {c : Call}
    (formed : ∀ t ∈ c.tokens, t.WellFormed) (number : Nat) :
    visit setting (c.toTree number).1 context.scope =
      settle (context.faults c.occurrences) (c.code context, context.scope) :=
  (lowers_all agrees).2.2.1 c formed number

theorem visit_arguments (agrees : Agrees setting context) {a : Arguments}
    (formed : ∀ t ∈ a.tokens, t.WellFormed) (number : Nat) :
    visit setting (a.toTree number).1 context.scope =
      settle (context.faults a.occurrences) (a.code context, context.scope) :=
  (lowers_all agrees).2.2.2 a formed number

end Expressions

section Statements

variable {setting : Setting} {context : Context}

private theorem lowers_statementTrees {statements : List Statement}
    (each : ∀ s ∈ statements, ∀ number, Lowers setting context (s.toTree number).1 s.occurrences
      (s.code context number)) (number : Nat) :
    ∃ codes, codes.flatten = statementCode context number statements ∧
      visitAll setting (statementTrees statements [] number).1 context.scope [] =
        settle (context.faults (statementOccurrences statements)) (codes, context.scope) := by
  induction statements generalizing number with
  | nil => exact ⟨[], rfl, by rw [statementTrees, statementOccurrences]; rfl⟩
  | cons s statements ih =>
    obtain ⟨codes, same, visits⟩ := ih (fun s member => each s (.tail _ member)) (number + s.nodes)
    refine ⟨s.code context number :: codes, ?_, ?_⟩
    · rw [List.flatten_cons, same, statementCode]
    · rw [statementTrees_cons, visitAll_cons (each s (.head _) number) visits,
        statementOccurrences, context.faults_append]

private theorem lowers_statements {statements : List Statement}
    (each : ∀ s ∈ statements, ∀ number, Lowers setting context (s.toTree number).1 s.occurrences
      (s.code context number)) (number : Nat) :
    Lowers setting context (statementsTree statements number).1 (statementOccurrences statements)
      (statementCode context (number + 1) statements) := by
  obtain ⟨codes, same, visits⟩ := lowers_statementTrees each (number + 1)
  have node := visit_plain setting number .statements none rfl visits rfl
  simpa [Lowers, statementsTree, same] using node

private abbrev LowersBlock (setting : Setting) (context : Context) (b : Block) : Prop :=
  ∀ number, Lowers setting context (statementsTree b.statements (number + 1)).1 b.occurrences
    (b.code context number)

private theorem LowersBlock.visitAll {b : Block} (lowers : LowersBlock setting context b)
    (number : Nat) :
    visitAll setting (b.toTrees number).1 context.scope [] =
      settle (context.faults b.occurrences) ([[], b.code context number, []], context.scope) := by
  obtain ⟨opening, closing, after, same⟩ := b.toTrees_eq number
  rw [same, visitAll_cons (visit_wordLeaf opening number) (visitAll_cons (lowers number)
    (visitAll_cons (visit_wordLeaf closing after) visitAll_nil))]
  simp

private theorem lowers_assign {keyword : Word ["let"]} {target : Name} {equals : Word ["="]}
    {value : Expression} {semicolon : Word [";"]}
    (inner : ∀ number, Lowers setting context (value.toTree number).1 value.occurrences
      (value.code context)) (agrees : Agrees setting context) (number : Nat) :
    Lowers setting context
      ((Statement.assign keyword target equals value semicolon).toTree number).1
      (Statement.assign keyword target equals value semicolon).occurrences
      ((Statement.assign keyword target equals value semicolon).code context number) := by
  have own (assignment : Nat) (equals' value' : Tree) :
      lowerAssignment context.scope
          (.node assignment .assignment none
            [.node (number + 2) .identifier (some target.val) [], equals', value'])
          [[], [], value.code context] =
        settle (context.faults [.variable target.val])
          (value.code context ++ context.store target.val) :=
    variableOf_bind fun v same => by simp only [Context.store, same]; rfl
  have assignment := visit_node setting (number + 3) .assignment none rfl
    (visitAll_cons (visit_nameLeaf target.val (number + 2))
      (visitAll_cons (visit_wordLeaf equals.val (number + 4))
        (visitAll_cons (inner (number + 5)) visitAll_nil)))
    ((congrArg _ (own _ _ _)).trans inScope_settle)
  have node := visit_plain setting number .letStatement none rfl
    (visitAll_cons (visit_wordLeaf keyword.val (number + 1)) (visitAll_cons assignment
      (visitAll_cons (visit_wordLeaf semicolon.val (number + 5 + value.nodes)) visitAll_nil))) rfl
  simpa [Lowers, Statement.toTree, Statement.occurrences, Statement.code, agrees.comments] using node

private theorem lowers_assignElement {keyword : Word ["let"]} {array : Name} {opening : Word ["["]}
    {index : Expression} {closing : Word ["]"]} {equals : Word ["="]} {value : Expression}
    {semicolon : Word [";"]}
    (innerIndex : ∀ number, Lowers setting context (index.toTree number).1 index.occurrences
      (index.code context))
    (inner : ∀ number, Lowers setting context (value.toTree number).1 value.occurrences
      (value.code context)) (agrees : Agrees setting context) (number : Nat) :
    let s := Statement.assignElement keyword array opening index closing equals value semicolon
    Lowers setting context (s.toTree number).1 s.occurrences (s.code context number) := by
  have own (assignment : Nat) (opening' index' closing' equals' value' : Tree) :
      lowerArrayAssignment context.scope
          (.node assignment .arrayAssignment none
            [.node (number + 2) .identifier (some array.val) [], opening', index', closing', equals',
              value']) [[], [], index.code context, [], [], value.code context] =
        settle (context.faults [.variable array.val])
          (context.load array.val ++ index.code context ++ [.arithmetic .add] ++
            value.code context ++ [.pop .temp 0, .pop .pointer 1, .push .temp 0, .pop .that 0]) :=
    variableOf_bind fun v same => by simp only [Context.load, same]; rfl
  have assignment := visit_node setting (number + 3) .arrayAssignment none rfl
    (visitAll_cons (visit_nameLeaf array.val (number + 2))
      (visitAll_cons (visit_wordLeaf opening.val (number + 4))
        (visitAll_cons (innerIndex (number + 5))
          (visitAll_cons (visit_wordLeaf closing.val (number + 5 + index.nodes))
            (visitAll_cons (visit_wordLeaf equals.val (number + 6 + index.nodes))
              (visitAll_cons (inner (number + 7 + index.nodes)) visitAll_nil))))))
    ((congrArg _ (own _ _ _ _ _ _)).trans inScope_settle)
  have node := visit_plain setting number .letStatement none rfl
    (visitAll_cons (visit_wordLeaf keyword.val (number + 1)) (visitAll_cons assignment
      (visitAll_cons (visit_wordLeaf semicolon.val (number + 7 + index.nodes + value.nodes))
        visitAll_nil))) rfl
  simpa [Lowers, Statement.toTree, Statement.occurrences, Statement.code, agrees.comments,
    Nat.add_right_comm _ 1 index.nodes, Nat.add_right_comm _ 1 value.nodes] using node

@[simp]
theorem wordLeaf_kind_beq_statements (token : Token) (number : Nat) :
    ((wordLeaf token number).1.kind == .statements) = false := by
  change ((if token.kind = .keyword then NodeKind.keyword else .symbol) == .statements) = false
  split <;> rfl

@[simp]
theorem wordLeaf_kind_beq_expression (token : Token) (number : Nat) :
    ((wordLeaf token number).1.kind == .expression) = false := by
  change ((if token.kind = .keyword then NodeKind.keyword else .symbol) == .expression) = false
  split <;> rfl

@[simp]
theorem Expression.toTree_kind (e : Expression) (number : Nat) :
    (e.toTree number).1.kind = .expression := by
  simp [Expression.toTree]

@[simp]
theorem Term.toTree_kind (t : Term) (number : Nat) : (t.toTree number).1.kind = .term := by
  cases t <;> simp [Term.toTree]

@[simp]
theorem Call.toTree_kind (c : Call) (number : Nat) :
    (c.toTree number).1.kind = .subroutineCall := by
  cases c <;> simp [Call.toTree]

@[simp]
theorem statementsTree_kind (statements : List Statement) (number : Nat) :
    (statementsTree statements number).1.kind = .statements := by
  simp [statementsTree]

private theorem blockPositions_one {number : Nat} {token? : Option Token} {condition : Expression}
    {start after : Nat} {statements : List Statement} {keyword opening closing brace brace' : Token}
    {at₁ at₂ at₃ at₄ at₅ : Nat} :
    blockPositions (.node number .ifStatement token?
      ([(wordLeaf keyword at₁).1, (wordLeaf opening at₂).1, (condition.toTree start).1,
        (wordLeaf closing at₃).1] ++
        [(wordLeaf brace at₄).1, (statementsTree statements after).1, (wordLeaf brace' at₅).1])) =
      [5] := by
  simp [blockPositions, List.zipIdx]

private theorem lowerIf_one {tree : Tree} {condition body : Code} (positions : blockPositions tree = [5]) :
    lowerIf setting.comments context.scope tree ([[], [], condition, []] ++ [[], body, []]) =
      settle [] (marker setting.comments "if" ++ condition ++
        [.arithmetic .not, .ifGoto (context.label "IF_FALSE" tree.number)] ++ body ++
        [.goto (context.label "IF_END" tree.number),
          .label (context.label "IF_FALSE" tree.number)] ++
        [.label (context.label "IF_END" tree.number)]) := by
  rw [lowerIf, positions]
  simp [labelName, classNameOf, Context.scope, fragment, Context.label, pure, Except.pure, bind,
    Except.bind]

private theorem lowers_ifThen {keyword : Word ["if"]} {opening : Word ["("]}
    {condition : Expression} {closing : Word [")"]} {body : Block}
    (inner : ∀ number, Lowers setting context (condition.toTree number).1 condition.occurrences
      (condition.code context)) (block : LowersBlock setting context body)
    (agrees : Agrees setting context) (number : Nat) :
    let s := Statement.ifThen keyword opening condition closing body
    Lowers setting context (s.toTree number).1 s.occurrences (s.code context number) := by
  obtain ⟨brace, brace', after, same⟩ := body.toTrees_eq (number + 4 + condition.nodes)
  have node := visit_node setting number .ifStatement none rfl
    (visitAll_append (visitAll_cons (visit_wordLeaf keyword.val (number + 1))
      (visitAll_cons (visit_wordLeaf opening.val (number + 2))
        (visitAll_cons (inner (number + 3))
          (visitAll_cons (visit_wordLeaf closing.val (number + 3 + condition.nodes)) visitAll_nil))))
      (block.visitAll (number + 4 + condition.nodes)))
    ((congrArg _ (lowerIf_one (by rw [same]; exact blockPositions_one))).trans inScope_settle)
  simpa [Lowers, Statement.toTree, Statement.occurrences, Statement.code, agrees.comments,
    Nat.add_right_comm _ 1 condition.nodes] using node

private theorem blockPositions_two {number : Nat} {token? : Option Token} {condition : Expression}
    {start after after' : Nat} {statements others : List Statement}
    {keyword opening closing brace brace' otherwise brace₂ brace₂' : Token}
    {at₁ at₂ at₃ at₄ at₅ at₆ at₇ at₈ : Nat} :
    blockPositions (.node number .ifStatement token?
      ([(wordLeaf keyword at₁).1, (wordLeaf opening at₂).1, (condition.toTree start).1,
        (wordLeaf closing at₃).1] ++
        [(wordLeaf brace at₄).1, (statementsTree statements after).1, (wordLeaf brace' at₅).1] ++
        [(wordLeaf otherwise at₆).1] ++
        [(wordLeaf brace₂ at₇).1, (statementsTree others after').1, (wordLeaf brace₂' at₈).1])) =
      [5, 9] := by
  simp [blockPositions, List.zipIdx]

private theorem lowerIf_two {tree : Tree} {condition body alternative : Code}
    (positions : blockPositions tree = [5, 9]) :
    lowerIf setting.comments context.scope tree
        ([[], [], condition, []] ++ [[], body, []] ++ [[]] ++ [[], alternative, []]) =
      settle [] (marker setting.comments "if" ++ condition ++
        [.arithmetic .not, .ifGoto (context.label "IF_FALSE" tree.number)] ++ body ++
        [.goto (context.label "IF_END" tree.number),
          .label (context.label "IF_FALSE" tree.number)] ++
        (alternative ++ [.goto (context.label "IF_END" tree.number)]) ++
        [.label (context.label "IF_END" tree.number)]) := by
  rw [lowerIf, positions]
  simp [labelName, classNameOf, Context.scope, fragment, Context.label, pure, Except.pure, bind,
    Except.bind]

private theorem lowers_ifElse {keyword : Word ["if"]} {opening : Word ["("]}
    {condition : Expression} {closing : Word [")"]} {body : Block} {otherwise : Word ["else"]}
    {alternative : Block}
    (inner : ∀ number, Lowers setting context (condition.toTree number).1 condition.occurrences
      (condition.code context)) (block : LowersBlock setting context body)
    (other : LowersBlock setting context alternative) (agrees : Agrees setting context)
    (number : Nat) :
    let s := Statement.ifElse keyword opening condition closing body otherwise alternative
    Lowers setting context (s.toTree number).1 s.occurrences (s.code context number) := by
  obtain ⟨_, _, _, same⟩ := body.toTrees_eq (number + 4 + condition.nodes)
  obtain ⟨_, _, _, same'⟩ := alternative.toTrees_eq (number + 5 + condition.nodes + body.nodes)
  have node := visit_node setting number .ifStatement none rfl
    (visitAll_append (visitAll_append (visitAll_append
      (visitAll_cons (visit_wordLeaf keyword.val (number + 1))
        (visitAll_cons (visit_wordLeaf opening.val (number + 2))
          (visitAll_cons (inner (number + 3))
            (visitAll_cons (visit_wordLeaf closing.val (number + 3 + condition.nodes))
              visitAll_nil))))
      (block.visitAll (number + 4 + condition.nodes)))
      (visitAll_cons (visit_wordLeaf otherwise.val (number + 4 + condition.nodes + body.nodes))
        visitAll_nil))
      (other.visitAll (number + 5 + condition.nodes + body.nodes)))
    ((congrArg _ (lowerIf_two (by rw [same, same']; exact blockPositions_two))).trans
      inScope_settle)
  simpa [Lowers, Statement.toTree, Statement.occurrences, Statement.code, agrees.comments,
    Nat.add_right_comm _ 1 condition.nodes, Nat.add_right_comm _ 1 body.nodes] using node

private theorem lowerWhile_eq {tree : Tree} {condition body : Code} :
    lowerWhile setting.comments context.scope tree ([[], [], condition, []] ++ [[], body, []]) =
      settle [] (marker setting.comments "while" ++
        [.label (context.label "WHILE_START" tree.number)] ++ condition ++
        [.arithmetic .not, .ifGoto (context.label "WHILE_END" tree.number)] ++ body ++
        [.goto (context.label "WHILE_START" tree.number),
          .label (context.label "WHILE_END" tree.number)]) := rfl

private theorem lowers_loop {keyword : Word ["while"]} {opening : Word ["("]}
    {condition : Expression} {closing : Word [")"]} {body : Block}
    (inner : ∀ number, Lowers setting context (condition.toTree number).1 condition.occurrences
      (condition.code context)) (block : LowersBlock setting context body)
    (agrees : Agrees setting context) (number : Nat) :
    let s := Statement.loop keyword opening condition closing body
    Lowers setting context (s.toTree number).1 s.occurrences (s.code context number) := by
  have node := visit_node setting number .whileStatement none rfl
    (visitAll_append (visitAll_cons (visit_wordLeaf keyword.val (number + 1))
      (visitAll_cons (visit_wordLeaf opening.val (number + 2))
        (visitAll_cons (inner (number + 3))
          (visitAll_cons (visit_wordLeaf closing.val (number + 3 + condition.nodes)) visitAll_nil))))
      (block.visitAll (number + 4 + condition.nodes)))
    ((congrArg _ lowerWhile_eq).trans inScope_settle)
  simpa [Lowers, Statement.toTree, Statement.occurrences, Statement.code, agrees.comments,
    Nat.add_right_comm _ 1 condition.nodes] using node

private theorem lowers_perform {keyword : Word ["do"]} {call : Call} {semicolon : Word [";"]}
    (inner : ∀ number, Lowers setting context (call.toTree number).1 call.occurrences
      (call.code context)) (agrees : Agrees setting context) (number : Nat) :
    let s := Statement.perform keyword call semicolon
    Lowers setting context (s.toTree number).1 s.occurrences (s.code context number) := by
  have own : lowerDo setting.comments [[], call.code context, []] =
      settle [] (marker setting.comments "do" ++ call.code context ++ [.pop .temp 0]) := rfl
  have node := visit_node setting number .doStatement none rfl
    (visitAll_cons (visit_wordLeaf keyword.val (number + 1)) (visitAll_cons (inner (number + 2))
      (visitAll_cons (visit_wordLeaf semicolon.val (number + 2 + call.nodes)) visitAll_nil)))
    ((congrArg _ own).trans inScope_settle)
  simpa [Lowers, Statement.toTree, Statement.occurrences, Statement.code, agrees.comments] using node

private theorem lowerReturn_eq (context : Context) (hasValue : Bool) {tree : Tree}
    {fragments : List Code} {code : Code}
    (any : tree.children.any (·.kind == .expression) = hasValue)
    (value : hasValue = true → fragment fragments 1 = .ok code)
    (none : hasValue = false → code = [.push .constant 0]) :
    lowerReturn setting.comments context.scope tree fragments =
      settle (context.faults [.leave hasValue])
        (marker setting.comments "return" ++ code ++ [.ret]) := by
  have subroutine : subroutineOf context.scope = .ok context.subroutine := rfl
  rw [lowerReturn, subroutine, any]
  simp only [Context.faults, List.filterMap_cons, List.filterMap_nil, Context.fault?,
    Context.isVoid, bind, Except.bind]
  cases context.subroutine.returnType == "void" <;> cases hasValue
  · rfl
  · rw [value rfl]
    rfl
  · rw [none rfl]
    rfl
  · rfl

private theorem lowers_returnNothing {keyword : Word ["return"]} {semicolon : Word [";"]}
    (agrees : Agrees setting context) (number : Nat) :
    let s := Statement.returnNothing keyword semicolon
    Lowers setting context (s.toTree number).1 s.occurrences (s.code context number) := by
  have node := visit_node setting number .returnStatement none rfl
    (visitAll_cons (visit_wordLeaf keyword.val (number + 1))
      (visitAll_cons (visit_wordLeaf semicolon.val (number + 2)) visitAll_nil))
    ((congrArg _ (lowerReturn_eq context false (by simp) nofun
      (fun _ => rfl))).trans inScope_settle)
  simpa [Lowers, Statement.toTree, Statement.occurrences, Statement.code, agrees.comments] using node

private theorem lowers_returnValue {keyword : Word ["return"]} {value : Expression}
    {semicolon : Word [";"]}
    (inner : ∀ number, Lowers setting context (value.toTree number).1 value.occurrences
      (value.code context)) (agrees : Agrees setting context) (number : Nat) :
    let s := Statement.returnValue keyword value semicolon
    Lowers setting context (s.toTree number).1 s.occurrences (s.code context number) := by
  have node := visit_node setting number .returnStatement none rfl
    (visitAll_cons (visit_wordLeaf keyword.val (number + 1)) (visitAll_cons (inner (number + 2))
      (visitAll_cons (visit_wordLeaf semicolon.val (number + 2 + value.nodes)) visitAll_nil)))
    ((congrArg _ (lowerReturn_eq context true (by simp) (fun _ => rfl)
      nofun)).trans inScope_settle)
  simpa [Lowers, Statement.toTree, Statement.occurrences, Statement.code, agrees.comments] using node

private theorem lowers_all_statements (agrees : Agrees setting context) :
    (∀ s : Statement, (∀ t ∈ s.tokens, t.WellFormed) → ∀ number,
      Lowers setting context (s.toTree number).1 s.occurrences (s.code context number)) ∧
    (∀ b : Block, (∀ t ∈ b.tokens, t.WellFormed) → LowersBlock setting context b) := by
  have inner {e : Expression} (formed : ∀ t ∈ e.tokens, t.WellFormed) (number : Nat) :
      Lowers setting context (e.toTree number).1 e.occurrences (e.code context) :=
    visit_expression agrees formed number
  apply Statement.induction
  case assign =>
    intro keyword target equals value semicolon formed number
    simp only [Statement.tokens, List.forall_mem_append, List.forall_mem_cons] at formed
    exact lowers_assign (inner formed.2.2.2.1) agrees number
  case assignElement =>
    intro keyword array opening index closing equals value semicolon formed number
    simp only [Statement.tokens, List.forall_mem_append, List.forall_mem_cons] at formed
    obtain ⟨-, -, -, formedIndex, -, -, formedValue, -⟩ := formed
    exact lowers_assignElement (inner formedIndex) (inner formedValue) agrees number
  case ifThen =>
    intro keyword opening condition closing body ih formed number
    simp only [Statement.tokens, List.forall_mem_append, List.forall_mem_cons] at formed
    obtain ⟨-, -, formedCondition, -, formedBody⟩ := formed
    exact lowers_ifThen (inner formedCondition) (ih formedBody) agrees number
  case ifElse =>
    intro keyword opening condition closing body otherwise alternative ih ih' formed number
    simp only [Statement.tokens, List.forall_mem_append, List.forall_mem_cons] at formed
    obtain ⟨-, -, formedCondition, -, formedBody, -, formedOther⟩ := formed
    exact lowers_ifElse (inner formedCondition) (ih formedBody) (ih' formedOther) agrees number
  case loop =>
    intro keyword opening condition closing body ih formed number
    simp only [Statement.tokens, List.forall_mem_append, List.forall_mem_cons] at formed
    obtain ⟨-, -, formedCondition, -, formedBody⟩ := formed
    exact lowers_loop (inner formedCondition) (ih formedBody) agrees number
  case perform =>
    intro keyword call semicolon formed number
    simp only [Statement.tokens, List.forall_mem_append, List.forall_mem_cons] at formed
    exact lowers_perform (visit_call agrees formed.2.1) agrees number
  case returnNothing =>
    exact fun keyword semicolon _ number => lowers_returnNothing agrees number
  case returnValue =>
    intro keyword value semicolon formed number
    simp only [Statement.tokens, List.forall_mem_append, List.forall_mem_cons] at formed
    exact lowers_returnValue (inner formed.2.1) agrees number
  case braced =>
    intro opening statements closing each formed number
    simp only [Block.tokens, statementTokens_eq, List.forall_mem_append,
      List.forall_mem_cons] at formed
    refine lowers_statements (fun s member => each s member fun t inside => formed.2.1 t ?_)
      (number + 1)
    exact List.mem_flatMap.mpr ⟨s, member, inside⟩

theorem visit_statement (agrees : Agrees setting context) {s : Statement}
    (formed : ∀ t ∈ s.tokens, t.WellFormed) (number : Nat) :
    visit setting (s.toTree number).1 context.scope =
      settle (context.faults s.occurrences) (s.code context number, context.scope) :=
  (lowers_all_statements agrees).1 s formed number

theorem visit_statements (agrees : Agrees setting context) {statements : List Statement}
    (formed : ∀ t ∈ statementTokens statements, t.WellFormed) (number : Nat) :
    visit setting (statementsTree statements number).1 context.scope =
      settle (context.faults (statementOccurrences statements))
        (statementCode context (number + 1) statements, context.scope) := by
  rw [statementTokens_eq] at formed
  refine lowers_statements (fun s member => (lowers_all_statements agrees).1 s fun t inside =>
    formed t ?_) number
  exact List.mem_flatMap.mpr ⟨s, member, inside⟩

end Statements

end JackCompiler
