import JackCompiler.Proofs.Phrase.Reading

/-!
# What readers accept

In front of the tokens of a phrase a reader with enough room returns that phrase, whatever comes
after it, as long as the token after it does not continue the phrase.
-/

namespace JackCompiler

/-! ## Classes of tokens -/

namespace Token

variable {token : Token}

theorem isOneOf_apart {values others : List String} (one : token.isOneOf values = true)
    (apart : ∀ v ∈ values, v ∉ others) : token.isOneOf others = false := by
  simp only [isOneOf, Bool.and_eq_true, List.contains_iff_mem] at one
  simp only [isOneOf, Bool.and_eq_false_iff]
  exact .inr (by simpa using apart _ one.2)

theorem isOneOf_of_subset {values others : List String} (one : token.isOneOf values = true)
    (within : ∀ v ∈ values, v ∈ others) : token.isOneOf others = true := by
  simp only [isOneOf, Bool.and_eq_true, List.contains_iff_mem] at one ⊢
  exact ⟨one.1, within _ one.2⟩

theorem isOneOf_subset {values others : List String} (none : token.isOneOf others = false)
    (within : ∀ v ∈ values, v ∈ others) : token.isOneOf values = false := by
  cases one : token.isOneOf values with
  | false => rfl
  | true => rw [isOneOf_of_subset one within] at none; cases none

theorem not_isOneOf_of_kind {values : List String} (word : token.kind ≠ .keyword)
    (symbol : token.kind ≠ .symbol) : token.isOneOf values = false := by
  simp [isOneOf, word, symbol]

theorem isOneOf_of_isSymbolOf {values : List String} (one : token.isSymbolOf values = true) :
    token.isOneOf values = true := by
  simp only [isSymbolOf, Bool.and_eq_true, beq_iff_eq] at one
  simp only [isOneOf, one.1, one.2]
  rfl

theorem isSymbolOf_apart {values others : List String} (one : token.isSymbolOf values = true)
    (apart : ∀ v ∈ values, v ∉ others) : token.isSymbolOf others = false := by
  simp only [isSymbolOf, Bool.and_eq_true, List.contains_iff_mem] at one
  simp only [isSymbolOf, Bool.and_eq_false_iff]
  exact .inr (by simpa using apart _ one.2)

theorem isOneOf_of_isName {values : List String} (name : token.isName = true) :
    token.isOneOf values = false := by
  have kind : token.kind = .identifier := by simpa [isName] using name
  exact not_isOneOf_of_kind (by simp [kind]) (by simp [kind])

theorem isLiteral_of_isName (name : token.isName = true) : token.isLiteral = false := by
  have kind : token.kind = .identifier := by simpa [isName] using name
  simp [isLiteral, kind]

theorem isLiteral_of_isSymbolOf {values : List String} (one : token.isSymbolOf values = true) :
    token.isLiteral = false := by
  simp only [isSymbolOf, Bool.and_eq_true, beq_iff_eq] at one
  simp [isLiteral, one.1]

theorem isName_of_isSymbolOf {values : List String} (one : token.isSymbolOf values = true) :
    token.isName = false := by
  simp only [isSymbolOf, Bool.and_eq_true, beq_iff_eq] at one
  simp [isName, one.1]

theorem isName_of_isOneOf {values : List String} (one : token.isOneOf values = true) :
    token.isName = false := by
  cases name : token.isName with
  | false => rfl
  | true => rw [isOneOf_of_isName name] at one; cases one

theorem startsTerm_of_isOneOf {values : List String} (one : token.isOneOf values = true)
    (apart : ∀ v ∈ values, v ∉ constantWords ++ "(" :: unaryOperators) :
    token.startsTerm = false := by
  have name := isName_of_isOneOf one
  simp only [isOneOf, Bool.and_eq_true, Bool.or_eq_true, beq_iff_eq, List.contains_iff_mem] at one
  have absent := apart _ one.2
  rw [List.mem_append, not_or] at absent
  have symbol : token.isSymbolOf ("(" :: unaryOperators) = false := by
    simp only [isSymbolOf, Bool.and_eq_false_iff]
    exact .inr (by simpa using absent.2)
  have literal : token.isLiteral = false := by
    rcases one.1 with kind | kind
    · simpa [isLiteral, kind] using absent.1
    · simp [isLiteral, kind]
  rw [startsTerm, literal, name, symbol]
  rfl

theorem isOneOf_of_startsTerm {values : List String} (starts : token.startsTerm = true)
    (apart : ∀ v ∈ values, v ∉ constantWords ++ "(" :: unaryOperators) :
    token.isOneOf values = false := by
  -- A word that starts an operand is none of the words with another use.
  cases one : token.isOneOf values with
  | false => rfl
  | true => rw [startsTerm_of_isOneOf one apart] at starts; cases starts

end Token

theorem Word.apart {values others : List String} (word : Word values)
    (apart : ∀ v ∈ values, v ∉ others) : word.val.isOneOf others = false :=
  Token.isOneOf_apart word.property apart

theorem Name.isOneOf (name : Name) (values : List String) : name.val.isOneOf values = false :=
  Token.isOneOf_of_isName name.property

/-! ## First tokens -/

mutual

theorem Expression.tokens_starts (e : Expression) :
    ∃ token rest, e.tokens = token :: rest ∧ token.startsTerm = true := by
  cases e with
  | term t => exact t.tokens_starts
  | binary left operator right =>
    obtain ⟨token, rest, same, starts⟩ := left.tokens_starts
    exact ⟨token, _, by rw [Expression.tokens, same, List.cons_append], starts⟩

theorem Term.tokens_starts (t : Term) :
    ∃ token rest, t.tokens = token :: rest ∧ token.startsTerm = true := by
  cases t with
  | literal value => exact ⟨_, _, rfl, by simp [Token.startsTerm, value.property]⟩
  | name name => exact ⟨_, _, rfl, by simp [Token.startsTerm, name.property]⟩
  | element array => exact ⟨_, _, rfl, by simp [Token.startsTerm, array.property]⟩
  | call call =>
    cases call with
    | bare name => exact ⟨_, _, rfl, by simp [Token.startsTerm, name.property]⟩
    | qualified qualifier => exact ⟨_, _, rfl, by simp [Token.startsTerm, qualifier.property]⟩
  | group opening =>
    refine ⟨_, _, rfl, ?_⟩
    have passes := opening.property
    simp only [Token.isSymbolOf, Bool.and_eq_true, List.contains_iff_mem] at passes
    simp [Token.startsTerm, Token.isSymbolOf, passes.1, List.mem_singleton.mp passes.2]
  | unary operator =>
    refine ⟨_, _, rfl, ?_⟩
    have passes := operator.property
    simp only [Token.isSymbolOf, Bool.and_eq_true, List.contains_iff_mem] at passes
    simp [Token.startsTerm, Token.isSymbolOf, passes.1, passes.2]

end

theorem Statement.tokens_starts (s : Statement) :
    ∃ token rest, s.tokens = token :: rest ∧ token.isOneOf statementWords = true := by
  cases s with
  | assign keyword | assignElement keyword | ifThen keyword | ifElse keyword | loop keyword
  | perform keyword | returnNothing keyword | returnValue keyword =>
    exact ⟨_, _, rfl, Token.isOneOf_of_subset keyword.property (by decide)⟩

theorem Parameter.tokens_starts (parameter : Parameter) :
    ∃ token rest, parameter.tokens = token :: rest ∧ token.startsType = true := by
  obtain ⟨type, name⟩ := parameter
  cases type with
  | builtIn word => exact ⟨_, _, rfl, by simp [Token.startsType, word.property]⟩
  | named name => exact ⟨_, _, rfl, by simp [Token.startsType, name.property]⟩

namespace Parse

variable {α β : Type}

/-! ## Single tokens -/

theorem bind_of {reader : Parse α} {next : α → Parse β} {cursor middle : Cursor} {x : α}
    (read : reader cursor = .ok (x, middle)) : (reader >>= next) cursor = next x middle := by
  change (reader cursor >>= fun pair => next pair.1 pair.2) = _
  rw [read]
  rfl

theorem current_of (cursor : Cursor) : current cursor = .ok (cursor.token, cursor) := rfl

theorem accept_before {test : Token → Bool} (word : TokenWith test) (after : Cursor)
    (tokens : List Token) :
    accept test (after.before (word.val :: tokens)) = .ok (some word, after.before tokens) := by
  apply (bind_of (current_of _)).trans
  simp only [Cursor.token_before_cons, word.property, ↓reduceDIte]
  rfl

theorem accept_none {test : Token → Bool} {cursor : Cursor} (other : test cursor.token = false) :
    accept test cursor = .ok (none, cursor) := by
  apply (bind_of (current_of _)).trans
  simp only [other, Bool.false_eq_true, ↓reduceDIte]
  rfl

theorem accept_other {test : Token → Bool} {token : Token} (other : test token = false)
    (after : Cursor) (tokens : List Token) :
    accept test (after.before (token :: tokens)) = .ok (none, after.before (token :: tokens)) :=
  accept_none other

theorem expect_before {values : List String} (word : Word values) (after : Cursor)
    (tokens : List Token) :
    expect values (after.before (word.val :: tokens)) = .ok (word, after.before tokens) :=
  bind_of (accept_before word after tokens)

theorem name_before (word : Name) (after : Cursor) (tokens : List Token) :
    name (after.before (word.val :: tokens)) = .ok (word, after.before tokens) :=
  bind_of (accept_before word after tokens)

theorem memberName_before (word : MemberName) (after : Cursor) (tokens : List Token) :
    memberName (after.before (word.val :: tokens)) = .ok (word, after.before tokens) :=
  bind_of (accept_before word after tokens)

/-! ## Repetition -/

section Repetition

variable {test : Token → Bool} {phrase : Parse α} {tokens : α → List Token} {all : List α}

theorem rounds_before (follows : Token → Prop)
    (each : ∀ x ∈ all, ∀ after, follows after.token →
      phrase (after.before (tokens x)) = .ok (x, after))
    (starts : ∀ x ∈ all, ∃ token rest, tokens x = token :: rest ∧ test token = true)
    (apart : ∀ token, test token = true → follows token) (after : Cursor)
    (stops : test after.token = false) (ends : follows after.token) (bound : List Item)
    (enough : all.length ≤ bound.length) (done : List α) :
    rounds test phrase bound done (after.before (all.flatMap tokens)) =
      .ok (done.reverse ++ all, after) := by
  induction all generalizing bound done with
  | nil =>
    rw [List.append_nil]
    cases bound
    all_goals
      rw [rounds, bind_of (current_of _), List.flatMap_nil, Cursor.before_nil, stops]
      rfl
  | cons x all ih =>
    cases bound with
    | nil => simp at enough
    | cons item bound =>
      obtain ⟨token, rest, same, passes⟩ := starts x (.head _)
      have follow : follows (after.before (all.flatMap tokens)).token := by
        cases all with
        | nil => exact ends
        | cons y all =>
          obtain ⟨token, rest, same, passes⟩ := starts y (by simp)
          rw [List.flatMap_cons, same]
          exact apart token passes
      have first := each x (.head _) _ follow
      rw [List.flatMap_cons, Cursor.before_append, rounds, bind_of (current_of _), same,
        Cursor.token_before_cons, if_pos passes, ← same, bind_of first,
        ih (fun y member => each y (.tail _ member)) (fun y member => starts y (.tail _ member))
          bound (Nat.le_of_succ_le_succ enough)]
      simp

private theorem length_le_tokens
    (starts : ∀ x ∈ all, ∃ token rest, tokens x = token :: rest ∧ test token = true) :
    all.length ≤ (all.flatMap tokens).length := by
  induction all with
  | nil => exact Nat.zero_le _
  | cons x all ih =>
    obtain ⟨token, rest, same, passes⟩ := starts x (.head _)
    have tail := ih fun y member => starts y (.tail _ member)
    rw [List.flatMap_cons, List.length_append, same, List.length_cons, List.length_cons]
    omega

theorem repeatWhile_before (follows : Token → Prop)
    (each : ∀ x ∈ all, ∀ after, follows after.token →
      phrase (after.before (tokens x)) = .ok (x, after))
    (starts : ∀ x ∈ all, ∃ token rest, tokens x = token :: rest ∧ test token = true)
    (apart : ∀ token, test token = true → follows token) (after : Cursor)
    (stops : test after.token = false) (ends : follows after.token) :
    repeatWhile test phrase (after.before (all.flatMap tokens)) = .ok (all, after) := by
  have items := congrArg List.length (after.items_before (all.flatMap tokens))
  simp only [Cursor.items, List.length_cons, List.length_append, List.length_map] at items
  have short := length_le_tokens starts
  exact rounds_before follows each starts apart after stops ends _ (by omega) []

theorem afterCommas_before {phrase : Parse α} {tokens : α → List Token} (follows : Token → Prop)
    (more : List (Comma × α))
    (each : ∀ pair ∈ more, ∀ after, follows after.token →
      phrase (after.before (tokens pair.2)) = .ok (pair.2, after))
    (apart : ∀ token, token.isOneOf [","] = true → follows token) (after : Cursor)
    (stops : after.token.isOneOf [","] = false) (ends : follows after.token) :
    afterCommas phrase (after.before (commaTokens tokens more)) = .ok (more, after) := by
  refine repeatWhile_before follows (fun pair member after follow => ?_)
    (fun pair _ => ⟨_, _, rfl, pair.1.property⟩) apart after stops ends
  rw [bind_of (expect_before pair.1 after _), bind_of (each pair member after follow)]
  rfl

theorem token_before_repeated (all : List α)
    (starts : ∀ x ∈ all, ∃ token rest, tokens x = token :: rest ∧ test token = true)
    (after : Cursor) :
    test (after.before (all.flatMap tokens)).token = true ∨
      (after.before (all.flatMap tokens)).token = after.token := by
  -- The token after repeated phrases starts the first of them, or it is the one after all.
  cases all with
  | nil => exact .inr rfl
  | cons x all =>
    obtain ⟨token, rest, same, passes⟩ := starts x (.head _)
    rw [List.flatMap_cons, same]
    exact .inl passes

end Repetition

/-! ## Expressions -/

def accessMarks : List String := [".", "(", "["]

/-- What ends an argument list: neither an operand, nor what continues one, nor a comma. -/
def EndsArguments (token : Token) : Prop :=
  token.startsTerm = false ∧ token.isOneOf ("," :: accessMarks ++ binaryOperators) = false

theorem endsArguments_of_closing (closing : Word [")"]) : EndsArguments closing.val :=
  ⟨Token.startsTerm_of_isOneOf closing.property (by decide), closing.apart (by decide)⟩

private theorem ends_accessMarks {token : Token}
    (ends : token.isOneOf (accessMarks ++ binaryOperators) = false) :
    token.isOneOf accessMarks = false :=
  Token.isOneOf_subset ends (by decide)

private theorem ends_binaryOperators {token : Token}
    (ends : token.isOneOf (accessMarks ++ binaryOperators) = false) :
    token.isOneOf binaryOperators = false :=
  Token.isOneOf_subset ends (by decide)

private theorem operators_end {room : Nat} {e : Expression} {after : Cursor}
    (ends : after.token.isOneOf binaryOperators = false) :
    operators room e after = .ok (e, after) := by
  cases room <;>
  · rw [operators, bind_of (current_of _), if_neg (by simp [ends])]
    rfl

section Expressions

private abbrev AcceptsExpression (reader : Parse Expression) (e : Expression) : Prop :=
  ∀ after, after.token.isOneOf (accessMarks ++ binaryOperators) = false →
    reader (after.before e.tokens) = .ok (e, after)

private abbrev AcceptsArguments (reader : Parse Expression) (arguments : Arguments) : Prop :=
  ∀ after, EndsArguments after.token →
    argumentsOf reader (after.before arguments.tokens) = .ok (arguments, after)

variable {reader : Parse Expression} {operand : Parse Term} {after : Cursor}

private theorem argumentsOf_empty : AcceptsArguments reader .empty := by
  intro after ends
  rw [Arguments.tokens, Cursor.before_nil, argumentsOf, bind_of (current_of _),
    if_neg (by simp [ends.1])]
  rfl

private theorem argumentsOf_listed {first : Expression} {more : List (Comma × Expression)}
    (one : AcceptsExpression reader first) (each : ∀ pair ∈ more, AcceptsExpression reader pair.2) :
    AcceptsArguments reader (.listed first more) := by
  intro after ends
  have comma {token : Token} (comma : token.isOneOf [","] = true) :
      token.isOneOf (accessMarks ++ binaryOperators) = false :=
    Token.isOneOf_apart comma (by decide)
  have last : after.token.isOneOf (accessMarks ++ binaryOperators) = false :=
    Token.isOneOf_subset ends.2 (by decide)
  have next : (after.before (commaTokens Expression.tokens more)).token.isOneOf
      (accessMarks ++ binaryOperators) = false := by
    cases more with
    | nil => exact last
    | cons pair more => exact comma pair.1.property
  obtain ⟨token, rest, same, starts⟩ := first.tokens_starts
  rw [Arguments.tokens, moreArgumentTokens_eq, Cursor.before_append, argumentsOf,
    bind_of (current_of _), same, Cursor.token_before_cons, if_pos starts, ← same,
    bind_of (one _ next),
    bind_of (afterCommas_before _ more each (fun _ => comma) after
      (Token.isOneOf_subset ends.2 (by decide)) last)]
  rfl

private theorem callAfter_bare {name : Name} {opening : Word ["("]} {arguments : Arguments}
    {closing : Word [")"]} (accepts : AcceptsArguments reader arguments) :
    callAfter reader name (after.before (opening.val :: (arguments.tokens ++ [closing.val]))) =
      .ok (.bare name opening arguments closing, after) := by
  rw [callAfter, bind_of (accept_none (opening.apart (by decide)))]
  dsimp only
  rw [bind_of (expect_before opening after _), Cursor.before_append,
    bind_of (accepts _ (endsArguments_of_closing closing)),
    bind_of (expect_before closing after [])]
  rfl

private theorem callAfter_qualified {qualifier : Name} {dot : Word ["."]} {name : MemberName}
    {opening : Word ["("]} {arguments : Arguments} {closing : Word [")"]}
    (accepts : AcceptsArguments reader arguments) :
    callAfter reader qualifier (after.before
        (dot.val :: name.val :: opening.val :: (arguments.tokens ++ [closing.val]))) =
      .ok (.qualified qualifier dot name opening arguments closing, after) := by
  rw [callAfter, bind_of (accept_before dot after _)]
  dsimp only
  rw [bind_of (memberName_before name after _), bind_of (expect_before opening after _), Cursor.before_append,
    bind_of (accepts _ (endsArguments_of_closing closing)),
    bind_of (expect_before closing after [])]
  rfl

private def AcceptsCall (reader : Parse Expression) (c : Call) : Prop :=
  ∃ (name : Name) (mark : Token) (rest : List Token),
    c.tokens = name.val :: mark :: rest ∧ mark.isOneOf [".", "("] = true ∧
      ∀ after, callAfter reader name (after.before (mark :: rest)) = .ok (c, after)

private theorem acceptsCall_bare {name : Name} {opening : Word ["("]} {arguments : Arguments}
    {closing : Word [")"]} (accepts : AcceptsArguments reader arguments) :
    AcceptsCall reader (.bare name opening arguments closing) :=
  ⟨name, opening.val, _, rfl, Token.isOneOf_of_subset opening.property (by decide),
    fun _ => callAfter_bare accepts⟩

private theorem acceptsCall_qualified {qualifier : Name} {dot : Word ["."]} {name : MemberName}
    {opening : Word ["("]} {arguments : Arguments} {closing : Word [")"]}
    (accepts : AcceptsArguments reader arguments) :
    AcceptsCall reader (.qualified qualifier dot name opening arguments closing) :=
  ⟨qualifier, dot.val, _, rfl, Token.isOneOf_of_subset dot.property (by decide),
    fun _ => callAfter_qualified accepts⟩

private theorem termOf_literal (value : Literal) :
    termOf reader operand (after.before [value.val]) = .ok (.literal value, after) := by
  rw [termOf, bind_of (accept_before value after [])]
  rfl

private theorem termOf_of_name (name : Name) (tokens : List Token) :
    termOf reader operand (after.before (name.val :: tokens)) =
      termAfter reader name (after.before tokens) := by
  simp only [termOf, bind_of (accept_other (Token.isLiteral_of_isName name.property) after tokens),
    bind_of (accept_before name after tokens)]

private theorem termOf_name (name : Name) (ends : after.token.isOneOf accessMarks = false) :
    termOf reader operand (after.before [name.val]) = .ok (.name name, after) := by
  have call : after.token.isOneOf [".", "("] = false := Token.isOneOf_subset ends (by decide)
  have element : after.token.isOneOf ["["] = false := Token.isOneOf_subset ends (by decide)
  rw [termOf_of_name, Cursor.before_nil, termAfter, bind_of (current_of _),
    if_neg (by simp [call]), bind_of (accept_none element)]
  rfl

private theorem termOf_element (array : Name) (opening : Word ["["]) {index : Expression}
    (closing : Word ["]"]) (accepts : AcceptsExpression reader index) :
    termOf reader operand (after.before (Term.element array opening index closing).tokens) =
      .ok (.element array opening index closing, after) := by
  have call : opening.val.isOneOf [".", "("] = false := opening.apart (by decide)
  rw [Term.tokens, termOf_of_name, termAfter, bind_of (current_of _), Cursor.token_before_cons,
    if_neg (by simp [call]), bind_of (accept_before opening after _), Cursor.before_append]
  dsimp only
  rw [bind_of (accepts _ (closing.apart (by decide))), bind_of (expect_before closing after [])]
  rfl

private theorem termOf_call {c : Call} (accepts : AcceptsCall reader c) :
    termOf reader operand (after.before (Term.call c).tokens) = .ok (.call c, after) := by
  obtain ⟨name, mark, rest, same, marks, takes⟩ := accepts
  rw [Term.tokens, same, termOf_of_name, termAfter, bind_of (current_of _),
    Cursor.token_before_cons, if_pos marks, bind_of (takes after)]
  rfl

private theorem termOf_group (opening : SymbolWord ["("]) {inner : Expression}
    (closing : Word [")"]) (accepts : AcceptsExpression reader inner) :
    termOf reader operand (after.before (Term.group opening inner closing).tokens) =
      .ok (.group opening inner closing, after) := by
  simp only [Term.tokens, termOf,
    bind_of (accept_other (Token.isLiteral_of_isSymbolOf opening.property) after _),
    bind_of (accept_other (Token.isName_of_isSymbolOf opening.property) after _),
    bind_of (accept_before opening after _), Cursor.before_append]
  rw [bind_of (accepts _ (closing.apart (by decide))), bind_of (expect_before closing after [])]
  rfl

private theorem termOf_unary (operator : SymbolWord unaryOperators) {t : Term}
    (takes : operand (after.before t.tokens) = .ok (t, after)) :
    termOf reader operand (after.before (Term.unary operator t).tokens) =
      .ok (.unary operator t, after) := by
  have group : operator.val.isSymbolOf ["("] = false :=
    Token.isSymbolOf_apart operator.property (by decide)
  simp only [Term.tokens, termOf,
    bind_of (accept_other (Token.isLiteral_of_isSymbolOf operator.property) after _),
    bind_of (accept_other (Token.isName_of_isSymbolOf operator.property) after _),
    bind_of (accept_other group after _),
    bind_of (accept_before operator after _), bind_of takes]
  rfl

end Expressions

/-- Reading the first operand of an expression and then its operators leaves room for as many more
operators as there was, less those read. The statement is about what follows the first operand, since
an expression is built from its left end. -/
private abbrev RunsThrough (room : Nat) (e : Expression) : Prop :=
  ∀ after, after.token.isOneOf accessMarks = false →
    expression room (after.before e.tokens) = operators (room - e.operators) e after

private theorem RunsThrough.accepts {room : Nat} {e : Expression} (runs : RunsThrough room e) :
    AcceptsExpression (expression room) e := fun _ ends =>
  (runs _ (ends_accessMarks ends)).trans (operators_end (ends_binaryOperators ends))

private theorem runsThrough_binary {room : Nat} {left : Expression} {operator : Word binaryOperators}
    {right : Term} (first : RunsThrough room left)
    (fits : left.operators + 1 + right.nesting ≤ room)
    (second : ∀ after, after.token.isOneOf accessMarks = false →
      term (room - left.operators - 1) (after.before right.tokens) = .ok (right, after)) :
    RunsThrough room (.binary left operator right) := by
  intro after ends
  have more : room - left.operators = room - left.operators - 1 + 1 := by omega
  rw [Expression.tokens, Cursor.before_append, first _ (operator.apart (by decide)), more,
    operators, bind_of (current_of _), Cursor.token_before_cons, if_pos operator.property,
    bind_of (expect_before operator after _), bind_of (second after ends), Expression.operators,
    Nat.sub_sub]

private theorem expressions_before :
    (∀ (e : Expression) room, e.nesting ≤ room → RunsThrough room e) ∧
    (∀ (t : Term) room, t.nesting ≤ room → ∀ after, after.token.isOneOf accessMarks = false →
      term room (after.before t.tokens) = .ok (t, after)) ∧
    (∀ (c : Call) room, c.nesting ≤ room → AcceptsCall (expression room) c) ∧
    (∀ (a : Arguments) room, a.nesting ≤ room → AcceptsArguments (expression room) a) := by
  apply Expression.induction
  case term =>
    intro t ih room fits after ends
    rw [Expression.tokens, expression, bind_of (ih room fits after ends)]
    rfl
  case binary =>
    intro left operator right first second room fits
    obtain ⟨fits₁, fits₂⟩ := Nat.max_le.mp fits
    exact runsThrough_binary (first room fits₁) fits₂ (second _ (by omega))
  case literal =>
    intro value room fits after _
    cases room with
    | zero => cases fits
    | succ room => exact termOf_literal value
  case name =>
    intro name room fits after ends
    cases room with
    | zero => cases fits
    | succ room => exact termOf_name name ends
  case element =>
    intro array opening index closing ih room fits after _
    cases room with
    | zero => cases fits
    | succ room =>
      exact termOf_element array opening closing (ih room (Nat.le_of_succ_le_succ fits)).accepts
  case call =>
    intro c ih room fits after _
    cases room with
    | zero => cases fits
    | succ room => exact termOf_call (ih room (Nat.le_of_succ_le_succ fits))
  case group =>
    intro opening inner closing ih room fits after _
    cases room with
    | zero => cases fits
    | succ room => exact termOf_group opening closing (ih room (Nat.le_of_succ_le_succ fits)).accepts
  case unary =>
    intro operator t ih room fits after ends
    cases room with
    | zero => cases fits
    | succ room => exact termOf_unary operator (ih room (Nat.le_of_succ_le_succ fits) after ends)
  case bare =>
    intro name opening arguments closing ih room fits
    exact acceptsCall_bare (ih room fits)
  case qualified =>
    intro qualifier dot name opening arguments closing ih room fits
    exact acceptsCall_qualified (ih room fits)
  case empty => exact fun room _ => argumentsOf_empty
  case listed =>
    intro first more one each room fits
    obtain ⟨fits₁, fits₂⟩ := Nat.max_le.mp fits
    have fits₂ := (moreArgumentNesting_le more room).mp fits₂
    exact argumentsOf_listed (one room fits₁).accepts fun pair member =>
      (each pair member room (fits₂ pair member)).accepts

theorem expression_before {e : Expression} {room : Nat} (fits : e.nesting ≤ room) {after : Cursor}
    (ends : after.token.isOneOf (accessMarks ++ binaryOperators) = false) :
    expression room (after.before e.tokens) = .ok (e, after) :=
  (expressions_before.1 e room fits).accepts after ends

theorem term_before {t : Term} {room : Nat} (fits : t.nesting ≤ room) {after : Cursor}
    (ends : after.token.isOneOf accessMarks = false) :
    term room (after.before t.tokens) = .ok (t, after) :=
  expressions_before.2.1 t room fits after ends

theorem argumentsOf_before {a : Arguments} {room : Nat} (fits : a.nesting ≤ room) {after : Cursor}
    (ends : EndsArguments after.token) :
    argumentsOf (expression room) (after.before a.tokens) = .ok (a, after) :=
  expressions_before.2.2.2 a room fits after ends

/-! ## Statements -/

section Statements

variable {reader : Parse Expression} {block : Parse Block} {after : Cursor}

private abbrev AcceptsBlock (block : Parse Block) (body : Block) : Prop :=
  ∀ after, block (after.before body.tokens) = .ok (body, after)

private abbrev AcceptsStatement (reader : Parse Expression) (block : Parse Block) (s : Statement) :
    Prop :=
  ∀ after, after.token.isOneOf ["else"] = false →
    statementOf reader block (after.before s.tokens) = .ok (s, after)

private theorem letStatement_assign {keyword : Word ["let"]} {target : Name} {equals : Word ["="]}
    {value : Expression} {semicolon : Word [";"]} (accepts : AcceptsExpression reader value) :
    letStatement reader
        (after.before (Statement.assign keyword target equals value semicolon).tokens) =
      .ok (.assign keyword target equals value semicolon, after) := by
  have element : equals.val.isOneOf ["["] = false := equals.apart (by decide)
  simp only [letStatement, Statement.tokens, bind_of (expect_before keyword after _),
    bind_of (name_before target after _), bind_of (accept_other element after _),
    bind_of (expect_before equals after _), Cursor.before_append]
  rw [bind_of (accepts _ (semicolon.apart (by decide))), bind_of (expect_before semicolon after [])]
  rfl

private theorem letStatement_assignElement {keyword : Word ["let"]} {array : Name}
    {opening : Word ["["]} {index : Expression} {closing : Word ["]"]} {equals : Word ["="]}
    {value : Expression} {semicolon : Word [";"]} (acceptsIndex : AcceptsExpression reader index)
    (accepts : AcceptsExpression reader value) :
    letStatement reader (after.before
        (Statement.assignElement keyword array opening index closing equals value semicolon).tokens) =
      .ok (.assignElement keyword array opening index closing equals value semicolon, after) := by
  simp only [letStatement, Statement.tokens, bind_of (expect_before keyword after _),
    bind_of (name_before array after _), bind_of (accept_before opening after _),
    Cursor.before_append]
  rw [bind_of (acceptsIndex _ (closing.apart (by decide))),
    bind_of (expect_before closing after _), bind_of (expect_before equals after _),
    Cursor.before_append, bind_of (accepts _ (semicolon.apart (by decide))),
    bind_of (expect_before semicolon after [])]
  rfl

private theorem ifStatement_ifThen {keyword : Word ["if"]} {opening : Word ["("]}
    {condition : Expression} {closing : Word [")"]} {body : Block}
    (accepts : AcceptsExpression reader condition) (acceptsBody : AcceptsBlock block body)
    (ends : after.token.isOneOf ["else"] = false) :
    ifStatement reader block
        (after.before (Statement.ifThen keyword opening condition closing body).tokens) =
      .ok (.ifThen keyword opening condition closing body, after) := by
  rw [ifStatement, Statement.tokens, bind_of (expect_before keyword after _),
    bind_of (expect_before opening after _), Cursor.before_append,
    bind_of (accepts _ (closing.apart (by decide))), bind_of (expect_before closing after _),
    bind_of (acceptsBody after), bind_of (accept_none ends)]
  rfl

private theorem ifStatement_ifElse {keyword : Word ["if"]} {opening : Word ["("]}
    {condition : Expression} {closing : Word [")"]} {body : Block} {otherwise : Word ["else"]}
    {alternative : Block} (accepts : AcceptsExpression reader condition)
    (acceptsBody : AcceptsBlock block body) (acceptsOther : AcceptsBlock block alternative) :
    ifStatement reader block (after.before
        (Statement.ifElse keyword opening condition closing body otherwise alternative).tokens) =
      .ok (.ifElse keyword opening condition closing body otherwise alternative, after) := by
  rw [ifStatement, Statement.tokens, bind_of (expect_before keyword after _),
    bind_of (expect_before opening after _), Cursor.before_append,
    bind_of (accepts _ (closing.apart (by decide))), bind_of (expect_before closing after _),
    Cursor.before_append, bind_of (acceptsBody _), bind_of (accept_before otherwise after _)]
  dsimp only
  rw [bind_of (acceptsOther after)]
  rfl

private theorem whileStatement_loop {keyword : Word ["while"]} {opening : Word ["("]}
    {condition : Expression} {closing : Word [")"]} {body : Block}
    (accepts : AcceptsExpression reader condition) (acceptsBody : AcceptsBlock block body) :
    whileStatement reader block
        (after.before (Statement.loop keyword opening condition closing body).tokens) =
      .ok (.loop keyword opening condition closing body, after) := by
  rw [whileStatement, Statement.tokens, bind_of (expect_before keyword after _),
    bind_of (expect_before opening after _), Cursor.before_append,
    bind_of (accepts _ (closing.apart (by decide))), bind_of (expect_before closing after _),
    bind_of (acceptsBody after)]
  rfl

private theorem doStatement_perform {keyword : Word ["do"]} {call : Call} {semicolon : Word [";"]}
    (accepts : AcceptsCall reader call) :
    doStatement reader (after.before (Statement.perform keyword call semicolon).tokens) =
      .ok (.perform keyword call semicolon, after) := by
  obtain ⟨callee, mark, rest, same, -, takes⟩ := accepts
  rw [doStatement, Statement.tokens, bind_of (expect_before keyword after _), same,
    List.cons_append, bind_of (name_before callee after _), Cursor.before_append,
    bind_of (takes _), bind_of (expect_before semicolon after [])]
  rfl

private theorem returnStatement_returnNothing {keyword : Word ["return"]} {semicolon : Word [";"]} :
    returnStatement reader (after.before (Statement.returnNothing keyword semicolon).tokens) =
      .ok (.returnNothing keyword semicolon, after) := by
  rw [returnStatement, Statement.tokens, bind_of (expect_before keyword after _),
    bind_of (accept_before semicolon after [])]
  rfl

private theorem returnStatement_returnValue {keyword : Word ["return"]} {value : Expression}
    {semicolon : Word [";"]} (accepts : AcceptsExpression reader value) :
    returnStatement reader (after.before (Statement.returnValue keyword value semicolon).tokens) =
      .ok (.returnValue keyword value semicolon, after) := by
  obtain ⟨token, rest, same, starts⟩ := value.tokens_starts
  have other : token.isOneOf [";"] = false := Token.isOneOf_of_startsTerm starts (by decide)
  rw [returnStatement, Statement.tokens, bind_of (expect_before keyword after _),
    Cursor.before_append, same, bind_of (accept_other other _ _)]
  dsimp only
  rw [← same, bind_of (accepts _ (semicolon.apart (by decide))),
    bind_of (expect_before semicolon after [])]
  rfl

private theorem statementOf_of_word {word : String} (keyword : Word [word]) (tokens : List Token) :
    statementOf reader block (after.before (keyword.val :: tokens)) =
      (match word with
        | "let" => letStatement reader
        | "do" => doStatement reader
        | "if" => ifStatement reader block
        | "while" => whileStatement reader block
        | _ => returnStatement reader) (after.before (keyword.val :: tokens)) := by
  rewrite [statementOf, bind_of (current_of _), Cursor.token_before_cons, keyword.value_eq]
  rfl

private theorem blockOf_braced {list : Parse (List Statement)} {opening : Word ["\x7b"]}
    {statements : List Statement} {closing : Word ["\x7d"]}
    (takes : ∀ after : Cursor, after.token.isOneOf ("else" :: statementWords) = false →
      list (after.before (statementTokens statements)) = .ok (statements, after)) :
    AcceptsBlock (blockOf list) (.braced opening statements closing) := by
  intro after
  rw [blockOf, Block.tokens, bind_of (expect_before opening after _), Cursor.before_append,
    bind_of (takes _ (closing.apart (by decide))), bind_of (expect_before closing after [])]
  rfl

end Statements

private theorem statements_of_each {list : List Statement} {room : Nat}
    (each : ∀ s ∈ list,
      AcceptsStatement (expression room) (blockOf (statements room)) s) (after : Cursor)
    (ends : after.token.isOneOf ("else" :: statementWords) = false) :
    statements (room + 1) (after.before (statementTokens list)) = .ok (list, after) := by
  rw [statementTokens_eq, statements]
  refine repeatWhile_before (·.isOneOf ["else"] = false) each (fun s _ => s.tokens_starts)
    (fun token word => Token.isOneOf_apart word (by decide)) after ?_ ?_
  · exact Token.isOneOf_subset ends (by decide)
  · exact Token.isOneOf_subset ends (by decide)

private theorem statements_blocks_before :
    (∀ (s : Statement) room, s.nesting ≤ room →
      AcceptsStatement (expression room) (blockOf (statements room)) s) ∧
    (∀ (b : Block) room, b.nesting ≤ room → AcceptsBlock (blockOf (statements room)) b) := by
  have accepts (e : Expression) (room : Nat) (fits : e.nesting ≤ room) :
      AcceptsExpression (expression room) e := fun _ => expression_before fits
  apply Statement.induction
  case assign =>
    intro keyword target equals value semicolon room fits after _
    exact (statementOf_of_word keyword _).trans (letStatement_assign (accepts value room fits))
  case assignElement =>
    intro keyword array opening index closing equals value semicolon room fits after _
    obtain ⟨fits₁, fits₂⟩ := Nat.max_le.mp fits
    exact (statementOf_of_word keyword _).trans
      (letStatement_assignElement (accepts index room fits₁) (accepts value room fits₂))
  case ifThen =>
    intro keyword opening condition closing body ih room fits after ends
    obtain ⟨fits₁, fits₂⟩ := Nat.max_le.mp fits
    exact (statementOf_of_word keyword _).trans
      (ifStatement_ifThen (accepts condition room fits₁) (ih room fits₂) ends)
  case ifElse =>
    intro keyword opening condition closing body otherwise alternative ih ih' room fits after _
    obtain ⟨fits₁, fits⟩ := Nat.max_le.mp fits
    obtain ⟨fits₂, fits₃⟩ := Nat.max_le.mp fits
    exact (statementOf_of_word keyword _).trans
      (ifStatement_ifElse (accepts condition room fits₁) (ih room fits₂) (ih' room fits₃))
  case loop =>
    intro keyword opening condition closing body ih room fits after _
    obtain ⟨fits₁, fits₂⟩ := Nat.max_le.mp fits
    exact (statementOf_of_word keyword _).trans
      (whileStatement_loop (accepts condition room fits₁) (ih room fits₂))
  case perform =>
    intro keyword call semicolon room fits after _
    exact (statementOf_of_word keyword _).trans
      (doStatement_perform (expressions_before.2.2.1 call room fits))
  case returnNothing =>
    intro keyword semicolon room _ after _
    exact (statementOf_of_word keyword _).trans returnStatement_returnNothing
  case returnValue =>
    intro keyword value semicolon room fits after _
    exact (statementOf_of_word keyword _).trans
      (returnStatement_returnValue (accepts value room fits))
  case braced =>
    intro opening list closing ih room fits
    cases room with
    | zero => cases fits
    | succ room =>
      have fits := (deepestStatement_le list room).mp (Nat.le_of_succ_le_succ fits)
      exact blockOf_braced (statements_of_each fun s member => ih s member room (fits s member))

theorem statement_before {s : Statement} {room : Nat} (fits : s.nesting ≤ room) {after : Cursor}
    (ends : after.token.isOneOf ["else"] = false) :
    statement room (after.before s.tokens) = .ok (s, after) :=
  statements_blocks_before.1 s room fits after ends

theorem statements_before {list : List Statement} {room : Nat}
    (fits : statementsNesting list ≤ room) {after : Cursor}
    (ends : after.token.isOneOf ("else" :: statementWords) = false) :
    statements room (after.before (statementTokens list)) = .ok (list, after) := by
  cases room with
  | zero => cases fits
  | succ room =>
    have fits := (deepestStatement_le list room).mp (Nat.le_of_succ_le_succ fits)
    exact statements_of_each
      (fun s member => statements_blocks_before.1 s room (fits s member)) after ends

/-! ## Declarations -/

theorem typeName_before (type : TypeName) (after : Cursor) :
    typeName (after.before type.tokens) = .ok (type, after) := by
  cases type with
  | builtIn word =>
    rw [typeName, TypeName.tokens, bind_of (accept_before word after [])]
    rfl
  | named name =>
    rw [typeName, TypeName.tokens, bind_of (accept_other (name.isOneOf _) after [])]
    dsimp only
    rw [bind_of (name_before name after [])]
    rfl

theorem returnType_before (type : ReturnType) (after : Cursor) :
    returnType (after.before type.tokens) = .ok (type, after) := by
  cases type with
  | void word =>
    rw [returnType, ReturnType.tokens, bind_of (accept_before word after [])]
    rfl
  | value type =>
    have other : (after.before type.tokens).token.isOneOf ["void"] = false := by
      cases type with
      | builtIn word => exact word.apart (by decide)
      | named name => exact name.isOneOf _
    rw [returnType, ReturnType.tokens, bind_of (accept_none other)]
    dsimp only
    rw [bind_of (typeName_before type after)]
    rfl

theorem nameList_before (names : NameList) {after : Cursor}
    (ends : after.token.isOneOf [","] = false) :
    nameList (after.before names.tokens) = .ok (names, after) := by
  rw [nameList, NameList.tokens, bind_of (name_before names.first after _),
    bind_of (afterCommas_before (fun _ => True) names.more
      (fun pair _ after _ => name_before pair.2 after []) (fun _ _ => trivial) after ends trivial)]
  rfl

theorem parameter_before (parameter : Parameter) (after : Cursor) :
    Parse.parameter (after.before parameter.tokens) = .ok (parameter, after) := by
  rw [Parse.parameter, Parameter.tokens, Cursor.before_append,
    bind_of (typeName_before parameter.type _), bind_of (name_before parameter.name after [])]
  rfl

theorem parameters_before (parameters : Parameters) {after : Cursor}
    (ends : after.token.startsType = false) (comma : after.token.isOneOf [","] = false) :
    Parse.parameters (after.before parameters.tokens) = .ok (parameters, after) := by
  cases parameters with
  | empty =>
    rw [Parse.parameters, Parameters.tokens, Cursor.before_nil, bind_of (current_of _),
      if_neg (by simp [ends])]
    rfl
  | listed first more =>
    obtain ⟨token, rest, same, starts⟩ := first.tokens_starts
    rw [Parse.parameters, Parameters.tokens, Cursor.before_append, bind_of (current_of _), same,
      Cursor.token_before_cons, if_pos starts, ← same, bind_of (parameter_before first _),
      bind_of (afterCommas_before (fun _ => True) more
        (fun pair _ after _ => parameter_before pair.2 after) (fun _ _ => trivial) after comma
        trivial)]
    rfl

theorem classVariables_before (declaration : ClassVariables) (after : Cursor) :
    classVariables (after.before declaration.tokens) = .ok (declaration, after) := by
  obtain ⟨scope, type, names, semicolon⟩ := declaration
  rw [classVariables, ClassVariables.tokens, bind_of (expect_before scope after _),
    Cursor.before_append, bind_of (typeName_before type _), Cursor.before_append,
    bind_of (nameList_before names (semicolon.apart (by decide))),
    bind_of (expect_before semicolon after [])]
  rfl

theorem localVariables_before (declaration : LocalVariables) (after : Cursor) :
    localVariables (after.before declaration.tokens) = .ok (declaration, after) := by
  obtain ⟨keyword, type, names, semicolon⟩ := declaration
  rw [localVariables, LocalVariables.tokens, bind_of (expect_before keyword after _),
    Cursor.before_append, bind_of (typeName_before type _), Cursor.before_append,
    bind_of (nameList_before names (semicolon.apart (by decide))),
    bind_of (expect_before semicolon after [])]
  rfl

private theorem locals_before (locals : List LocalVariables) {after : Cursor}
    (stops : after.token.isOneOf ["var"] = false) :
    repeatWhile (Token.isOneOf ["var"]) localVariables
      (after.before (locals.flatMap LocalVariables.tokens)) = .ok (locals, after) :=
  repeatWhile_before (fun _ => True) (fun x _ after _ => localVariables_before x after)
    (fun x _ => ⟨_, _, rfl, x.keyword.property⟩) (fun _ _ => trivial) after stops trivial

private theorem stops_locals (list : List Statement) (closing : Word ["\x7d"]) (after : Cursor) :
    ((after.before [closing.val]).before (statementTokens list)).token.isOneOf ["var"] = false := by
  rw [statementTokens_eq]
  rcases token_before_repeated list (fun s _ => s.tokens_starts) (after.before [closing.val])
    with word | same
  · exact Token.isOneOf_apart word (by decide)
  · rw [same]; exact closing.apart (by decide)

theorem subroutineBody_before {body : SubroutineBody} (fits : body.nesting ≤ maxNesting)
    (after : Cursor) : subroutineBody (after.before body.tokens) = .ok (body, after) := by
  obtain ⟨opening, locals, list, closing⟩ := body
  have stops := stops_locals list closing after
  rw [subroutineBody, SubroutineBody.tokens, bind_of (expect_before opening after _),
    Cursor.before_append, Cursor.before_append,
    bind_of (locals_before locals stops),
    bind_of (statements_before fits (closing.apart (by decide))),
    bind_of (expect_before closing after [])]
  rfl

private theorem startsType_of_closing (closing : Word [")"]) :
    closing.val.startsType = false := by
  rw [Token.startsType, closing.apart (by decide), Token.isName_of_isOneOf closing.property]
  rfl

theorem subroutineDeclaration_before {subroutine : SubroutineDeclaration}
    (fits : subroutine.nesting ≤ maxNesting) (after : Cursor) :
    subroutineDeclaration (after.before subroutine.tokens) = .ok (subroutine, after) := by
  obtain ⟨keyword, type, name, opening, parameters, closing, body⟩ := subroutine
  rw [subroutineDeclaration, SubroutineDeclaration.tokens, bind_of (expect_before keyword after _),
    Cursor.before_append, bind_of (returnType_before type _), bind_of (name_before name after _),
    bind_of (expect_before opening after _), Cursor.before_append,
    bind_of (parameters_before parameters (startsType_of_closing closing)
      (closing.apart (by decide))),
    bind_of (expect_before closing after _), bind_of (subroutineBody_before fits after)]
  rfl

theorem classDeclarations_before (declarations : List ClassVariables) {after : Cursor}
    (ends : after.token.isOneOf classVariableWords = false) :
    classDeclarations (after.before (declarations.flatMap ClassVariables.tokens)) =
      .ok (declarations, after) :=
  repeatWhile_before (fun _ => True) (fun x _ after _ => classVariables_before x after)
    (fun x _ => ⟨_, _, rfl, x.scope.property⟩) (fun _ _ => trivial) after ends trivial

private theorem starts_subroutine (subroutines : List SubroutineDeclaration) :
    ∀ x ∈ subroutines,
      ∃ token rest, x.tokens = token :: rest ∧ token.isOneOf subroutineWords = true :=
  fun x _ => ⟨_, _, rfl, x.keyword.property⟩

private theorem stops_classVariables (subroutines : List SubroutineDeclaration)
    (closing : Word ["\x7d"]) (after : Cursor) :
    ((after.before [closing.val]).before
      (subroutines.flatMap SubroutineDeclaration.tokens)).token.isOneOf classVariableWords =
        false := by
  rcases token_before_repeated subroutines (starts_subroutine subroutines)
    (after.before [closing.val]) with word | same
  · exact Token.isOneOf_apart word (by decide)
  · rw [same]; exact closing.apart (by decide)

theorem classDeclaration_before {declaration : ClassDeclaration}
    (fits : declaration.nesting ≤ maxNesting) (after : Cursor) :
    classDeclaration (after.before declaration.tokens) = .ok (declaration, after) := by
  obtain ⟨keyword, name, opening, declarations, subroutines, closing⟩ := declaration
  have fits := (ClassDeclaration.nesting_le _ _).mp fits
  have stops := stops_classVariables subroutines closing after
  rw [classDeclaration, ClassDeclaration.tokens, bind_of (expect_before keyword after _),
    bind_of (name_before name after _), bind_of (expect_before opening after _),
    Cursor.before_append, Cursor.before_append, bind_of (classDeclarations_before declarations stops),
    bind_of (repeatWhile_before (fun _ => True)
      (fun x member after _ => subroutineDeclaration_before (fits x member) after)
      (starts_subroutine subroutines) (fun _ _ => trivial) _ (closing.apart (by decide)) trivial),
    bind_of (expect_before closing after [])]
  rfl

/-! ## Whole inputs -/

private theorem isOneOf_of_eof {token : Token} (close : token.kind = .eof) (values : List String) :
    token.isOneOf values = false :=
  Token.not_isOneOf_of_kind (by simp [close]) (by simp [close])

private theorem endsArguments_of_eof {token : Token} (close : token.kind = .eof) :
    EndsArguments token :=
  ⟨by simp [Token.startsTerm, Token.isLiteral, Token.isName, Token.isSymbolOf, close],
    isOneOf_of_eof close _⟩

private theorem startsType_of_eof {token : Token} (close : token.kind = .eof) :
    token.startsType = false := by
  simp [Token.startsType, Token.isOneOf, Token.isName, close]

private theorem map_of {reader : Parse α} {make : α → Phrase} {cursor after : Cursor} {x : α}
    (read : reader cursor = .ok (x, after)) : (make <$> reader) cursor = .ok (make x, after) := by
  rw [map_eq_pure_bind, bind_of read]
  rfl

theorem phrase_before {p : Phrase} (fits : p.nesting ≤ maxNesting) (after : Cursor)
    (close : after.token.kind = .eof) : phrase p.entry (after.before p.tokens) = .ok (p, after) := by
  have ends := isOneOf_of_eof close
  cases p with
  | classDeclaration declaration => exact map_of (classDeclaration_before fits after)
  | classVariables declarations => exact map_of (classDeclarations_before declarations (ends _))
  | subroutineDeclaration declaration => exact map_of (subroutineDeclaration_before fits after)
  | parameters list => exact map_of (parameters_before list (startsType_of_eof close) (ends _))
  | subroutineBody body => exact map_of (subroutineBody_before fits after)
  | statements list => exact map_of (statements_before fits (ends _))
  | statement statement => exact map_of (statement_before fits (ends _))
  | expression expression => exact map_of (expression_before fits (ends _))
  | term term => exact map_of (term_before fits (ends _))
  | arguments list => exact map_of (argumentsOf_before fits (endsArguments_of_eof close))

/-! ## Tokens before a place -/

section Before

variable {after after' : Cursor}

private theorem eq_of_read {α : Type} {reader : Parse α} {x y : α} {cursor cursor' : Cursor}
    (same : cursor = cursor') (read : reader cursor = .ok (x, after))
    (read' : reader cursor' = .ok (y, after')) : x = y ∧ after = after' := by
  rw [same, read'] at read
  cases read
  exact ⟨rfl, rfl⟩

private theorem leaf_of_before {test : Token → Bool} {leaf leaf' : TokenWith test}
    {tokens tokens' : List Token}
    (same : after.before (leaf.val :: tokens) = after'.before (leaf'.val :: tokens')) :
    leaf = leaf' ∧ after.before tokens = after'.before tokens' :=
  (Cursor.before_cons_inj same).imp_left Subtype.ext

private theorem body_of_before {body body' : SubroutineBody}
    (same : after.before body.tokens = after'.before body'.tokens) :
    body = body' ∧ after = after' := by
  obtain ⟨opening, locals, list, closing⟩ := body
  obtain ⟨opening', locals', list', closing'⟩ := body'
  obtain ⟨rfl, rest₁⟩ := leaf_of_before same
  rw [Cursor.before_append, Cursor.before_append, Cursor.before_append, Cursor.before_append] at rest₁
  obtain ⟨rfl, rest₂⟩ := eq_of_read rest₁ (locals_before locals (stops_locals list closing after))
    (locals_before locals' (stops_locals list' closing' after'))
  obtain ⟨rfl, rest₃⟩ := eq_of_read rest₂
    (statements_before (Nat.le_max_left (statementsNesting list) (statementsNesting list'))
      (closing.apart (by decide)))
    (statements_before (Nat.le_max_right _ _) (closing'.apart (by decide)))
  obtain ⟨rfl, rest₄⟩ := leaf_of_before rest₃
  exact ⟨rfl, rest₄⟩

private theorem subroutine_of_before {s s' : SubroutineDeclaration}
    (same : after.before s.tokens = after'.before s'.tokens) : s = s' ∧ after = after' := by
  obtain ⟨keyword, type, name, opening, parameters, closing, body⟩ := s
  obtain ⟨keyword', type', name', opening', parameters', closing', body'⟩ := s'
  obtain ⟨rfl, rest₁⟩ := leaf_of_before same
  rw [Cursor.before_append, Cursor.before_append] at rest₁
  obtain ⟨rfl, rest₂⟩ := eq_of_read rest₁ (returnType_before type _) (returnType_before type' _)
  obtain ⟨rfl, rest₃⟩ := leaf_of_before rest₂
  obtain ⟨rfl, rest₄⟩ := leaf_of_before rest₃
  rw [Cursor.before_append, Cursor.before_append] at rest₄
  obtain ⟨rfl, rest₅⟩ := eq_of_read rest₄
    (parameters_before parameters (startsType_of_closing closing) (closing.apart (by decide)))
    (parameters_before parameters' (startsType_of_closing closing') (closing'.apart (by decide)))
  obtain ⟨rfl, rest₆⟩ := leaf_of_before rest₅
  obtain ⟨rfl, rest₇⟩ := body_of_before rest₆
  exact ⟨rfl, rest₇⟩

private theorem subroutines_of_before {subroutines subroutines' : List SubroutineDeclaration}
    (ends : after.token.isOneOf subroutineWords = false)
    (ends' : after'.token.isOneOf subroutineWords = false)
    (same : after.before (subroutines.flatMap SubroutineDeclaration.tokens) =
      after'.before (subroutines'.flatMap SubroutineDeclaration.tokens)) :
    subroutines = subroutines' ∧ after = after' := by
  -- Another subroutine would start with a word that does not stand after all of them.
  have more (s : SubroutineDeclaration) (next : Cursor) :
      (next.before s.tokens).token.isOneOf subroutineWords = true := s.keyword.property
  induction subroutines generalizing subroutines' with
  | nil =>
    cases subroutines' with
    | nil => exact ⟨rfl, same⟩
    | cons s' subroutines' =>
      rw [List.flatMap_nil, Cursor.before_nil, List.flatMap_cons, Cursor.before_append] at same
      rw [same, more] at ends
      cases ends
  | cons s subroutines ih =>
    rw [List.flatMap_cons, Cursor.before_append] at same
    cases subroutines' with
    | nil =>
      rw [List.flatMap_nil, Cursor.before_nil] at same
      rw [← same, more] at ends'
      cases ends'
    | cons s' subroutines' =>
      rw [List.flatMap_cons, Cursor.before_append] at same
      obtain ⟨rfl, rest⟩ := subroutine_of_before same
      obtain ⟨rfl, last⟩ := ih rest
      exact ⟨rfl, last⟩

private theorem class_of_before {d d' : ClassDeclaration}
    (same : after.before d.tokens = after'.before d'.tokens) : d = d' ∧ after = after' := by
  obtain ⟨keyword, name, opening, declarations, subroutines, closing⟩ := d
  obtain ⟨keyword', name', opening', declarations', subroutines', closing'⟩ := d'
  obtain ⟨rfl, rest₁⟩ := leaf_of_before same
  obtain ⟨rfl, rest₂⟩ := leaf_of_before rest₁
  obtain ⟨rfl, rest₃⟩ := leaf_of_before rest₂
  rw [Cursor.before_append, Cursor.before_append, Cursor.before_append, Cursor.before_append] at rest₃
  obtain ⟨rfl, rest₄⟩ := eq_of_read rest₃
    (classDeclarations_before declarations (stops_classVariables subroutines closing _))
    (classDeclarations_before declarations' (stops_classVariables subroutines' closing' _))
  obtain ⟨rfl, rest₅⟩ := subroutines_of_before (closing.apart (by decide))
    (closing'.apart (by decide)) rest₄
  obtain ⟨rfl, rest₆⟩ := leaf_of_before rest₅
  exact ⟨rfl, rest₆⟩

end Before

end Parse

theorem parse_of_phrase {phrase : Phrase} (fits : phrase.nesting ≤ maxNesting) (close : Token)
    (ends : close.kind = .eof) (rest : List Item) :
    parse phrase.entry (phrase.tokens.map .ok ++ .ok close :: rest) = .ok phrase := by
  have start := Cursor.items_before ⟨close, rest⟩ phrase.tokens
  have read := Parse.phrase_before fits ⟨close, rest⟩ ends
  rw [← show Cursor.items ⟨close, rest⟩ = .ok close :: rest from rfl, ← start, Cursor.items]
  change (Parse.phrase phrase.entry _ >>= _) = _
  rw [read]
  exact if_pos ends

theorem Phrase.eq_of_tokens_eq {first second : Phrase} (same : first.entry = second.entry)
    (tokens : first.tokens = second.tokens) (fits : first.nesting ≤ maxNesting)
    (fits' : second.nesting ≤ maxNesting) : first = second := by
  have read := parse_of_phrase fits (.endOfFile 1) rfl []
  have read' := parse_of_phrase fits' (.endOfFile 1) rfl []
  rw [same, tokens, read'] at read
  exact (Except.ok.inj read).symm

theorem Expression.eq_of_tokens_eq {first second : Expression}
    (tokens : first.tokens = second.tokens) : first = second := by
  -- An expression of any depth is the only one with its tokens.
  let after : Cursor := ⟨.endOfFile 1, []⟩
  have ends (values : List String) : after.token.isOneOf values = false := rfl
  have read := Parse.expression_before (Nat.le_max_left first.nesting second.nesting) (ends _)
  have read' := Parse.expression_before (Nat.le_max_right first.nesting second.nesting) (ends _)
  rw [tokens, read'] at read
  exact (congrArg Prod.fst (Except.ok.inj read)).symm

theorem statements_eq_of_tokens_eq {first second : List Statement}
    (tokens : statementTokens first = statementTokens second) : first = second := by
  let after : Cursor := ⟨.endOfFile 1, []⟩
  have ends (values : List String) : after.token.isOneOf values = false := rfl
  have read := Parse.statements_before
    (Nat.le_max_left (statementsNesting first) (statementsNesting second)) (ends _)
  have read' := Parse.statements_before
    (Nat.le_max_right (statementsNesting first) (statementsNesting second)) (ends _)
  rw [tokens, read'] at read
  exact (congrArg Prod.fst (Except.ok.inj read)).symm

theorem ClassDeclaration.eq_of_tokens_eq {first second : ClassDeclaration}
    (tokens : first.tokens = second.tokens) : first = second :=
  (Parse.class_of_before (congrArg (Cursor.before ⟨.endOfFile 1, []⟩) tokens)).1

end JackCompiler
