import JackCompiler.Proofs.Phrase.Tokens

namespace JackCompiler

/-- The place in front of some tokens that lead to `after`. -/
def Cursor.before (after : Cursor) : List Token → Cursor
  | [] => after
  | token :: tokens => ⟨token, .ok (after.before tokens).token :: (after.before tokens).rest⟩

namespace Cursor

@[simp]
theorem before_nil (after : Cursor) : after.before [] = after := rfl

theorem before_append (after : Cursor) (first second : List Token) :
    after.before (first ++ second) = (after.before second).before first := by
  induction first with
  | nil => rfl
  | cons token first ih => rw [List.cons_append, before, ih, before]

@[simp]
theorem token_before_cons (after : Cursor) (token : Token) (tokens : List Token) :
    (after.before (token :: tokens)).token = token := rfl

theorem before_cons_inj {token token' : Token} {tokens tokens' : List Token}
    {after after' : Cursor} (same : after.before (token :: tokens) = after'.before (token' :: tokens')) :
    token = token' ∧ after.before tokens = after'.before tokens' := by
  rw [before, before, Cursor.mk.injEq, List.cons.injEq, Except.ok.injEq] at same
  refine ⟨same.1, ?_⟩
  change Cursor.mk _ _ = Cursor.mk _ _
  rw [same.2.1, same.2.2]

end Cursor

namespace Parse

variable {α β : Type}

/-- Whenever the reader succeeds, what it returns goes with the tokens between the place where it
started and the place where it stopped. -/
def Reads (reader : Parse α) (goes : α → List Token → Prop) : Prop :=
  ∀ cursor x after, reader cursor = .ok (x, after) → ∃ ts, goes x ts ∧ cursor = after.before ts

theorem bind_eq_ok {reader : Parse α} {next : α → Parse β} {cursor after : Cursor} {y : β} :
    (reader >>= next) cursor = .ok (y, after) ↔
      ∃ x middle, reader cursor = .ok (x, middle) ∧ next x middle = .ok (y, after) := by
  change (reader cursor >>= fun pair => next pair.1 pair.2) = _ ↔ _
  cases reader cursor with
  | error e => simp [bind, Except.bind]
  | ok pair =>
    obtain ⟨x, middle⟩ := pair
    refine ⟨fun action => ⟨x, middle, rfl, action⟩, ?_⟩
    rintro ⟨_, _, same, action⟩
    cases same
    exact action

namespace Reads

variable {reader : Parse α} {goes goes' : α → List Token → Prop}

theorem pure {x : α} (here : goes x []) : Reads (Pure.pure x) goes := by
  intro cursor y after action
  have same : (x, cursor) = (y, after) := Except.ok.inj action
  obtain ⟨rfl, rfl⟩ := Prod.mk.inj same
  exact ⟨[], here, rfl⟩

theorem bind {next : α → Parse β} {goesNext : β → List Token → Prop} (first : Reads reader goes)
    (second : ∀ x ts, goes x ts → Reads (next x) fun y more => goesNext y (ts ++ more)) :
    Reads (reader >>= next) goesNext := by
  intro cursor y after action
  obtain ⟨x, middle, read, rest⟩ := bind_eq_ok.mp action
  obtain ⟨ts, here, rfl⟩ := first cursor x middle read
  obtain ⟨more, there, rfl⟩ := second x ts here middle y after rest
  exact ⟨ts ++ more, there, (after.before_append ts more).symm⟩

theorem mono (reads : Reads reader goes) (weaker : ∀ x ts, goes x ts → goes' x ts) :
    Reads reader goes' := by
  intro cursor x after action
  obtain ⟨ts, here, same⟩ := reads cursor x after action
  exact ⟨ts, weaker x ts here, same⟩

theorem fail {fault : SyntaxFault} : Reads (Parse.fail fault) goes := by
  intro cursor x after action
  cases action

end Reads

theorem current_reads : Reads current fun _ ts => ts = [] := by
  intro cursor token after action
  cases action
  exact ⟨[], rfl, rfl⟩

theorem accept_reads (test : Token → Bool) :
    Reads (accept test) fun word? ts => ts = (word?.map Subtype.val).toList := by
  intro cursor word? after action
  obtain ⟨token, middle, read, action⟩ := bind_eq_ok.mp action
  cases read
  by_cases passes : test cursor.token = true
  · simp only [passes, ↓reduceDIte] at action
    obtain ⟨_, next, drawn, action⟩ := bind_eq_ok.mp action
    cases action
    obtain ⟨token, rest⟩ := cursor
    cases rest with
    | nil => cases drawn
    | cons item rest =>
      cases item with
      | error e => cases drawn
      | ok token => cases drawn; exact ⟨_, rfl, rfl⟩
  · simp only [passes, Bool.false_eq_true, ↓reduceDIte] at action
    cases action
    exact ⟨[], rfl, rfl⟩

private theorem required_reads {test : Token → Bool}
    {next : Option (TokenWith test) → Parse (TokenWith test)}
    (found : ∀ word, next (some word) = pure word) (missing : ∀ goes, Reads (next none) goes) :
    Reads (accept test >>= next) fun word ts => ts = [word.val] := by
  refine (accept_reads test).bind fun word? ts same => ?_
  subst same
  cases word? with
  | some word => rw [found]; exact .pure rfl
  | none => exact missing _

theorem expect_reads (values : List String) : Reads (expect values) fun word ts => ts = [word.val] :=
  required_reads (fun _ => rfl) fun _ => current_reads.bind fun _ _ _ => .fail

theorem name_reads : Reads name fun name ts => ts = [name.val] :=
  required_reads (fun _ => rfl) fun _ => current_reads.bind fun _ _ _ => .fail

theorem memberName_reads : Reads memberName fun name ts => ts = [name.val] :=
  required_reads (fun _ => rfl) fun _ => current_reads.bind fun _ _ _ => .fail

section Repetition

variable {test : Token → Bool} {phrase : Parse α} {tokens : α → List Token} {good : α → Prop}

private theorem rounds_reads (reads : Reads phrase fun x ts => ts = tokens x ∧ good x)
    (bound : List Item) (done : List α) :
    Reads (rounds test phrase bound done) fun all ts =>
      ∃ new, all = done.reverse ++ new ∧ ts = new.flatMap tokens ∧ ∀ x ∈ new, good x := by
  induction bound generalizing done with
  | nil =>
    refine current_reads.bind fun token ts same => ?_
    subst same
    split
    · refine reads.bind fun x ts ⟨same, holds⟩ => .pure ⟨[x], ?_⟩
      subst same
      simp [holds]
    · exact .pure ⟨[], by simp⟩
  | cons item bound ih =>
    refine current_reads.bind fun token ts same => ?_
    subst same
    split
    · refine reads.bind fun x ts ⟨same, holds⟩ => (ih (x :: done)).mono ?_
      subst same
      rintro all more ⟨new, rfl, rfl, each⟩
      exact ⟨x :: new, by simp, by simp, by simpa using ⟨holds, each⟩⟩
    · exact .pure ⟨[], by simp⟩

theorem repeatWhile_reads (reads : Reads phrase fun x ts => ts = tokens x ∧ good x) :
    Reads (repeatWhile test phrase) fun all ts =>
      ts = all.flatMap tokens ∧ ∀ x ∈ all, good x := by
  intro cursor all after action
  obtain ⟨start, middle, read, action⟩ := bind_eq_ok.mp action
  cases read
  obtain ⟨ts, ⟨new, rfl, rfl, each⟩, same⟩ := rounds_reads reads _ [] _ _ _ action
  exact ⟨_, ⟨by simp, by simpa using each⟩, same⟩

theorem afterCommas_reads (reads : Reads phrase fun x ts => ts = tokens x ∧ good x) :
    Reads (afterCommas phrase) fun all ts =>
      ts = commaTokens tokens all ∧ ∀ pair ∈ all, good pair.2 := by
  have pair : Reads (do let comma ← expect [","]; return (comma, ← phrase))
      fun pair ts => ts = pair.1.val :: tokens pair.2 ∧ good pair.2 := by
    refine (expect_reads _).bind fun comma ts same => reads.bind fun x ts' ⟨same', holds⟩ => ?_
    subst same same'
    exact .pure ⟨by simp, holds⟩
  exact repeatWhile_reads pair

end Repetition

abbrev Fills (tokens : α → List Token) (nesting : α → Nat) (room : Nat) (x : α)
    (ts : List Token) : Prop :=
  ts = tokens x ∧ nesting x ≤ room

section Expressions

variable {expression : Parse Expression} {operand : Parse Term} {room : Nat}

theorem argumentsOf_reads
    (reads : Reads expression (Fills Expression.tokens Expression.nesting room)) :
    Reads (argumentsOf expression) (Fills Arguments.tokens Arguments.nesting room) := by
  refine current_reads.bind fun token ts same => ?_
  subst same
  split
  · refine reads.bind fun first ts ⟨same, fits⟩ => ?_
    refine (afterCommas_reads reads).bind fun more ts' ⟨same', each⟩ => .pure ⟨?_, ?_⟩
    · simp [same, same', Arguments.tokens, moreArgumentTokens_eq]
    · exact Nat.max_le.mpr ⟨fits, (moreArgumentNesting_le more room).mpr each⟩
  · exact .pure ⟨rfl, Nat.zero_le room⟩

theorem callAfter_reads (name : Name)
    (reads : Reads expression (Fills Expression.tokens Expression.nesting room)) :
    Reads (callAfter expression name) fun c ts =>
      name.val :: ts = c.tokens ∧ c.nesting ≤ room := by
  refine (accept_reads _).bind fun dot? ts same => ?_
  subst same
  cases dot? with
  | some dot =>
    refine memberName_reads.bind fun member ts same₁ => ?_
    refine (expect_reads _).bind fun opening ts same₂ => ?_
    refine (argumentsOf_reads reads).bind fun arguments ts ⟨same₃, fits⟩ => ?_
    refine (expect_reads _).bind fun closing ts same₄ => .pure ⟨?_, fits⟩
    simp [same₁, same₂, same₃, same₄, Call.tokens]
  | none =>
    refine (expect_reads _).bind fun opening ts same₁ => ?_
    refine (argumentsOf_reads reads).bind fun arguments ts ⟨same₂, fits⟩ => ?_
    refine (expect_reads _).bind fun closing ts same₃ => .pure ⟨?_, fits⟩
    simp [same₁, same₂, same₃, Call.tokens]

theorem termAfter_reads (name : Name)
    (reads : Reads expression (Fills Expression.tokens Expression.nesting room)) :
    Reads (termAfter expression name) fun t ts =>
      name.val :: ts = t.tokens ∧ t.nesting ≤ room + 1 := by
  refine current_reads.bind fun token ts same => ?_
  subst same
  split
  · refine (callAfter_reads name reads).bind fun call ts ⟨same, fits⟩ => .pure ⟨?_, ?_⟩
    · simpa [Term.tokens] using same
    · exact Nat.succ_le_succ fits
  · refine (accept_reads _).bind fun opening? ts same => ?_
    subst same
    cases opening? with
    | some opening =>
      refine reads.bind fun index ts ⟨same₁, fits⟩ => ?_
      refine (expect_reads _).bind fun closing ts same₂ => .pure ⟨?_, Nat.succ_le_succ fits⟩
      simp [same₁, same₂, Term.tokens]
    | none => exact .pure ⟨rfl, Nat.succ_le_succ (Nat.zero_le room)⟩

theorem termOf_reads
    (reads : Reads expression (Fills Expression.tokens Expression.nesting room))
    (readsOperand : Reads operand (Fills Term.tokens Term.nesting room)) :
    Reads (termOf expression operand) (Fills Term.tokens Term.nesting (room + 1)) := by
  refine (accept_reads _).bind fun value? ts same => ?_
  subst same
  cases value? with
  | some value => exact .pure ⟨rfl, Nat.succ_le_succ (Nat.zero_le room)⟩
  | none =>
    refine (accept_reads _).bind fun name? ts same => ?_
    subst same
    cases name? with
    | some name => exact (termAfter_reads name reads).mono fun t ts same => by simpa using same
    | none =>
      refine (accept_reads _).bind fun opening? ts same => ?_
      subst same
      cases opening? with
      | some opening =>
        refine reads.bind fun inner ts ⟨same₁, fits⟩ => ?_
        refine (expect_reads _).bind fun closing ts same₂ => .pure ⟨?_, Nat.succ_le_succ fits⟩
        simp [same₁, same₂, Term.tokens]
      | none =>
        refine (accept_reads _).bind fun operator? ts same => ?_
        subst same
        cases operator? with
        | some operator =>
          refine readsOperand.bind fun operand ts ⟨same, fits⟩ => .pure ⟨?_, Nat.succ_le_succ fits⟩
          simp [same, Term.tokens]
        | none => exact current_reads.bind fun _ _ _ => .fail

end Expressions

private theorem expression_reads_of {room : Nat}
    (terms : Reads (term room) (Fills Term.tokens Term.nesting room))
    (runs : ∀ left : Expression, left.nesting ≤ room + left.operators →
      Reads (operators room left) fun e ts =>
        left.tokens ++ ts = e.tokens ∧ e.nesting ≤ room + left.operators) :
    Reads (expression room) (Fills Expression.tokens Expression.nesting room) := by
  refine terms.bind fun left ts ⟨same, fits⟩ => ?_
  refine (runs (.term left) fits).mono fun e more ⟨same', fits'⟩ => ⟨?_, fits'⟩
  rw [← same', same, Expression.tokens]

/-- Terms and operator runs share the room: each operator leaves one level less to those after
it, so what is read with `k` operators before it may nest `k` levels deeper than the room. -/
theorem term_operators_reads (room : Nat) :
    Reads (term room) (Fills Term.tokens Term.nesting room) ∧
      ∀ left : Expression, left.nesting ≤ room + left.operators →
        Reads (operators room left) fun e ts =>
          left.tokens ++ ts = e.tokens ∧ e.nesting ≤ room + left.operators := by
  induction room with
  | zero =>
    refine ⟨.fail, fun left fits => current_reads.bind fun token ts same => ?_⟩
    subst same
    split
    · exact .fail
    · exact .pure ⟨by simp, fits⟩
  | succ room ih =>
    obtain ⟨terms, runs⟩ := ih
    refine ⟨termOf_reads (expression_reads_of terms runs) terms, fun left fits => ?_⟩
    refine current_reads.bind fun token ts same => ?_
    subst same
    split
    · refine (expect_reads _).bind fun operator ts same₁ => ?_
      refine terms.bind fun right ts ⟨same₂, fits₂⟩ => ?_
      have fits' : (Expression.binary left operator right).nesting ≤
          room + (Expression.binary left operator right).operators := by
        simp only [Expression.nesting, Expression.operators]
        omega
      refine (runs _ fits').mono fun e more ⟨same₃, fits₃⟩ => ⟨?_, ?_⟩
      · simp [← same₃, same₁, same₂, Expression.tokens]
      · simp only [Expression.operators] at fits₃
        omega
    · exact .pure ⟨by simp, fits⟩

theorem term_reads (room : Nat) : Reads (term room) (Fills Term.tokens Term.nesting room) :=
  (term_operators_reads room).1

theorem expression_reads (room : Nat) :
    Reads (expression room) (Fills Expression.tokens Expression.nesting room) :=
  expression_reads_of (term_operators_reads room).1 (term_operators_reads room).2

section Statements

variable {expression : Parse Expression} {block : Parse Block} {room : Nat}

private theorem letStatement_reads
    (reads : Reads expression (Fills Expression.tokens Expression.nesting room)) :
    Reads (letStatement expression) (Fills Statement.tokens Statement.nesting room) := by
  refine (expect_reads _).bind fun keyword ts same₁ => ?_
  refine name_reads.bind fun target ts same₂ => ?_
  refine (accept_reads _).bind fun opening? ts same₃ => ?_
  subst same₁ same₂ same₃
  cases opening? with
  | some opening =>
    refine reads.bind fun index ts ⟨same₁, fits₁⟩ => ?_
    refine (expect_reads _).bind fun closing ts same₂ => ?_
    refine (expect_reads _).bind fun equals ts same₃ => ?_
    refine reads.bind fun value ts ⟨same₄, fits₂⟩ => ?_
    refine (expect_reads _).bind fun semicolon ts same₅ => .pure ⟨?_, Nat.max_le.mpr ⟨fits₁, fits₂⟩⟩
    simp [same₁, same₂, same₃, same₄, same₅, Statement.tokens]
  | none =>
    refine (expect_reads _).bind fun equals ts same₁ => ?_
    refine reads.bind fun value ts ⟨same₂, fits⟩ => ?_
    refine (expect_reads _).bind fun semicolon ts same₃ => .pure ⟨?_, fits⟩
    simp [same₁, same₂, same₃, Statement.tokens]

private theorem doStatement_reads
    (reads : Reads expression (Fills Expression.tokens Expression.nesting room)) :
    Reads (doStatement expression) (Fills Statement.tokens Statement.nesting room) := by
  refine (expect_reads _).bind fun keyword ts same₁ => ?_
  refine name_reads.bind fun callee ts same₂ => ?_
  refine (callAfter_reads callee reads).bind fun call ts ⟨same₃, fits⟩ => ?_
  refine (expect_reads _).bind fun semicolon ts same₄ => .pure ⟨?_, fits⟩
  simp [same₁, same₂, same₄, Statement.tokens, ← same₃]

private theorem ifStatement_reads
    (reads : Reads expression (Fills Expression.tokens Expression.nesting room))
    (readsBlock : Reads block (Fills Block.tokens Block.nesting room)) :
    Reads (ifStatement expression block) (Fills Statement.tokens Statement.nesting room) := by
  refine (expect_reads _).bind fun keyword ts same₁ => ?_
  refine (expect_reads _).bind fun opening ts same₂ => ?_
  refine reads.bind fun condition ts ⟨same₃, fits₁⟩ => ?_
  refine (expect_reads _).bind fun closing ts same₄ => ?_
  refine readsBlock.bind fun body ts ⟨same₅, fits₂⟩ => ?_
  refine (accept_reads _).bind fun otherwise? ts same₆ => ?_
  subst same₁ same₂ same₃ same₄ same₅ same₆
  cases otherwise? with
  | some otherwise =>
    refine readsBlock.bind fun alternative ts ⟨same, fits₃⟩ => .pure ⟨?_, ?_⟩
    · simp [same, Statement.tokens]
    · exact Nat.max_le.mpr ⟨fits₁, Nat.max_le.mpr ⟨fits₂, fits₃⟩⟩
  | none =>
    refine .pure ⟨?_, Nat.max_le.mpr ⟨fits₁, fits₂⟩⟩
    simp [Statement.tokens]

private theorem whileStatement_reads
    (reads : Reads expression (Fills Expression.tokens Expression.nesting room))
    (readsBlock : Reads block (Fills Block.tokens Block.nesting room)) :
    Reads (whileStatement expression block) (Fills Statement.tokens Statement.nesting room) := by
  refine (expect_reads _).bind fun keyword ts same₁ => ?_
  refine (expect_reads _).bind fun opening ts same₂ => ?_
  refine reads.bind fun condition ts ⟨same₃, fits₁⟩ => ?_
  refine (expect_reads _).bind fun closing ts same₄ => ?_
  refine readsBlock.bind fun body ts ⟨same₅, fits₂⟩ => .pure ⟨?_, Nat.max_le.mpr ⟨fits₁, fits₂⟩⟩
  simp [same₁, same₂, same₃, same₄, same₅, Statement.tokens]

private theorem returnStatement_reads
    (reads : Reads expression (Fills Expression.tokens Expression.nesting room)) :
    Reads (returnStatement expression) (Fills Statement.tokens Statement.nesting room) := by
  refine (expect_reads _).bind fun keyword ts same₁ => ?_
  refine (accept_reads _).bind fun semicolon? ts same₂ => ?_
  subst same₁ same₂
  cases semicolon? with
  | some semicolon => exact .pure ⟨rfl, Nat.zero_le room⟩
  | none =>
    refine reads.bind fun value ts ⟨same₁, fits⟩ => ?_
    refine (expect_reads _).bind fun semicolon ts same₂ => .pure ⟨?_, fits⟩
    simp [same₁, same₂, Statement.tokens]

theorem statementOf_reads
    (reads : Reads expression (Fills Expression.tokens Expression.nesting room))
    (readsBlock : Reads block (Fills Block.tokens Block.nesting room)) :
    Reads (statementOf expression block) (Fills Statement.tokens Statement.nesting room) := by
  refine current_reads.bind fun token ts same => ?_
  subst same
  split
  · exact letStatement_reads reads
  · exact doStatement_reads reads
  · exact ifStatement_reads reads readsBlock
  · exact whileStatement_reads reads readsBlock
  · exact returnStatement_reads reads

end Statements

theorem blockOf_reads {reader : Parse (List Statement)} {room : Nat}
    (reads : Reads reader (Fills statementTokens statementsNesting room)) :
    Reads (blockOf reader) (Fills Block.tokens Block.nesting room) := by
  refine (expect_reads _).bind fun opening ts same₁ => ?_
  refine reads.bind fun statements ts ⟨same₂, fits⟩ => ?_
  refine (expect_reads _).bind fun closing ts same₃ => .pure ⟨?_, fits⟩
  simp [same₁, same₂, same₃, Block.tokens]

theorem statements_reads (room : Nat) :
    Reads (statements room) (Fills statementTokens statementsNesting room) := by
  induction room with
  | zero => exact .fail
  | succ room ih =>
    have each := statementOf_reads (expression_reads room) (blockOf_reads ih)
    refine (repeatWhile_reads each).mono fun list ts ⟨same, fits⟩ => ⟨?_, ?_⟩
    · rw [same, statementTokens_eq]
    · exact Nat.succ_le_succ ((deepestStatement_le list room).mpr fits)

theorem statement_reads (room : Nat) :
    Reads (statement room) (Fills Statement.tokens Statement.nesting room) :=
  statementOf_reads (expression_reads room) (blockOf_reads (statements_reads room))

theorem typeName_reads : Reads typeName fun type ts => ts = type.tokens := by
  refine (accept_reads _).bind fun word? ts same => ?_
  subst same
  cases word? with
  | some word => exact .pure rfl
  | none => exact name_reads.bind fun name ts same => .pure (by simp [same, TypeName.tokens])

theorem returnType_reads : Reads returnType fun type ts => ts = type.tokens := by
  refine (accept_reads _).bind fun word? ts same => ?_
  subst same
  cases word? with
  | some word => exact .pure rfl
  | none => exact typeName_reads.bind fun type ts same => .pure (by simp [same, ReturnType.tokens])

private theorem untested {α : Type} {reader : Parse α} (tokens : α → List Token)
    (reads : Reads reader fun x ts => ts = tokens x) :
    Reads reader fun x ts => ts = tokens x ∧ True :=
  reads.mono fun _ _ same => ⟨same, trivial⟩

theorem nameList_reads : Reads nameList fun names ts => ts = names.tokens := by
  refine name_reads.bind fun first ts same₁ => ?_
  refine (afterCommas_reads (untested nameTokens name_reads)).bind
    fun more ts ⟨same₂, _⟩ => .pure ?_
  simp [same₁, same₂, NameList.tokens]

theorem parameter_reads : Reads parameter fun parameter ts => ts = parameter.tokens := by
  refine typeName_reads.bind fun type ts same₁ => name_reads.bind fun name ts same₂ => .pure ?_
  simp [same₁, same₂, Parameter.tokens]

theorem parameters_reads : Reads parameters fun list ts => ts = list.tokens := by
  refine current_reads.bind fun token ts same => ?_
  subst same
  split
  · refine parameter_reads.bind fun first ts same₁ => ?_
    refine (afterCommas_reads (untested _ parameter_reads)).bind fun more ts ⟨same₂, _⟩ => .pure ?_
    simp [same₁, same₂, Parameters.tokens]
  · exact .pure rfl

theorem classVariables_reads :
    Reads classVariables fun declaration ts => ts = declaration.tokens := by
  refine (expect_reads _).bind fun scope ts same₁ => ?_
  refine typeName_reads.bind fun type ts same₂ => ?_
  refine nameList_reads.bind fun names ts same₃ => ?_
  refine (expect_reads _).bind fun semicolon ts same₄ => .pure ?_
  simp [same₁, same₂, same₃, same₄, ClassVariables.tokens]

theorem localVariables_reads :
    Reads localVariables fun declaration ts => ts = declaration.tokens := by
  refine (expect_reads _).bind fun keyword ts same₁ => ?_
  refine typeName_reads.bind fun type ts same₂ => ?_
  refine nameList_reads.bind fun names ts same₃ => ?_
  refine (expect_reads _).bind fun semicolon ts same₄ => .pure ?_
  simp [same₁, same₂, same₃, same₄, LocalVariables.tokens]

theorem subroutineBody_reads :
    Reads subroutineBody (Fills SubroutineBody.tokens SubroutineBody.nesting maxNesting) := by
  refine (expect_reads _).bind fun opening ts same₁ => ?_
  refine (repeatWhile_reads (untested _ localVariables_reads)).bind fun locals ts ⟨same₂, _⟩ => ?_
  refine (statements_reads _).bind fun statements ts ⟨same₃, fits⟩ => ?_
  refine (expect_reads _).bind fun closing ts same₄ => .pure ⟨?_, fits⟩
  simp [same₁, same₂, same₃, same₄, SubroutineBody.tokens]

theorem subroutineDeclaration_reads :
    Reads subroutineDeclaration
      (Fills SubroutineDeclaration.tokens SubroutineDeclaration.nesting maxNesting) := by
  refine (expect_reads _).bind fun keyword ts same₁ => ?_
  refine returnType_reads.bind fun returnType ts same₂ => ?_
  refine name_reads.bind fun name ts same₃ => ?_
  refine (expect_reads _).bind fun opening ts same₄ => ?_
  refine parameters_reads.bind fun parameters ts same₅ => ?_
  refine (expect_reads _).bind fun closing ts same₆ => ?_
  refine subroutineBody_reads.bind fun body ts ⟨same₇, fits⟩ => .pure ⟨?_, fits⟩
  simp [same₁, same₂, same₃, same₄, same₅, same₆, same₇, SubroutineDeclaration.tokens]

theorem classDeclarations_reads :
    Reads classDeclarations fun declarations ts =>
      ts = declarations.flatMap ClassVariables.tokens :=
  (repeatWhile_reads (untested _ classVariables_reads)).mono fun _ _ reads => reads.1

theorem classDeclaration_reads :
    Reads classDeclaration (Fills ClassDeclaration.tokens ClassDeclaration.nesting maxNesting) := by
  refine (expect_reads _).bind fun keyword ts same₁ => ?_
  refine name_reads.bind fun name ts same₂ => ?_
  refine (expect_reads _).bind fun opening ts same₃ => ?_
  refine classDeclarations_reads.bind fun declarations ts same₄ => ?_
  refine (repeatWhile_reads subroutineDeclaration_reads).bind
    fun subroutines ts ⟨same₅, fits⟩ => ?_
  refine (expect_reads _).bind fun closing ts same₆ => .pure ⟨?_, ?_⟩
  · simp [same₁, same₂, same₃, same₄, same₅, same₆, ClassDeclaration.tokens]
  · exact (ClassDeclaration.nesting_le _ _).mpr fits

private theorem Reads.map {α : Type} {reader : Parse α} {goes : α → List Token → Prop}
    {make : α → Phrase} {goes' : Phrase → List Token → Prop} (reads : Reads reader goes)
    (made : ∀ x ts, goes x ts → goes' (make x) ts) : Reads (make <$> reader) goes' := by
  rw [map_eq_pure_bind]
  refine reads.bind fun x ts here => .pure ?_
  simpa using made x ts here

theorem phrase_reads (entry : EntryPoint) :
    Reads (phrase entry) fun p ts =>
      p.entry = entry ∧ ts = p.tokens ∧ p.nesting ≤ maxNesting := by
  cases entry with
  | classDeclaration => exact classDeclaration_reads.map fun _ _ reads => ⟨rfl, reads⟩
  | classVariables =>
    exact classDeclarations_reads.map fun _ _ same => ⟨rfl, same, Nat.zero_le _⟩
  | subroutineDeclaration => exact subroutineDeclaration_reads.map fun _ _ reads => ⟨rfl, reads⟩
  | parameters => exact parameters_reads.map fun _ _ same => ⟨rfl, same, Nat.zero_le _⟩
  | subroutineBody => exact subroutineBody_reads.map fun _ _ reads => ⟨rfl, reads⟩
  | statements => exact (statements_reads _).map fun _ _ reads => ⟨rfl, reads⟩
  | statement => exact (statement_reads _).map fun _ _ reads => ⟨rfl, reads⟩
  | expression => exact (expression_reads _).map fun _ _ reads => ⟨rfl, reads⟩
  | term => exact (term_reads _).map fun _ _ reads => ⟨rfl, reads⟩
  | arguments => exact (argumentsOf_reads (expression_reads _)).map fun _ _ reads => ⟨rfl, reads⟩

end Parse

def Cursor.items (cursor : Cursor) : List Item := .ok cursor.token :: cursor.rest

theorem Cursor.items_before (after : Cursor) (tokens : List Token) :
    (after.before tokens).items = tokens.map .ok ++ after.items := by
  induction tokens with
  | nil => rfl
  | cons token tokens ih => rw [List.map_cons, List.cons_append, ← ih]; rfl

/-- A whole input that is accepted holds the tokens of its phrase, and after them the end of file. -/
theorem parse_reads {entry : EntryPoint} {stream : List Item} {phrase : Phrase}
    (read : parse entry stream = .ok phrase) :
    ∃ close rest, stream = phrase.tokens.map .ok ++ .ok close :: rest ∧ close.kind = .eof ∧
      phrase.entry = entry ∧ phrase.nesting ≤ maxNesting := by
  cases stream with
  | nil => cases read
  | cons item stream =>
    cases item with
    | error e => cases read
    | ok token =>
      cases action : Parse.phrase entry ⟨token, stream⟩ with
      | error e => simp [parse, action, bind, Except.bind] at read
      | ok pair =>
        obtain ⟨found, after⟩ := pair
        obtain ⟨ts, ⟨same, spelt, fits⟩, place⟩ := Parse.phrase_reads entry _ _ _ action
        simp only [parse, action, bind, Except.bind, pure, Except.pure] at read
        split at read
        · cases read
          refine ⟨after.token, after.rest, ?_, ‹_›, same, fits⟩
          have taken := after.items_before ts
          rw [← place, spelt] at taken
          exact taken
        · cases read

end JackCompiler
