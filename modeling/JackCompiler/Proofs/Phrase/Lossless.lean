import JackCompiler.Proofs.Phrase.Acceptance
import JackCompiler.Proofs.Phrase.Preorder
import JackCompiler.Proofs.Phrase.Reading
import JackCompiler.Proofs.Phrase.Terminals

namespace JackCompiler

private def Live (tokens : List Token) : Prop := ∀ token ∈ tokens, token.kind ≠ .eof

section Live

variable {token : Token} {tokens more : List Token}

@[simp]
private theorem live_nil : Live [] := nofun

@[simp]
private theorem live_cons : Live (token :: tokens) ↔ token.kind ≠ .eof ∧ Live tokens :=
  List.forall_mem_cons

@[simp]
private theorem live_append : Live (tokens ++ more) ↔ Live tokens ∧ Live more :=
  List.forall_mem_append

private theorem live_flatMap {α : Type} {spelling : α → List Token} {phrases : List α}
    (each : ∀ x, Live (spelling x)) : Live (phrases.flatMap spelling) := by
  intro token member
  obtain ⟨x, _, inside⟩ := List.mem_flatMap.mp member
  exact each x token inside

@[simp]
private theorem word_live {values : List String} (word : Word values) : word.val.kind ≠ .eof := by
  intro ends
  simpa [Token.isOneOf, ends] using word.property

@[simp]
private theorem symbolWord_live {values : List String} (word : SymbolWord values) :
    word.val.kind ≠ .eof := by
  intro ends
  simpa [Token.isSymbolOf, ends] using word.property

@[simp]
private theorem name_live (name : Name) : name.val.kind ≠ .eof := by
  intro ends
  simpa [Token.isName, ends] using name.property

@[simp]
private theorem memberName_live (name : MemberName) : name.val.kind ≠ .eof := by
  intro ends
  simpa [Token.isMemberName, ends] using name.property

@[simp]
private theorem literal_live (value : Literal) : value.val.kind ≠ .eof := by
  intro ends
  simpa [Token.isLiteral, ends] using value.property

private theorem live_moreArguments {more : List (Comma × Expression)}
    (each : ∀ pair ∈ more, Live pair.2.tokens) : Live (moreArgumentTokens more) := by
  induction more with
  | nil => simp [moreArgumentTokens]
  | cons pair more ih =>
    have one := each pair (.head _)
    simp [moreArgumentTokens, one, ih fun pair member => each pair (.tail _ member)]

private theorem live_expressions :
    (∀ e : Expression, Live e.tokens) ∧ (∀ t : Term, Live t.tokens) ∧
    (∀ c : Call, Live c.tokens) ∧ (∀ a : Arguments, Live a.tokens) := by
  apply Expression.induction
  case listed =>
    intro first more one each
    simp [Arguments.tokens, one, live_moreArguments each]
  all_goals
    intros
    simp_all [Expression.tokens, Term.tokens, Call.tokens, Arguments.tokens]

@[simp]
private theorem expression_live (e : Expression) : Live e.tokens := live_expressions.1 e

private theorem live_statementTokens {statements : List Statement}
    (each : ∀ s ∈ statements, Live s.tokens) : Live (statementTokens statements) := by
  induction statements with
  | nil => simp [statementTokens]
  | cons s statements ih =>
    have one := each s (.head _)
    simp [statementTokens, one, ih fun s member => each s (.tail _ member)]

private theorem live_statements :
    (∀ s : Statement, Live s.tokens) ∧ (∀ b : Block, Live b.tokens) := by
  apply Statement.induction
  case perform =>
    intro keyword call semicolon
    simp [Statement.tokens, live_expressions.2.2.1 call]
  case braced =>
    intro opening statements closing each
    simp [Block.tokens, live_statementTokens each]
  all_goals
    intros
    simp_all [Statement.tokens]

@[simp]
private theorem statements_live (statements : List Statement) : Live (statementTokens statements) :=
  live_statementTokens fun s _ => live_statements.1 s

@[simp]
private theorem live_commaTokens {α : Type} {spelling : α → List Token}
    (each : ∀ x, Live (spelling x)) (more : List (Comma × α)) :
    Live (commaTokens spelling more) :=
  live_flatMap fun pair => by simp [each pair.2]

@[simp]
private theorem typeName_live (type : TypeName) : Live type.tokens := by
  cases type <;> simp [TypeName.tokens]

@[simp]
private theorem nameList_live (names : NameList) : Live names.tokens := by
  have each (name : Name) : Live (nameTokens name) := by simp [nameTokens]
  simp [NameList.tokens, live_commaTokens each]

@[simp]
private theorem parameters_live (parameters : Parameters) : Live parameters.tokens := by
  have each (parameter : Parameter) : Live parameter.tokens := by simp [Parameter.tokens]
  cases parameters <;> simp [Parameters.tokens, each, live_commaTokens each]

private theorem classVariables_live (declaration : ClassVariables) : Live declaration.tokens := by
  simp [ClassVariables.tokens]

@[simp]
private theorem body_live (body : SubroutineBody) : Live body.tokens := by
  have each (declaration : LocalVariables) : Live declaration.tokens := by
    simp [LocalVariables.tokens]
  simp [SubroutineBody.tokens, live_flatMap each]

private theorem subroutine_live (subroutine : SubroutineDeclaration) : Live subroutine.tokens := by
  have type : Live subroutine.returnType.tokens := by
    cases subroutine.returnType <;> simp [ReturnType.tokens]
  simp [SubroutineDeclaration.tokens, type]

private theorem class_live (declaration : ClassDeclaration) : Live declaration.tokens := by
  simp [ClassDeclaration.tokens, live_flatMap classVariables_live, live_flatMap subroutine_live]

theorem Phrase.kind_ne_eof (phrase : Phrase) : ∀ token ∈ phrase.tokens, token.kind ≠ .eof := by
  change Live phrase.tokens
  cases phrase with
  | classDeclaration phrase => exact class_live phrase
  | classVariables phrases => exact live_flatMap classVariables_live
  | subroutineDeclaration phrase => exact subroutine_live phrase
  | parameters phrase => exact parameters_live phrase
  | subroutineBody phrase => exact body_live phrase
  | statements phrases => exact statements_live phrases
  | statement phrase => exact live_statements.1 phrase
  | expression phrase => exact expression_live phrase
  | term phrase => exact live_expressions.2.1 phrase
  | arguments phrase => exact live_expressions.2.2.2 phrase

end Live

theorem Phrase.numbers_nodup (phrase : Phrase) : (phrase.toTree.nodes.map Tree.number).Nodup := by
  rw [← Tree.preorder_eq, phrase.preorder_perm.nodup_iff]
  exact List.nodup_range

theorem Phrase.carriers_nodup (phrase : Phrase) :
    (phrase.toTree.carriers.map Tree.number).Nodup := by
  rw [(phrase.toTree.carriers_perm.map Tree.number).nodup_iff]
  exact phrase.numbers_nodup.sublist (List.filter_sublist.map Tree.number)

theorem exists_close_of_parse {entry : EntryPoint} {stream : List Item} {phrase : Phrase}
    (read : parse entry stream = .ok phrase) :
    ∃ close rest, stream = phrase.toTree.terminals.map .ok ++ .ok close :: rest ∧
      close.kind = .eof := by
  obtain ⟨close, rest, taken, ends, -⟩ := parse_reads read
  exact ⟨close, rest, by rw [phrase.toTree_terminals, taken], ends⟩

/-- The terminals of the tree of an input are its tokens up to the first end of file, and the nodes
that carry them are distinct, one for each. -/
theorem parse_lossless {entry : EntryPoint} {stream : List Item} {phrase : Phrase}
    (read : parse entry stream = .ok phrase) :
    (∃ close rest, stream = phrase.toTree.terminals.map .ok ++ .ok close :: rest ∧
      close.kind = .eof) ∧
    (∀ token ∈ phrase.toTree.terminals, token.kind ≠ .eof) ∧
    (phrase.toTree.nodes.map Tree.number).Nodup ∧
    phrase.toTree.carriers.map Tree.token? = phrase.toTree.terminals.map some ∧
    (phrase.toTree.carriers.map Tree.number).Nodup ∧
    ∀ node, node ∈ phrase.toTree.carriers ↔ Part node phrase.toTree ∧ node.token?.isSome := by
  refine ⟨exists_close_of_parse read, ?_, phrase.numbers_nodup, phrase.toTree.map_token?_carriers,
    phrase.carriers_nodup, fun node => Tree.mem_carriers⟩
  rw [phrase.toTree_terminals]
  exact phrase.kind_ne_eof

private def elementSum : List Item :=
  [⟨1, .keyword, "let"⟩, ⟨1, .identifier, "a"⟩, ⟨1, .symbol, "["⟩, ⟨1, .identifier, "i"⟩,
    ⟨1, .symbol, "]"⟩, ⟨1, .symbol, "="⟩, ⟨1, .identifier, "i"⟩, ⟨1, .symbol, "+"⟩,
    ⟨1, .identifier, "a"⟩, ⟨1, .symbol, "."⟩, ⟨1, .keyword, "this"⟩, ⟨1, .symbol, "("⟩,
    ⟨1, .symbol, ")"⟩, ⟨1, .symbol, "*"⟩, ⟨1, .identifier, "i"⟩, ⟨1, .symbol, ";"⟩,
    .endOfFile 1, .endOfFile 2].map .ok

theorem parse_lossless_element_sum :
    ∃ phrase, parse .statement elementSum = .ok phrase ∧
      (∃ close rest, elementSum = phrase.toTree.terminals.map .ok ++ .ok close :: rest ∧
        close.kind = .eof) ∧
      (∀ token ∈ phrase.toTree.terminals, token.kind ≠ .eof) ∧
      (phrase.toTree.nodes.map Tree.number).Nodup ∧
      phrase.toTree.carriers.map Tree.token? = phrase.toTree.terminals.map some ∧
      (phrase.toTree.carriers.map Tree.number).Nodup ∧
      ∀ node, node ∈ phrase.toTree.carriers ↔
        Part node phrase.toTree ∧ node.token?.isSome := by
  have accepted : (parse .statement elementSum).toOption.isSome = true := by
    decide +kernel
  cases read : parse .statement elementSum with
  | ok phrase => exact ⟨phrase, rfl, parse_lossless read⟩
  | error e => rw [read] at accepted; cases accepted

end JackCompiler
