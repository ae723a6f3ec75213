import JackCompiler.Proofs.Phrase.Acceptance
import JackCompiler.Proofs.Phrase.Grammar

/-!
# The language that is read

The phrases are the derivations of the grammar: what a rule derives are the tokens of a phrase that
fits into the room, and the other way round. With what readers take and accept, this makes the
inputs that are read the words of the grammar.
-/

namespace JackCompiler

/-! ## Words -/

namespace Token

variable {token : Token} {values : List String}

theorem isOneOf_of_keyword (kind : token.kind = .keyword) (one : token.value ∈ values) :
    token.isOneOf values = true := by
  simp [isOneOf, kind, one]

theorem isSymbolOf_of_symbol (kind : token.kind = .symbol) (one : token.value ∈ values) :
    token.isSymbolOf values = true := by
  simp [isSymbolOf, kind, one]

theorem isOneOf_of_symbol (kind : token.kind = .symbol) (one : token.value ∈ values) :
    token.isOneOf values = true :=
  isOneOf_of_isSymbolOf (isSymbolOf_of_symbol kind one)

end Token

namespace Grammar

open Rule

/-! ## From phrases to derivations -/

section Derives

variable {room : Nat} {values : List String} {rules : List Rule} {w : List Token}

private theorem derives_keyword (word : Word values) (proper : word.val.Proper)
    (reserved : ∀ v ∈ values, v ∈ keywords) : Derives room (keyword values) [word.val] :=
  have passes := proper.isKeyword word.property reserved
  .keyword passes.1 passes.2

private theorem derives_symbol (word : Word values) (proper : word.val.Proper)
    (marks : ∀ v ∈ values, v ∈ symbols.map String.singleton) :
    Derives room (symbol values) [word.val] :=
  have passes := proper.isSymbol word.property marks
  .symbol passes.1 passes.2

private theorem derives_token {kind : TokenKind} {token : Token} (same : token.kind = kind) :
    Derives room (.token kind) [token] :=
  same ▸ .token

private theorem derives_identifier (name : Name) : Derives room identifier [name.val] :=
  derives_token (by simpa [Token.isName] using name.property)

private theorem derives_symbolWord (word : SymbolWord values) :
    Derives room (symbol values) [word.val] := by
  have passes := word.property
  simp only [Token.isSymbolOf, Bool.and_eq_true, beq_iff_eq, List.contains_iff_mem] at passes
  exact .symbol passes.1 passes.2

private theorem derives_commaList {α : Type} {rule : Rule} (tokens : α → List Token) {first : α}
    {more : List (Comma × α)} (commas : ∀ pair ∈ more, pair.1.val.Proper)
    (one : Derives room rule (tokens first))
    (each : ∀ pair ∈ more, Derives room rule (tokens pair.2)) :
    Derives room (commaList rule) (tokens first ++ commaTokens tokens more) := by
  refine .row_cons one (.row_last (.many_flatMap fun pair member => ?_))
  exact .row_cons (derives_symbol pair.1 (commas pair member) (by decide))
    (.row_last (each pair member))

private theorem derives_literal (value : Literal) :
    Derives (room + 1) (phrase .term) [value.val] := by
  have passes := value.property
  rw [Token.isLiteral] at passes
  refine .phrase (.deeper ?_)
  split at passes
  case h_1 kind => exact .first (derives_token kind)
  case h_2 kind => exact .second (.first (derives_token kind))
  case h_3 kind =>
    exact .second (.second (.first (.keyword kind (List.contains_iff_mem.mp passes))))
  case h_4 => cases passes
  case h_5 => cases passes
  case h_6 => cases passes

end Derives

private abbrev AllProper (w : List Token) : Prop := ∀ t ∈ w, t.Proper

private theorem expressions_derive :
    (∀ e : Expression, AllProper e.tokens → ∀ room, e.nesting ≤ room → ∀ more,
      Derives (room - e.operators)
        (descend (row [symbol ["+", "-", "*", "/", "&", "|", "<", ">", "="], phrase .term])) more →
      Derives room (phrase .expression) (e.tokens ++ more)) ∧
    (∀ t : Term, AllProper t.tokens → ∀ room, t.nesting ≤ room →
      Derives room (phrase .term) t.tokens) ∧
    (∀ c : Call, AllProper c.tokens → ∀ room, c.nesting ≤ room →
      Derives room (phrase .call) c.tokens) ∧
    (∀ a : Arguments, AllProper a.tokens → ∀ room, a.nesting ≤ room →
      Derives room (phrase .arguments) a.tokens) := by
  apply Expression.induction
  case term =>
    intro t ih proper room fits more rest
    exact .phrase (.row_cons (ih proper room fits) (.row_last rest))
  case binary =>
    intro left operator right first second proper room fits more rest
    obtain ⟨fits₁, fits₂⟩ := Nat.max_le.mp fits
    simp only [AllProper, Expression.tokens, List.forall_mem_append, List.forall_mem_cons] at proper
    obtain ⟨proper₁, proper₂, proper₃⟩ := proper
    rw [Expression.tokens, List.append_assoc, List.cons_append]
    apply first proper₁ room fits₁ _
    have level : room - left.operators = room - (left.operators + 1) + 1 := by omega
    rw [level]
    have one : Derives (room - (left.operators + 1)) (row [symbol binaryOperators, phrase .term])
        (operator.val :: right.tokens) :=
      .row_cons (derives_symbol operator proper₂ (by decide))
        (.row_last (second proper₃ _ (by omega)))
    exact .down one rest
  case literal =>
    intro value _ room fits
    cases room with
    | zero => cases fits
    | succ room => exact derives_literal value
  case name =>
    intro name _ room fits
    cases room with
    | zero => cases fits
    | succ room =>
      exact .phrase (.deeper
        (.second (.second (.second (.first (derives_identifier name))))))
  case element =>
    intro array opening index closing ih proper room fits
    simp only [AllProper, Term.tokens, List.forall_mem_append, List.forall_mem_cons] at proper
    obtain ⟨-, proper₁, proper₂, proper₃, -⟩ := proper
    cases room with
    | zero => cases fits
    | succ room =>
      have inner := ih proper₂ room (Nat.le_of_succ_le_succ fits) [] .bottom
      rw [List.append_nil] at inner
      refine .phrase (.deeper (.second (.second (.second (.second (.first ?_))))))
      exact .row_cons (derives_identifier array) (.row_cons (derives_symbol opening proper₁ (by decide))
        (.row_cons inner (.row_last (derives_symbol closing proper₃ (by decide)))))
  case call =>
    intro c ih proper room fits
    cases room with
    | zero => cases fits
    | succ room =>
      exact .phrase (.deeper (.second (.second (.second (.second (.second (.first
        (ih proper room (Nat.le_of_succ_le_succ fits)))))))))
  case group =>
    intro opening inner closing ih proper room fits
    simp only [AllProper, Term.tokens, List.forall_mem_append, List.forall_mem_cons] at proper
    obtain ⟨-, proper₁, proper₂, -⟩ := proper
    cases room with
    | zero => cases fits
    | succ room =>
      have body := ih proper₁ room (Nat.le_of_succ_le_succ fits) [] .bottom
      rw [List.append_nil] at body
      refine .phrase (.deeper (.second (.second (.second (.second (.second (.second (.first ?_))))))))
      exact .row_cons (derives_symbolWord opening)
        (.row_cons body (.row_last (derives_symbol closing proper₂ (by decide))))
  case unary =>
    intro operator operand ih proper room fits
    simp only [AllProper, Term.tokens, List.forall_mem_cons] at proper
    cases room with
    | zero => cases fits
    | succ room =>
      refine .phrase (.deeper (.second (.second (.second (.second (.second (.second (.second ?_))))))))
      exact .row_cons (derives_symbolWord operator)
        (.row_last (ih proper.2 room (Nat.le_of_succ_le_succ fits)))
  case bare =>
    intro name opening arguments closing ih proper room fits
    simp only [AllProper, Call.tokens, List.forall_mem_append, List.forall_mem_cons] at proper
    obtain ⟨-, proper₁, proper₂, proper₃, -⟩ := proper
    refine .phrase (.row_cons (derives_identifier name) (.row_cons (u := []) (.second .nothing) ?_))
    exact .row_cons (derives_symbol opening proper₁ (by decide)) (.row_cons (ih proper₂ room fits)
      (.row_last (derives_symbol closing proper₃ (by decide))))
  case qualified =>
    intro qualifier dot name opening arguments closing ih proper room fits
    simp only [AllProper, Call.tokens, List.forall_mem_append, List.forall_mem_cons] at proper
    obtain ⟨-, proper₁, -, proper₂, proper₃, proper₄, -⟩ := proper
    have member : Derives room (choice identifier (.token .keyword)) [name.val] := by
      have passes := name.property
      simp only [Token.isMemberName, Bool.or_eq_true, beq_iff_eq] at passes
      rcases passes with kind | kind
      · exact .first (derives_token kind)
      · exact .second (derives_token kind)
    refine .phrase (.row_cons (derives_identifier qualifier)
      (.row_cons (u := [dot.val, name.val]) (.first ?_) ?_))
    · exact .row_cons (derives_symbol dot proper₁ (by decide)) (.row_last member)
    · exact .row_cons (derives_symbol opening proper₂ (by decide)) (.row_cons (ih proper₃ room fits)
        (.row_last (derives_symbol closing proper₄ (by decide))))
  case empty => exact fun _ room _ => .phrase (.second .nothing)
  case listed =>
    intro first more one each proper room fits
    obtain ⟨fits₁, fits₂⟩ := Nat.max_le.mp fits
    have fits₂ := (moreArgumentNesting_le more room).mp fits₂
    simp only [AllProper, Arguments.tokens, moreArgumentTokens_eq, List.forall_mem_append] at proper
    obtain ⟨proper₁, proper₂⟩ := proper
    obtain ⟨commas, proper₂⟩ := forall_mem_commaTokens proper₂
    have whole (e : Expression) (derives : Derives room (phrase .expression) (e.tokens ++ [])) :
        Derives room (phrase .expression) e.tokens := by rwa [List.append_nil] at derives
    rw [Arguments.tokens, moreArgumentTokens_eq]
    exact .phrase (.first (derives_commaList _ commas
      (whole first (one proper₁ room fits₁ [] .bottom)) fun pair member =>
        whole pair.2 (each pair member (proper₂ pair member) room (fits₂ pair member) [] .bottom)))

private theorem expression_derives {e : Expression} (proper : AllProper e.tokens) {room : Nat}
    (fits : e.nesting ≤ room) : Derives room (phrase .expression) e.tokens := by
  rw [← e.tokens.append_nil]
  exact expressions_derive.1 e proper room fits [] .bottom

private theorem statements_derive :
    (∀ s : Statement, AllProper s.tokens → ∀ room, s.nesting ≤ room →
      Derives room (phrase .statement) s.tokens) ∧
    (∀ b : Block, AllProper b.tokens → ∀ room, b.nesting ≤ room →
      Derives room (phrase .block) b.tokens) := by
  apply Statement.induction
  case assign =>
    intro keyword target equals value semicolon proper room fits
    simp only [AllProper, Statement.tokens, List.forall_mem_append, List.forall_mem_cons] at proper
    obtain ⟨proper₁, -, proper₂, proper₃, proper₄, -⟩ := proper
    refine .phrase (.first (.row_cons (derives_keyword keyword proper₁ (by decide)) (.row_cons
      (derives_identifier target) (.row_cons (u := []) (.second .nothing) ?_))))
    exact .row_cons (derives_symbol equals proper₂ (by decide)) (.row_cons
      (expression_derives proper₃ fits) (.row_last (derives_symbol semicolon proper₄ (by decide))))
  case assignElement =>
    intro keyword array opening index closing equals value semicolon proper room fits
    obtain ⟨fits₁, fits₂⟩ := Nat.max_le.mp fits
    simp only [AllProper, Statement.tokens, List.forall_mem_append, List.forall_mem_cons] at proper
    obtain ⟨proper₁, -, proper₂, proper₃, proper₄, proper₅, proper₆, proper₇, -⟩ := proper
    have place : Derives room (row [symbol ["["], phrase .expression, symbol ["]"]])
        (opening.val :: (index.tokens ++ [closing.val])) :=
      .row_cons (derives_symbol opening proper₂ (by decide)) (.row_cons
        (expression_derives proper₃ fits₁) (.row_last (derives_symbol closing proper₄ (by decide))))
    have value : Derives room (row [symbol ["="], phrase .expression, symbol [";"]])
        (equals.val :: (value.tokens ++ [semicolon.val])) :=
      .row_cons (derives_symbol equals proper₅ (by decide)) (.row_cons
        (expression_derives proper₆ fits₂) (.row_last (derives_symbol semicolon proper₇ (by decide))))
    have whole : Derives room (phrase .statement) _ :=
      .phrase (.first (.row_cons (derives_keyword keyword proper₁ (by decide)) (.row_cons
        (derives_identifier array) (.row_cons (.first place) value))))
    simpa [Statement.tokens] using whole
  case ifThen =>
    intro keyword opening condition closing body ih proper room fits
    obtain ⟨fits₁, fits₂⟩ := Nat.max_le.mp fits
    simp only [AllProper, Statement.tokens, List.forall_mem_append, List.forall_mem_cons] at proper
    obtain ⟨proper₁, proper₂, proper₃, proper₄, proper₅⟩ := proper
    have none : Derives room (row [optional (row [Rule.keyword ["else"], phrase .block])]) [] :=
      .row_last (.second .nothing)
    have branch := Derives.row_cons (ih proper₅ room fits₂) none
    rw [List.append_nil] at branch
    exact .phrase (.second (.first (.row_cons (derives_keyword keyword proper₁ (by decide))
      (.row_cons (derives_symbol opening proper₂ (by decide)) (.row_cons
        (expression_derives proper₃ fits₁) (.row_cons (derives_symbol closing proper₄ (by decide))
          branch))))))
  case ifElse =>
    intro keyword opening condition closing body otherwise alternative ih ih' proper room fits
    obtain ⟨fits₁, fits⟩ := Nat.max_le.mp fits
    obtain ⟨fits₂, fits₃⟩ := Nat.max_le.mp fits
    simp only [AllProper, Statement.tokens, List.forall_mem_append, List.forall_mem_cons] at proper
    obtain ⟨proper₁, proper₂, proper₃, proper₄, proper₅, proper₆, proper₇⟩ := proper
    have other : Derives room (row [optional (row [Rule.keyword ["else"], phrase .block])])
        (otherwise.val :: alternative.tokens) :=
      .row_last (.first (.row_cons (derives_keyword otherwise proper₆ (by decide))
        (.row_last (ih' proper₇ room fits₃))))
    exact .phrase (.second (.first (.row_cons (derives_keyword keyword proper₁ (by decide))
      (.row_cons (derives_symbol opening proper₂ (by decide)) (.row_cons
        (expression_derives proper₃ fits₁) (.row_cons (derives_symbol closing proper₄ (by decide))
          (.row_cons (ih proper₅ room fits₂) other)))))))
  case loop =>
    intro keyword opening condition closing body ih proper room fits
    obtain ⟨fits₁, fits₂⟩ := Nat.max_le.mp fits
    simp only [AllProper, Statement.tokens, List.forall_mem_append, List.forall_mem_cons] at proper
    obtain ⟨proper₁, proper₂, proper₃, proper₄, proper₅⟩ := proper
    exact .phrase (.second (.second (.first (.row_cons
      (derives_keyword keyword proper₁ (by decide)) (.row_cons
        (derives_symbol opening proper₂ (by decide)) (.row_cons (expression_derives proper₃ fits₁)
          (.row_cons (derives_symbol closing proper₄ (by decide))
            (.row_last (ih proper₅ room fits₂)))))))))
  case perform =>
    intro keyword call semicolon proper room fits
    simp only [AllProper, Statement.tokens, List.forall_mem_append, List.forall_mem_cons] at proper
    obtain ⟨proper₁, proper₂, proper₃, -⟩ := proper
    exact .phrase (.second (.second (.second (.first (.row_cons
      (derives_keyword keyword proper₁ (by decide)) (.row_cons
        (expressions_derive.2.2.1 call proper₂ room fits)
          (.row_last (derives_symbol semicolon proper₃ (by decide)))))))))
  case returnNothing =>
    intro keyword semicolon proper room _
    simp only [AllProper, Statement.tokens, List.forall_mem_cons] at proper
    exact .phrase (.second (.second (.second (.second (.row_cons
      (derives_keyword keyword proper.1 (by decide)) (.row_cons (u := []) (.second .nothing)
        (.row_last (derives_symbol semicolon proper.2.1 (by decide)))))))))
  case returnValue =>
    intro keyword value semicolon proper room fits
    simp only [AllProper, Statement.tokens, List.forall_mem_append, List.forall_mem_cons] at proper
    obtain ⟨proper₁, proper₂, proper₃, -⟩ := proper
    exact .phrase (.second (.second (.second (.second (.row_cons
      (derives_keyword keyword proper₁ (by decide)) (.row_cons
        (.first (expression_derives proper₂ fits))
          (.row_last (derives_symbol semicolon proper₃ (by decide)))))))))
  case braced =>
    intro opening list closing ih proper room fits
    simp only [AllProper, Block.tokens, statementTokens_eq, List.forall_mem_append,
      List.forall_mem_cons] at proper
    obtain ⟨proper₁, proper₂, proper₃, -⟩ := proper
    cases room with
    | zero => cases fits
    | succ room =>
      have fits := (deepestStatement_le list room).mp (Nat.le_of_succ_le_succ fits)
      have inner : Derives (room + 1) (phrase .statements) (list.flatMap Statement.tokens) :=
        .phrase (.deeper (.many_flatMap fun s member =>
          ih s member (fun t inside => proper₂ t (List.mem_flatMap.mpr ⟨s, member, inside⟩)) room
            (fits s member)))
      rw [Block.tokens, statementTokens_eq]
      exact .phrase (.row_cons (derives_symbol opening proper₁ (by decide)) (.row_cons inner
        (.row_last (derives_symbol closing proper₃ (by decide)))))

private theorem AllProper.part {α : Type} {tokens : α → List Token} {all : List α}
    (proper : AllProper (all.flatMap tokens)) {x : α} (member : x ∈ all) : AllProper (tokens x) :=
  fun t inside => proper t (List.mem_flatMap.mpr ⟨x, member, inside⟩)

private theorem statementList_derives {list : List Statement} (proper : AllProper (statementTokens list))
    {room : Nat} (fits : statementsNesting list ≤ room) :
    Derives room (phrase .statements) (statementTokens list) := by
  rw [statementTokens_eq] at proper ⊢
  cases room with
  | zero => cases fits
  | succ room =>
    have fits := (deepestStatement_le list room).mp (Nat.le_of_succ_le_succ fits)
    exact .phrase (.deeper (.many_flatMap fun s member =>
      statements_derive.1 s (AllProper.part proper member) room (fits s member)))

section Declarations

variable {room : Nat}

private theorem type_derives {type : TypeName} (proper : AllProper type.tokens) :
    Derives room (phrase .type) type.tokens := by
  cases type with
  | builtIn word =>
    exact .phrase (.first (derives_keyword word (proper _ (.head _)) (by decide)))
  | named name => exact .phrase (.second (derives_identifier name))

private theorem returnType_derives {type : ReturnType} (proper : AllProper type.tokens) :
    Derives room (choice (keyword ["void"]) (phrase .type)) type.tokens := by
  cases type with
  | void word => exact .first (derives_keyword word (proper _ (.head _)) (by decide))
  | value type => exact .second (type_derives proper)

private theorem nameList_derives {names : NameList} (proper : AllProper names.tokens) :
    Derives room (commaList identifier) names.tokens := by
  simp only [AllProper, NameList.tokens, List.forall_mem_cons] at proper
  exact derives_commaList nameTokens (forall_mem_commaTokens proper.2).1
    (derives_identifier names.first) fun pair _ => derives_identifier pair.2

private theorem parameter_derives {parameter : Parameter} (proper : AllProper parameter.tokens) :
    Derives room (row [phrase .type, identifier]) parameter.tokens := by
  simp only [AllProper, Parameter.tokens, List.forall_mem_append] at proper
  exact .row_cons (type_derives proper.1) (.row_last (derives_identifier parameter.name))

private theorem parameters_derive {parameters : Parameters} (proper : AllProper parameters.tokens) :
    Derives room (phrase .parameters) parameters.tokens := by
  cases parameters with
  | empty => exact .phrase (.second .nothing)
  | listed first more =>
    simp only [AllProper, Parameters.tokens, List.forall_mem_append] at proper
    obtain ⟨proper₁, proper₂⟩ := proper
    obtain ⟨commas, proper₂⟩ := forall_mem_commaTokens proper₂
    exact .phrase (.first (derives_commaList _ commas (parameter_derives proper₁)
      fun pair member => parameter_derives (proper₂ pair member)))

private theorem classVariables_derive {declaration : ClassVariables}
    (proper : AllProper declaration.tokens) :
    Derives room (phrase .classVariables) declaration.tokens := by
  simp only [AllProper, ClassVariables.tokens, List.forall_mem_append, List.forall_mem_cons] at proper
  obtain ⟨proper₁, proper₂, proper₃, proper₄, -⟩ := proper
  exact .phrase (.row_cons (derives_keyword declaration.scope proper₁ (by decide)) (.row_cons
    (type_derives proper₂) (.row_cons (nameList_derives proper₃)
      (.row_last (derives_symbol declaration.semicolon proper₄ (by decide))))))

private theorem localVariables_derive {declaration : LocalVariables}
    (proper : AllProper declaration.tokens) :
    Derives room (phrase .localVariables) declaration.tokens := by
  simp only [AllProper, LocalVariables.tokens, List.forall_mem_append, List.forall_mem_cons] at proper
  obtain ⟨proper₁, proper₂, proper₃, proper₄, -⟩ := proper
  exact .phrase (.row_cons (derives_keyword declaration.keyword proper₁ (by decide)) (.row_cons
    (type_derives proper₂) (.row_cons (nameList_derives proper₃)
      (.row_last (derives_symbol declaration.semicolon proper₄ (by decide))))))

private theorem subroutineBody_derives {body : SubroutineBody} (proper : AllProper body.tokens)
    (fits : body.nesting ≤ room) : Derives room (phrase .subroutineBody) body.tokens := by
  simp only [AllProper, SubroutineBody.tokens, List.forall_mem_append, List.forall_mem_cons] at proper
  obtain ⟨proper₁, proper₂, proper₃, proper₄, -⟩ := proper
  exact .phrase (.row_cons (derives_symbol body.opening proper₁ (by decide)) (.row_cons
    (.many_flatMap fun x member => localVariables_derive (AllProper.part proper₂ member)) (.row_cons
      (statementList_derives proper₃ fits)
        (.row_last (derives_symbol body.closing proper₄ (by decide))))))

private theorem subroutine_derives {subroutine : SubroutineDeclaration}
    (proper : AllProper subroutine.tokens) (fits : subroutine.nesting ≤ room) :
    Derives room (phrase .subroutineDeclaration) subroutine.tokens := by
  simp only [AllProper, SubroutineDeclaration.tokens, List.forall_mem_append,
    List.forall_mem_cons] at proper
  obtain ⟨proper₁, proper₂, -, proper₃, proper₄, proper₅, proper₆⟩ := proper
  exact .phrase (.row_cons (derives_keyword subroutine.keyword proper₁ (by decide)) (.row_cons
    (returnType_derives proper₂) (.row_cons (derives_identifier subroutine.name) (.row_cons
      (derives_symbol subroutine.opening proper₃ (by decide)) (.row_cons
        (parameters_derive proper₄) (.row_cons
          (derives_symbol subroutine.closing proper₅ (by decide))
            (.row_last (subroutineBody_derives proper₆ fits))))))))

private theorem class_derives {declaration : ClassDeclaration}
    (proper : AllProper declaration.tokens) (fits : declaration.nesting ≤ room) :
    Derives room (phrase .classDeclaration) declaration.tokens := by
  have fits := (ClassDeclaration.nesting_le _ _).mp fits
  simp only [AllProper, ClassDeclaration.tokens, List.forall_mem_append,
    List.forall_mem_cons] at proper
  obtain ⟨proper₁, -, proper₂, proper₃, proper₄, proper₅, -⟩ := proper
  exact .phrase (.row_cons (derives_keyword declaration.keyword proper₁ (by decide)) (.row_cons
    (derives_identifier declaration.name) (.row_cons
      (derives_symbol declaration.opening proper₂ (by decide)) (.row_cons
        (.many_flatMap fun x member => classVariables_derive (AllProper.part proper₃ member)) (.row_cons
          (.many_flatMap fun x member => subroutine_derives (AllProper.part proper₄ member) (fits x member))
            (.row_last (derives_symbol declaration.closing proper₅ (by decide))))))))

end Declarations

theorem phrase_derives {p : Phrase} (proper : ∀ t ∈ p.tokens, t.Proper) {room : Nat}
    (fits : p.nesting ≤ room) : Derives room (start p.entry) p.tokens := by
  cases p with
  | classDeclaration declaration => exact class_derives proper fits
  | classVariables declarations =>
    exact .many_flatMap fun x member => classVariables_derive (AllProper.part proper member)
  | subroutineDeclaration declaration => exact subroutine_derives proper fits
  | parameters list => exact parameters_derive proper
  | subroutineBody body => exact subroutineBody_derives proper fits
  | statements list => exact statementList_derives proper fits
  | statement statement => exact statements_derive.1 statement proper room fits
  | expression expression => exact expression_derives proper fits
  | term term => exact expressions_derive.2.1 term proper room fits
  | arguments list => exact expressions_derive.2.2.2 list proper room fits

/-! ## From derivations to phrases -/

/-- The word is that of a phrase of the kind which fits into the room. -/
def Spelt {α : Type} (tokens : α → List Token) (nesting : α → Nat) (room : Nat) (w : List Token) :
    Prop :=
  ∃ x, tokens x = w ∧ nesting x ≤ room

private def flat {α : Type} (_ : α) : Nat := 0

def Meaning (room : Nat) : Nonterminal → List Token → Prop
  | .classDeclaration => Spelt ClassDeclaration.tokens ClassDeclaration.nesting room
  | .classVariables => Spelt ClassVariables.tokens flat room
  | .subroutineDeclaration => Spelt SubroutineDeclaration.tokens SubroutineDeclaration.nesting room
  | .parameters => Spelt Parameters.tokens flat room
  | .subroutineBody => Spelt SubroutineBody.tokens SubroutineBody.nesting room
  | .localVariables => Spelt LocalVariables.tokens flat room
  | .type => Spelt TypeName.tokens flat room
  | .statements => Spelt statementTokens statementsNesting room
  | .statement => Spelt Statement.tokens Statement.nesting room
  | .block => Spelt Block.tokens Block.nesting room
  | .expression => Spelt Expression.tokens Expression.nesting room
  | .term => Spelt Term.tokens Term.nesting room
  | .call => Spelt Call.tokens Call.nesting room
  | .arguments => Spelt Arguments.tokens Arguments.nesting room

section Holds

variable {room : Nat} {values : List String} {rule : Rule} {rules : List Rule} {w : List Token}

private theorem word_of_keyword (values : List String)
    (holds : Holds Meaning room (keyword values) w) :
    ∃ word : Word values, w = [word.val] := by
  obtain ⟨token, rfl, kind, one⟩ := holds
  exact ⟨⟨token, Token.isOneOf_of_keyword kind one⟩, rfl⟩

private theorem word_of_symbol (values : List String)
    (holds : Holds Meaning room (symbol values) w) :
    ∃ word : Word values, w = [word.val] := by
  obtain ⟨token, rfl, kind, one⟩ := holds
  exact ⟨⟨token, Token.isOneOf_of_symbol kind one⟩, rfl⟩

private theorem symbolWord_of_symbol (values : List String)
    (holds : Holds Meaning room (symbol values) w) :
    ∃ word : SymbolWord values, w = [word.val] := by
  obtain ⟨token, rfl, kind, one⟩ := holds
  exact ⟨⟨token, Token.isSymbolOf_of_symbol kind one⟩, rfl⟩

private theorem name_of_identifier (holds : Holds Meaning room identifier w) :
    ∃ name : Name, w = [name.val] := by
  obtain ⟨token, rfl, kind⟩ := holds
  exact ⟨⟨token, by simp [Token.isName, kind]⟩, rfl⟩

private theorem row_cons_holds (holds : Holds Meaning room (row (rule :: rules)) w) :
    ∃ u v, w = u ++ v ∧ Holds Meaning room rule u ∧ Holds Meaning room (row rules) v :=
  holds

private theorem row_keyword_holds (values : List String)
    (holds : Holds Meaning room (row (keyword values :: rules)) w) :
    ∃ (word : Word values) (v : List Token), w = word.val :: v ∧ Holds Meaning room (row rules) v := by
  obtain ⟨u, v, rfl, first, rest⟩ := holds
  obtain ⟨word, rfl⟩ := word_of_keyword _ first
  exact ⟨word, v, rfl, rest⟩

private theorem row_symbol_holds (values : List String)
    (holds : Holds Meaning room (row (symbol values :: rules)) w) :
    ∃ (word : Word values) (v : List Token), w = word.val :: v ∧ Holds Meaning room (row rules) v := by
  obtain ⟨u, v, rfl, first, rest⟩ := holds
  obtain ⟨word, rfl⟩ := word_of_symbol _ first
  exact ⟨word, v, rfl, rest⟩

private theorem row_identifier_holds (holds : Holds Meaning room (row (identifier :: rules)) w) :
    ∃ (name : Name) (v : List Token), w = name.val :: v ∧ Holds Meaning room (row rules) v := by
  obtain ⟨u, v, rfl, first, rest⟩ := holds
  obtain ⟨name, rfl⟩ := name_of_identifier first
  exact ⟨name, v, rfl, rest⟩

private theorem row_last_holds (holds : Holds Meaning room (row [rule]) w) :
    Holds Meaning room rule w := by
  obtain ⟨u, v, rfl, first, rfl⟩ := holds
  rwa [List.append_nil]

private theorem optional_holds (holds : Holds Meaning room (optional rule) w) :
    Holds Meaning room rule w ∨ w = [] :=
  holds

private theorem all_of_parts {α : Type} {tokens : α → List Token} {good : α → Prop}
    {parts : List (List Token)} (each : ∀ part ∈ parts, ∃ x, tokens x = part ∧ good x) :
    ∃ all : List α, all.flatMap tokens = parts.flatten ∧ ∀ x ∈ all, good x := by
  induction parts with
  | nil => exact ⟨[], rfl, by simp⟩
  | cons part parts ih =>
    obtain ⟨x, rfl, holds⟩ := each part (.head _)
    obtain ⟨all, same, good⟩ := ih fun part member => each part (.tail _ member)
    exact ⟨x :: all, by simp [same], by simpa using ⟨holds, good⟩⟩

private theorem many_holds {α : Type} (tokens : α → List Token) (good : α → Prop)
    (read : ∀ part, Holds Meaning room rule part → ∃ x, tokens x = part ∧ good x)
    (holds : Holds Meaning room (many rule) w) :
    ∃ all : List α, all.flatMap tokens = w ∧ ∀ x ∈ all, good x := by
  obtain ⟨parts, rfl, each⟩ := holds
  exact all_of_parts fun part member => read part (each part member)

private theorem commaList_holds {α : Type} (tokens : α → List Token) (good : α → Prop)
    (read : ∀ part, Holds Meaning room rule part → ∃ x, tokens x = part ∧ good x)
    (holds : Holds Meaning room (commaList rule) w) :
    ∃ (first : α) (more : List (Comma × α)), tokens first ++ commaTokens tokens more = w ∧
      good first ∧ ∀ pair ∈ more, good pair.2 := by
  obtain ⟨u, v, rfl, one, rest⟩ := row_cons_holds holds
  obtain ⟨first, rfl, here⟩ := read u one
  obtain ⟨more, rfl, each⟩ := many_holds (fun pair : Comma × α => pair.1.val :: tokens pair.2)
    (fun pair => good pair.2) (fun part pair => by
      obtain ⟨u, v, rfl, mark, one⟩ := row_cons_holds pair
      obtain ⟨comma, rfl⟩ := word_of_symbol _ mark
      obtain ⟨x, rfl, here⟩ := read v (row_last_holds one)
      exact ⟨(comma, x), rfl, here⟩) (row_last_holds rest)
  exact ⟨first, more, rfl, here, each⟩

end Holds

section Closed

variable {room : Nat} {w : List Token}

private theorem grow (parts : List (List Token)) (left : Expression) (fits : left.nesting ≤ room)
    (enough : left.operators + parts.length ≤ room)
    (each : ∀ i part, parts[i]? = some part → Holds Meaning (room - left.operators - (i + 1))
      (row [symbol ["+", "-", "*", "/", "&", "|", "<", ">", "="], phrase .term]) part) :
    ∃ e : Expression, e.tokens = left.tokens ++ parts.flatten ∧ e.nesting ≤ room := by
  induction parts generalizing left with
  | nil => exact ⟨left, by simp, fits⟩
  | cons part parts ih =>
    obtain ⟨u, v, rfl, mark, operand⟩ := row_cons_holds (each 0 part rfl)
    obtain ⟨operator, rfl⟩ := word_of_symbol binaryOperators mark
    obtain ⟨right, rfl, fits'⟩ := row_last_holds operand
    rw [List.length_cons] at enough
    have fits : (Expression.binary left operator right).nesting ≤ room := by
      rw [Expression.nesting]
      omega
    obtain ⟨e, same, fits⟩ := ih (.binary left operator right) fits
      (by rw [Expression.operators]; omega) fun i part found => by
        have level : room - (Expression.binary left operator right).operators - (i + 1) =
            room - left.operators - (i + 1 + 1) := by
          rw [Expression.operators]
          omega
        rw [level]
        exact each (i + 1) part found
    exact ⟨e, by simp [same, Expression.tokens], fits⟩

private theorem expression_closed (holds : Holds Meaning room (production .expression) w) :
    Meaning room .expression w := by
  obtain ⟨u, v, rfl, ⟨t, rfl, fits⟩, rest⟩ := row_cons_holds holds
  obtain ⟨parts, rfl, enough, each⟩ := row_last_holds rest
  exact grow parts (.term t) fits (by simpa [Expression.operators] using enough) each

private theorem element_holds
    (holds : Holds Meaning room
      (row [identifier, symbol ["["], phrase .expression, symbol ["]"]]) w) :
    Meaning (room + 1) .term w := by
  obtain ⟨array, v, rfl, rest₁⟩ := row_identifier_holds holds
  obtain ⟨opening, v, rfl, rest₂⟩ := row_symbol_holds _ rest₁
  obtain ⟨u, v, rfl, ⟨index, rfl, fits⟩, rest₃⟩ := row_cons_holds rest₂
  obtain ⟨closing, rfl⟩ := word_of_symbol _ (row_last_holds rest₃)
  exact ⟨.element array opening index closing, rfl, Nat.succ_le_succ fits⟩

private theorem group_holds
    (holds : Holds Meaning room (row [symbol ["("], phrase .expression, symbol [")"]]) w) :
    Meaning (room + 1) .term w := by
  obtain ⟨u, v, rfl, mark, rest₁⟩ := row_cons_holds holds
  obtain ⟨opening, rfl⟩ := symbolWord_of_symbol _ mark
  obtain ⟨u, v, rfl, ⟨inner, rfl, fits⟩, rest₂⟩ := row_cons_holds rest₁
  obtain ⟨closing, rfl⟩ := word_of_symbol _ (row_last_holds rest₂)
  exact ⟨.group opening inner closing, rfl, Nat.succ_le_succ fits⟩

private theorem literal_holds {token : Token} (literal : token.isLiteral = true) :
    Meaning (room + 1) .term [token] :=
  ⟨.literal ⟨token, literal⟩, rfl, Nat.succ_le_succ (Nat.zero_le room)⟩

private theorem term_closed (holds : Holds Meaning room (production .term) w) :
    Meaning room .term w := by
  obtain ⟨room, rfl, holds⟩ := holds
  rcases holds with number | text | word | name | element | call | group | unary
  · obtain ⟨token, rfl, kind⟩ := number
    exact literal_holds (by simp [Token.isLiteral, kind])
  · obtain ⟨token, rfl, kind⟩ := text
    exact literal_holds (by simp [Token.isLiteral, kind])
  · obtain ⟨token, rfl, kind, one⟩ := word
    exact literal_holds (by simpa [Token.isLiteral, kind, constantWords] using one)
  · obtain ⟨only, rfl⟩ := name_of_identifier name
    exact ⟨.name only, rfl, Nat.succ_le_succ (Nat.zero_le room)⟩
  · exact element_holds element
  · obtain ⟨c, rfl, fits⟩ := call
    exact ⟨.call c, rfl, Nat.succ_le_succ fits⟩
  · exact group_holds group
  · obtain ⟨u, v, rfl, mark, rest⟩ := row_cons_holds unary
    obtain ⟨operator, rfl⟩ := symbolWord_of_symbol unaryOperators mark
    obtain ⟨operand, rfl, fits⟩ := row_last_holds rest
    exact ⟨.unary operator operand, rfl, Nat.succ_le_succ fits⟩

private theorem call_closed (holds : Holds Meaning room (production .call) w) :
    Meaning room .call w := by
  obtain ⟨callee, v, rfl, rest₁⟩ := row_identifier_holds holds
  obtain ⟨u, v, rfl, qualified, rest₂⟩ := row_cons_holds rest₁
  obtain ⟨opening, v, rfl, rest₃⟩ := row_symbol_holds _ rest₂
  obtain ⟨u, v, rfl, ⟨arguments, rfl, fits⟩, rest₄⟩ := row_cons_holds rest₃
  obtain ⟨closing, rfl⟩ := word_of_symbol _ (row_last_holds rest₄)
  rcases optional_holds qualified with some | rfl
  · obtain ⟨dot, v, rfl, rest₅⟩ := row_symbol_holds _ some
    have member : ∃ member : MemberName, v = [member.val] := by
      rcases row_last_holds rest₅ with ⟨token, rfl, kind⟩ | ⟨token, rfl, kind⟩
      · exact ⟨⟨token, by simp [Token.isMemberName, kind]⟩, rfl⟩
      · exact ⟨⟨token, by simp [Token.isMemberName, kind]⟩, rfl⟩
    obtain ⟨member, rfl⟩ := member
    exact ⟨.qualified callee dot member opening arguments closing, rfl, fits⟩
  · exact ⟨.bare callee opening arguments closing, rfl, fits⟩

private theorem arguments_closed (holds : Holds Meaning room (production .arguments) w) :
    Meaning room .arguments w := by
  rcases optional_holds holds with list | rfl
  · obtain ⟨first, more, rfl, fits, each⟩ := commaList_holds _ _ (fun _ => id) list
    refine ⟨.listed first more, by rw [Arguments.tokens, moreArgumentTokens_eq], ?_⟩
    exact Nat.max_le.mpr ⟨fits, (moreArgumentNesting_le more room).mpr each⟩
  · exact ⟨.empty, rfl, Nat.zero_le room⟩

private theorem let_holds
    (holds : Holds Meaning room (row [keyword ["let"], identifier,
      optional (row [symbol ["["], phrase .expression, symbol ["]"]]), symbol ["="],
      phrase .expression, symbol [";"]]) w) : Meaning room .statement w := by
  obtain ⟨word, v, rfl, rest₁⟩ := row_keyword_holds _ holds
  obtain ⟨target, v, rfl, rest₂⟩ := row_identifier_holds rest₁
  obtain ⟨u, v, rfl, place, rest₃⟩ := row_cons_holds rest₂
  obtain ⟨equals, v, rfl, rest₄⟩ := row_symbol_holds _ rest₃
  obtain ⟨u, v, rfl, ⟨value, rfl, fits⟩, rest₅⟩ := row_cons_holds rest₄
  obtain ⟨semicolon, rfl⟩ := word_of_symbol _ (row_last_holds rest₅)
  rcases optional_holds place with some | rfl
  · obtain ⟨opening, v, rfl, rest₆⟩ := row_symbol_holds _ some
    obtain ⟨u, v, rfl, ⟨index, rfl, fits'⟩, rest₇⟩ := row_cons_holds rest₆
    obtain ⟨closing, rfl⟩ := word_of_symbol _ (row_last_holds rest₇)
    refine ⟨.assignElement word target opening index closing equals value semicolon, ?_,
      Nat.max_le.mpr ⟨fits', fits⟩⟩
    simp [Statement.tokens]
  · exact ⟨.assign word target equals value semicolon, rfl, fits⟩

private theorem if_holds
    (holds : Holds Meaning room (row [keyword ["if"], symbol ["("], phrase .expression,
      symbol [")"], phrase .block, optional (row [keyword ["else"], phrase .block])]) w) :
    Meaning room .statement w := by
  obtain ⟨word, v, rfl, rest₁⟩ := row_keyword_holds _ holds
  obtain ⟨opening, v, rfl, rest₂⟩ := row_symbol_holds _ rest₁
  obtain ⟨u, v, rfl, ⟨condition, rfl, fits₁⟩, rest₃⟩ := row_cons_holds rest₂
  obtain ⟨closing, v, rfl, rest₄⟩ := row_symbol_holds _ rest₃
  obtain ⟨u, v, rfl, ⟨body, rfl, fits₂⟩, rest₅⟩ := row_cons_holds rest₄
  rcases optional_holds (row_last_holds rest₅) with some | rfl
  · obtain ⟨otherwise, v, rfl, rest₆⟩ := row_keyword_holds _ some
    obtain ⟨alternative, rfl, fits₃⟩ := row_last_holds rest₆
    exact ⟨.ifElse word opening condition closing body otherwise alternative, rfl,
      Nat.max_le.mpr ⟨fits₁, Nat.max_le.mpr ⟨fits₂, fits₃⟩⟩⟩
  · refine ⟨.ifThen word opening condition closing body, ?_, Nat.max_le.mpr ⟨fits₁, fits₂⟩⟩
    simp [Statement.tokens]

private theorem while_holds
    (holds : Holds Meaning room (row [keyword ["while"], symbol ["("], phrase .expression,
      symbol [")"], phrase .block]) w) : Meaning room .statement w := by
  obtain ⟨word, v, rfl, rest₁⟩ := row_keyword_holds _ holds
  obtain ⟨opening, v, rfl, rest₂⟩ := row_symbol_holds _ rest₁
  obtain ⟨u, v, rfl, ⟨condition, rfl, fits₁⟩, rest₃⟩ := row_cons_holds rest₂
  obtain ⟨closing, v, rfl, rest₄⟩ := row_symbol_holds _ rest₃
  obtain ⟨body, rfl, fits₂⟩ := row_last_holds rest₄
  exact ⟨.loop word opening condition closing body, rfl, Nat.max_le.mpr ⟨fits₁, fits₂⟩⟩

private theorem do_holds
    (holds : Holds Meaning room (row [keyword ["do"], phrase .call, symbol [";"]]) w) :
    Meaning room .statement w := by
  obtain ⟨word, v, rfl, rest₁⟩ := row_keyword_holds _ holds
  obtain ⟨u, v, rfl, ⟨call, rfl, fits⟩, rest₂⟩ := row_cons_holds rest₁
  obtain ⟨semicolon, rfl⟩ := word_of_symbol _ (row_last_holds rest₂)
  exact ⟨.perform word call semicolon, rfl, fits⟩

private theorem return_holds
    (holds : Holds Meaning room
      (row [keyword ["return"], optional (phrase .expression), symbol [";"]]) w) :
    Meaning room .statement w := by
  obtain ⟨word, v, rfl, rest₁⟩ := row_keyword_holds _ holds
  obtain ⟨u, v, rfl, value, rest₂⟩ := row_cons_holds rest₁
  obtain ⟨semicolon, rfl⟩ := word_of_symbol _ (row_last_holds rest₂)
  rcases optional_holds value with ⟨e, rfl, fits⟩ | rfl
  · exact ⟨.returnValue word e semicolon, rfl, fits⟩
  · exact ⟨.returnNothing word semicolon, rfl, Nat.zero_le room⟩

private theorem statement_closed (holds : Holds Meaning room (production .statement) w) :
    Meaning room .statement w := by
  rcases holds with assign | branch | loop | perform | leave
  · exact let_holds assign
  · exact if_holds branch
  · exact while_holds loop
  · exact do_holds perform
  · exact return_holds leave

private theorem statements_closed (holds : Holds Meaning room (production .statements) w) :
    Meaning room .statements w := by
  obtain ⟨room, rfl, holds⟩ := holds
  obtain ⟨list, rfl, fits⟩ := many_holds _ _ (fun _ => id) holds
  exact ⟨list, statementTokens_eq list,
    Nat.succ_le_succ ((deepestStatement_le list room).mpr fits)⟩

private theorem block_closed (holds : Holds Meaning room (production .block) w) :
    Meaning room .block w := by
  obtain ⟨opening, v, rfl, rest₁⟩ := row_symbol_holds _ holds
  obtain ⟨u, v, rfl, ⟨list, rfl, fits⟩, rest₂⟩ := row_cons_holds rest₁
  obtain ⟨closing, rfl⟩ := word_of_symbol _ (row_last_holds rest₂)
  exact ⟨.braced opening list closing, rfl, fits⟩

private theorem type_closed (holds : Holds Meaning room (production .type) w) :
    Meaning room .type w := by
  rcases holds with builtIn | named
  · obtain ⟨word, rfl⟩ := word_of_keyword typeWords builtIn
    exact ⟨.builtIn word, rfl, Nat.zero_le room⟩
  · obtain ⟨name, rfl⟩ := name_of_identifier named
    exact ⟨.named name, rfl, Nat.zero_le room⟩

private theorem nameList_holds (holds : Holds Meaning room (commaList identifier) w) :
    ∃ names : NameList, names.tokens = w := by
  obtain ⟨first, more, rfl, -⟩ := commaList_holds nameTokens (fun _ => True)
    (fun part holds => by
      obtain ⟨name, rfl⟩ := name_of_identifier holds
      exact ⟨name, rfl, trivial⟩) holds
  exact ⟨⟨first, more⟩, rfl⟩

private theorem classVariables_closed (holds : Holds Meaning room (production .classVariables) w) :
    Meaning room .classVariables w := by
  obtain ⟨scope, v, rfl, rest₁⟩ := row_keyword_holds classVariableWords holds
  obtain ⟨u, v, rfl, ⟨type, rfl, -⟩, rest₂⟩ := row_cons_holds rest₁
  obtain ⟨u, v, rfl, list, rest₃⟩ := row_cons_holds rest₂
  obtain ⟨names, rfl⟩ := nameList_holds list
  obtain ⟨semicolon, rfl⟩ := word_of_symbol _ (row_last_holds rest₃)
  exact ⟨⟨scope, type, names, semicolon⟩, rfl, Nat.zero_le room⟩

private theorem localVariables_closed (holds : Holds Meaning room (production .localVariables) w) :
    Meaning room .localVariables w := by
  obtain ⟨word, v, rfl, rest₁⟩ := row_keyword_holds _ holds
  obtain ⟨u, v, rfl, ⟨type, rfl, -⟩, rest₂⟩ := row_cons_holds rest₁
  obtain ⟨u, v, rfl, list, rest₃⟩ := row_cons_holds rest₂
  obtain ⟨names, rfl⟩ := nameList_holds list
  obtain ⟨semicolon, rfl⟩ := word_of_symbol _ (row_last_holds rest₃)
  exact ⟨⟨word, type, names, semicolon⟩, rfl, Nat.zero_le room⟩

private theorem parameters_closed (holds : Holds Meaning room (production .parameters) w) :
    Meaning room .parameters w := by
  rcases optional_holds holds with list | rfl
  · obtain ⟨first, more, rfl, -⟩ := commaList_holds Parameter.tokens
      (fun _ => True) (fun part holds => by
        obtain ⟨u, v, rfl, ⟨type, rfl, -⟩, rest⟩ := row_cons_holds holds
        obtain ⟨name, rfl⟩ := name_of_identifier (row_last_holds rest)
        exact ⟨⟨type, name⟩, rfl, trivial⟩) list
    exact ⟨.listed first more, rfl, Nat.zero_le room⟩
  · exact ⟨.empty, rfl, Nat.zero_le room⟩

private theorem subroutineBody_closed (holds : Holds Meaning room (production .subroutineBody) w) :
    Meaning room .subroutineBody w := by
  obtain ⟨opening, v, rfl, rest₁⟩ := row_symbol_holds _ holds
  obtain ⟨u, v, rfl, list, rest₂⟩ := row_cons_holds rest₁
  obtain ⟨locals, rfl, -⟩ := many_holds _ _ (fun _ => id) list
  obtain ⟨u, v, rfl, ⟨statements, rfl, fits⟩, rest₃⟩ := row_cons_holds rest₂
  obtain ⟨closing, rfl⟩ := word_of_symbol _ (row_last_holds rest₃)
  exact ⟨⟨opening, locals, statements, closing⟩, rfl, fits⟩

private theorem subroutine_closed
    (holds : Holds Meaning room (production .subroutineDeclaration) w) :
    Meaning room .subroutineDeclaration w := by
  obtain ⟨word, v, rfl, rest₁⟩ := row_keyword_holds subroutineWords holds
  obtain ⟨u, v, rfl, result, rest₂⟩ := row_cons_holds rest₁
  obtain ⟨name, v, rfl, rest₃⟩ := row_identifier_holds rest₂
  obtain ⟨opening, v, rfl, rest₄⟩ := row_symbol_holds _ rest₃
  obtain ⟨u, v, rfl, ⟨parameters, rfl, -⟩, rest₅⟩ := row_cons_holds rest₄
  obtain ⟨closing, v, rfl, rest₆⟩ := row_symbol_holds _ rest₅
  obtain ⟨body, rfl, fits⟩ := row_last_holds rest₆
  have type : ∃ type : ReturnType, type.tokens = u := by
    rcases result with void | ⟨type, rfl, -⟩
    · obtain ⟨word, rfl⟩ := word_of_keyword _ void
      exact ⟨.void word, rfl⟩
    · exact ⟨.value type, rfl⟩
  obtain ⟨type, rfl⟩ := type
  exact ⟨⟨word, type, name, opening, parameters, closing, body⟩, rfl, fits⟩

private theorem class_closed (holds : Holds Meaning room (production .classDeclaration) w) :
    Meaning room .classDeclaration w := by
  obtain ⟨word, v, rfl, rest₁⟩ := row_keyword_holds _ holds
  obtain ⟨name, v, rfl, rest₂⟩ := row_identifier_holds rest₁
  obtain ⟨opening, v, rfl, rest₃⟩ := row_symbol_holds _ rest₂
  obtain ⟨u, v, rfl, list, rest₄⟩ := row_cons_holds rest₃
  obtain ⟨declarations, rfl, -⟩ := many_holds _ _ (fun _ => id) list
  obtain ⟨u, v, rfl, list, rest₅⟩ := row_cons_holds rest₄
  obtain ⟨subroutines, rfl, fits⟩ := many_holds _ _ (fun _ => id) list
  obtain ⟨closing, rfl⟩ := word_of_symbol _ (row_last_holds rest₅)
  exact ⟨⟨word, name, opening, declarations, subroutines, closing⟩, rfl,
    (ClassDeclaration.nesting_le _ _).mpr fits⟩

private theorem closed (room : Nat) (nonterminal : Nonterminal) (w : List Token)
    (holds : Holds Meaning room (production nonterminal) w) : Meaning room nonterminal w := by
  cases nonterminal with
  | classDeclaration => exact class_closed holds
  | classVariables => exact classVariables_closed holds
  | subroutineDeclaration => exact subroutine_closed holds
  | parameters => exact parameters_closed holds
  | subroutineBody => exact subroutineBody_closed holds
  | localVariables => exact localVariables_closed holds
  | type => exact type_closed holds
  | statements => exact statements_closed holds
  | statement => exact statement_closed holds
  | block => exact block_closed holds
  | expression => exact expression_closed holds
  | term => exact term_closed holds
  | call => exact call_closed holds
  | arguments => exact arguments_closed holds

end Closed

theorem exists_phrase {entry : EntryPoint} {room : Nat} {w : List Token}
    (derives : Derives room (start entry) w) :
    ∃ p : Phrase, p.entry = entry ∧ p.tokens = w ∧ p.nesting ≤ room := by
  have holds := derives.holds closed
  cases entry with
  | classDeclaration =>
    obtain ⟨x, same, fits⟩ := holds
    exact ⟨.classDeclaration x, rfl, same, fits⟩
  | classVariables =>
    obtain ⟨all, same, fits⟩ := many_holds _ _ (fun _ => id) holds
    exact ⟨.classVariables all, rfl, same, Nat.zero_le room⟩
  | subroutineDeclaration =>
    obtain ⟨x, same, fits⟩ := holds
    exact ⟨.subroutineDeclaration x, rfl, same, fits⟩
  | parameters =>
    obtain ⟨x, same, fits⟩ := holds
    exact ⟨.parameters x, rfl, same, fits⟩
  | subroutineBody =>
    obtain ⟨x, same, fits⟩ := holds
    exact ⟨.subroutineBody x, rfl, same, fits⟩
  | statements =>
    obtain ⟨x, same, fits⟩ := holds
    exact ⟨.statements x, rfl, same, fits⟩
  | statement =>
    obtain ⟨x, same, fits⟩ := holds
    exact ⟨.statement x, rfl, same, fits⟩
  | expression =>
    obtain ⟨x, same, fits⟩ := holds
    exact ⟨.expression x, rfl, same, fits⟩
  | term =>
    obtain ⟨x, same, fits⟩ := holds
    exact ⟨.term x, rfl, same, fits⟩
  | arguments =>
    obtain ⟨x, same, fits⟩ := holds
    exact ⟨.arguments x, rfl, same, fits⟩

/-! ## The end of file -/

def Rule.isVisible : Rule → Bool
  | .token kind => kind != .eof
  | .sequence first second | .choice first second => first.isVisible && second.isVisible
  | .many rule | .descend rule | .deeper rule => rule.isVisible
  | .keyword _ | .symbol _ | .phrase _ | .nothing => true

private theorem production_isVisible (nonterminal : Nonterminal) :
    (production nonterminal).isVisible = true := by
  cases nonterminal <;> rfl

private theorem start_isVisible (entry : EntryPoint) : (start entry).isVisible = true := by
  cases entry <;> rfl

theorem Derives.kind_ne_eof {room : Nat} {rule : Rule} {w : List Token}
    (derives : Derives room rule w) (visible : rule.isVisible = true) :
    ∀ t ∈ w, t.kind ≠ .eof := by
  induction derives with
  | keyword kind one => simp [kind]
  | symbol kind one => simp [kind]
  | token => simpa [Rule.isVisible] using visible
  | phrase body ih => exact ih (production_isVisible _)
  | nothing => simp
  | sequence left right ihl ihr =>
    rw [Rule.isVisible, Bool.and_eq_true] at visible
    exact List.forall_mem_append.mpr ⟨ihl visible.1, ihr visible.2⟩
  | first here ih =>
    rw [Rule.isVisible, Bool.and_eq_true] at visible
    exact ih visible.1
  | second here ih =>
    rw [Rule.isVisible, Bool.and_eq_true] at visible
    exact ih visible.2
  | none => simp
  | more one rest ih₁ ih₂ => exact List.forall_mem_append.mpr ⟨ih₁ visible, ih₂ visible⟩
  | bottom => simp
  | down one rest ih₁ ih₂ => exact List.forall_mem_append.mpr ⟨ih₁ visible, ih₂ visible⟩
  | deeper body ih => exact ih visible

end Grammar

/-! ## The inputs that are read -/

/-- An input is read exactly when it is a word of the grammar up to its first end of file. -/
theorem parse_iff_derives (entry : EntryPoint) (tokens : List Token)
    (proper : ∀ t ∈ tokens, t.Proper) :
    (∃ phrase, parse entry (tokens.map .ok) = .ok phrase) ↔
      ∃ w close rest, tokens = w ++ close :: rest ∧ (∀ t ∈ w, t.kind ≠ .eof) ∧
        close.kind = .eof ∧ Grammar.Derives maxNesting (Grammar.start entry) w := by
  constructor
  · rintro ⟨phrase, read⟩
    obtain ⟨close, rest, taken, ends, rfl, fits⟩ := parse_reads read
    obtain ⟨w, after, rfl, here, there⟩ := List.map_eq_append_iff.mp taken
    obtain ⟨close', rest, rfl, same, -⟩ := List.map_eq_cons_iff.mp there
    cases same
    have spelt : w = phrase.tokens :=
      (List.map_inj_right fun _ _ same => Except.ok.inj same).mp here
    subst spelt
    have derives := Grammar.phrase_derives
      (fun t member => proper t (List.mem_append_left _ member)) fits
    exact ⟨_, close, rest, rfl, derives.kind_ne_eof (Grammar.start_isVisible _), ends, derives⟩
  · rintro ⟨w, close, rest, rfl, -, ends, derives⟩
    obtain ⟨phrase, rfl, rfl, fits⟩ := Grammar.exists_phrase derives
    refine ⟨phrase, ?_⟩
    rw [List.map_append, List.map_cons]
    exact parse_of_phrase fits close ends _

private def memberCall : List Token :=
  [⟨1, .symbol, "-"⟩, ⟨1, .identifier, "a"⟩, ⟨1, .symbol, "."⟩, ⟨1, .keyword, "class"⟩,
    ⟨1, .symbol, "("⟩, ⟨2, .symbol, ")"⟩, ⟨2, .symbol, "+"⟩, ⟨2, .integerConstant, "1"⟩,
    .endOfFile 2, .endOfFile 3]

theorem parse_iff_derives_member_call :
    (∀ t ∈ memberCall, t.Proper) ∧
    ∃ w close rest, memberCall = w ++ close :: rest ∧ (∀ t ∈ w, t.kind ≠ .eof) ∧
      close.kind = .eof ∧ Grammar.Derives maxNesting (Grammar.start .expression) w := by
  have proper : ∀ t ∈ memberCall, t.Proper := by decide
  have accepted : (parse .expression (memberCall.map .ok)).toOption.isSome = true := by
    decide +kernel
  refine ⟨proper, (parse_iff_derives .expression memberCall proper).mp ?_⟩
  cases read : parse .expression (memberCall.map .ok) with
  | ok phrase => exact ⟨phrase, rfl⟩
  | error e => rw [read] at accepted; cases accepted

end JackCompiler
