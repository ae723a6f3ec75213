import JackCompiler.Phrase.Basic

namespace JackCompiler

section Expression

variable {E : Expression → Prop} {T : Term → Prop} {C : Call → Prop} {A : Arguments → Prop}

private theorem pairs_cons (pair : Comma × Expression) (more : List (Comma × Expression))
    (holds : E pair.2) (all : ∀ p ∈ more, E p.2) : ∀ p ∈ pair :: more, E p.2 := by
  intro p member
  rcases List.mem_cons.mp member with rfl | member
  · exact holds
  · exact all p member

theorem Expression.induction
    (term : ∀ t, T t → E (.term t))
    (binary : ∀ left operator right, E left → T right → E (.binary left operator right))
    (literal : ∀ value, T (.literal value))
    (name : ∀ n, T (.name n))
    (element : ∀ array opening index closing, E index → T (.element array opening index closing))
    (call : ∀ c, C c → T (.call c))
    (group : ∀ opening inner closing, E inner → T (.group opening inner closing))
    (unary : ∀ operator operand, T operand → T (.unary operator operand))
    (bare : ∀ n opening arguments closing, A arguments → C (.bare n opening arguments closing))
    (qualified : ∀ qualifier dot n opening arguments closing, A arguments →
      C (.qualified qualifier dot n opening arguments closing))
    (empty : A .empty)
    (listed : ∀ first more, E first → (∀ pair ∈ more, E pair.2) → A (.listed first more)) :
    (∀ e, E e) ∧ (∀ t, T t) ∧ (∀ c, C c) ∧ (∀ a, A a) := by
  have none : ∀ pair ∈ ([] : List (Comma × Expression)), E pair.2 := by simp
  exact
    ⟨@Expression.rec E T C A (∀ p ∈ ·, E p.2) (fun p => E p.2) term binary literal name element call
      group unary bare qualified empty listed none pairs_cons (fun _ _ => id),
    @Term.rec E T C A (∀ p ∈ ·, E p.2) (fun p => E p.2) term binary literal name element call
      group unary bare qualified empty listed none pairs_cons (fun _ _ => id),
    @Call.rec E T C A (∀ p ∈ ·, E p.2) (fun p => E p.2) term binary literal name element call
      group unary bare qualified empty listed none pairs_cons (fun _ _ => id),
    @Arguments.rec E T C A (∀ p ∈ ·, E p.2) (fun p => E p.2) term binary literal name element call
      group unary bare qualified empty listed none pairs_cons (fun _ _ => id)⟩

end Expression

section Statement

variable {S : Statement → Prop} {B : Block → Prop}

private theorem statements_cons (statement : Statement) (statements : List Statement)
    (holds : S statement) (all : ∀ s ∈ statements, S s) :
    ∀ s ∈ statement :: statements, S s := by
  intro s member
  rcases List.mem_cons.mp member with rfl | member
  · exact holds
  · exact all s member

theorem Statement.induction
    (assign : ∀ keyword target equals value semicolon,
      S (.assign keyword target equals value semicolon))
    (assignElement : ∀ keyword array opening index closing equals value semicolon,
      S (.assignElement keyword array opening index closing equals value semicolon))
    (ifThen : ∀ keyword opening condition closing body, B body →
      S (.ifThen keyword opening condition closing body))
    (ifElse : ∀ keyword opening condition closing body otherwise alternative, B body →
      B alternative → S (.ifElse keyword opening condition closing body otherwise alternative))
    (loop : ∀ keyword opening condition closing body, B body →
      S (.loop keyword opening condition closing body))
    (perform : ∀ keyword call semicolon, S (.perform keyword call semicolon))
    (returnNothing : ∀ keyword semicolon, S (.returnNothing keyword semicolon))
    (returnValue : ∀ keyword value semicolon, S (.returnValue keyword value semicolon))
    (braced : ∀ opening statements closing, (∀ s ∈ statements, S s) →
      B (.braced opening statements closing)) :
    (∀ s, S s) ∧ (∀ b, B b) := by
  have none : ∀ s ∈ ([] : List Statement), S s := by simp
  exact
    ⟨@Statement.rec S B (∀ s ∈ ·, S s) assign assignElement ifThen ifElse loop perform
      returnNothing returnValue braced none statements_cons,
    @Block.rec S B (∀ s ∈ ·, S s) assign assignElement ifThen ifElse loop perform
      returnNothing returnValue braced none statements_cons⟩

end Statement

end JackCompiler
