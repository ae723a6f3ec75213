import JackCompiler.Phrase.Numbering
import JackCompiler.Proofs.Phrase.Induction

namespace JackCompiler

mutual

def Expression.nodes : Expression → Nat
  | .term term => term.nodes + 1
  | .binary left _ right => left.nodes + right.nodes + 1

def Term.nodes : Term → Nat
  | .literal _ => 2
  | .name _ => 2
  | .element _ _ index _ => index.nodes + 5
  | .call call => call.nodes + 1
  | .group _ inner _ => inner.nodes + 3
  | .unary _ operand => operand.nodes + 2

def Call.nodes : Call → Nat
  | .bare _ _ arguments _ => arguments.nodes + 4
  | .qualified _ _ _ _ arguments _ => arguments.nodes + 6

def Arguments.nodes : Arguments → Nat
  | .empty => 1
  | .listed first more => first.nodes + moreArgumentNodes more + 1

def moreArgumentNodes : List (Comma × Expression) → Nat
  | [] => 0
  | (_, argument) :: more => argument.nodes + moreArgumentNodes more + 1

end

mutual

def Statement.nodes : Statement → Nat
  | .assign _ _ _ value _ => value.nodes + 6
  | .assignElement _ _ _ index _ _ value _ => index.nodes + value.nodes + 8
  | .ifThen _ _ condition _ body => condition.nodes + body.nodes + 4
  | .ifElse _ _ condition _ body _ alternative =>
    condition.nodes + body.nodes + alternative.nodes + 5
  | .loop _ _ condition _ body => condition.nodes + body.nodes + 4
  | .perform _ call _ => call.nodes + 3
  | .returnNothing _ _ => 3
  | .returnValue _ value _ => value.nodes + 3

def Block.nodes : Block → Nat
  | .braced _ statements _ => statementNodes statements + 3

def statementNodes : List Statement → Nat
  | [] => 0
  | statement :: statements => statement.nodes + statementNodes statements

end

namespace Tree

variable (number : Nat) (kind : NodeKind) (token? : Option Token) (children : List Tree)

@[simp]
theorem number_node : (node number kind token? children).number = number := rfl

@[simp]
theorem kind_node : (node number kind token? children).kind = kind := rfl

@[simp]
theorem children_node : (node number kind token? children).children = children := rfl

@[simp]
theorem value?_node : (node number kind token? children).value? = token?.map Token.value := rfl

end Tree

namespace Numbering

variable {α β : Type}

@[simp]
theorem bind_apply (x : Numbering α) (next : α → Numbering β) (number : Nat) :
    (x >>= next) number = next (x number).1 (x number).2 := rfl

@[simp]
theorem pure_apply (x : α) (number : Nat) : (pure x : Numbering α) number = (x, number) := rfl

@[simp]
theorem map_apply (f : α → β) (x : Numbering α) (number : Nat) :
    (f <$> x) number = (f (x number).1, (x number).2) := rfl

@[simp]
theorem nextNumber_apply (number : Nat) : nextNumber number = (number, number + 1) := rfl

@[simp]
theorem nameLeaf_apply (token : Token) (number : Nat) :
    nameLeaf token number = (.node number .identifier (some token) [], number + 1) := rfl

@[simp]
theorem wordLeaf_next (token : Token) (number : Nat) : (wordLeaf token number).2 = number + 1 := rfl

@[simp]
theorem literalLeaf_next (token : Token) (number : Nat) :
    (literalLeaf token number).2 = number + 1 := rfl

end Numbering

private theorem toTree_next_of {e : Expression}
    (next : ∀ number, (e.operandTree number).2 + 1 = number + e.nodes) (number : Nat) :
    (e.toTree number).2 = number + e.nodes := by
  have inner := next (number + 1)
  simp only [Expression.toTree, Numbering.bind_apply, Numbering.nextNumber_apply,
    Numbering.pure_apply]
  omega

private theorem moreArgumentTrees_next {more : List (Comma × Expression)}
    (each : ∀ pair ∈ more, ∀ number, (pair.2.operandTree number).2 + 1 = number + pair.2.nodes)
    (done : List Tree) (number : Nat) :
    (moreArgumentTrees more done number).2 = number + moreArgumentNodes more := by
  induction more generalizing done number with
  | nil => simp [moreArgumentTrees, moreArgumentNodes]
  | cons pair more ih =>
    obtain ⟨comma, argument⟩ := pair
    simp only [moreArgumentTrees, Numbering.bind_apply, Numbering.wordLeaf_next,
      ih (fun pair member => each pair (.tail _ member)), toTree_next_of (each _ (.head _)),
      moreArgumentNodes]
    omega

private theorem expressions_next :
    (∀ (e : Expression) number, (e.operandTree number).2 + 1 = number + e.nodes) ∧
    (∀ (t : Term) number, (t.toTree number).2 = number + t.nodes) ∧
    (∀ (c : Call) number, (c.toTree number).2 = number + c.nodes) ∧
    (∀ (a : Arguments) number, (a.toTree number).2 = number + a.nodes) := by
  apply Expression.induction
  case term =>
    intro t ih number
    rw [Expression.operandTree, ih, Expression.nodes]
    omega
  case binary =>
    intro left operator right first second number
    have here := first number
    simp only [Expression.operandTree, Numbering.bind_apply, Numbering.nextNumber_apply,
      Numbering.pure_apply, second, Expression.nodes]
    omega
  case literal =>
    intro value number
    simp only [Term.toTree, Numbering.bind_apply, Numbering.nextNumber_apply,
      Numbering.literalLeaf_next, Numbering.pure_apply, Term.nodes]
  case name =>
    intro name number
    simp only [Term.toTree, Numbering.bind_apply, Numbering.nextNumber_apply,
      Numbering.nameLeaf_apply, Numbering.pure_apply, Term.nodes]
  case element =>
    intro array opening index closing ih number
    simp only [Term.toTree, Numbering.bind_apply, Numbering.nextNumber_apply,
      Numbering.nameLeaf_apply, Numbering.wordLeaf_next, Numbering.pure_apply, toTree_next_of ih,
      Term.nodes]
    omega
  case call =>
    intro c ih number
    simp only [Term.toTree, Numbering.bind_apply, Numbering.nextNumber_apply, Numbering.pure_apply,
      ih, Term.nodes]
    omega
  case group =>
    intro opening inner closing ih number
    simp only [Term.toTree, Numbering.bind_apply, Numbering.nextNumber_apply,
      Numbering.wordLeaf_next, Numbering.pure_apply, toTree_next_of ih, Term.nodes]
    omega
  case unary =>
    intro operator operand ih number
    simp only [Term.toTree, Numbering.bind_apply, Numbering.nextNumber_apply, Numbering.pure_apply,
      ih, Term.nodes]
    omega
  case bare =>
    intro name opening arguments closing ih number
    simp only [Call.toTree, Numbering.bind_apply, Numbering.nextNumber_apply,
      Numbering.nameLeaf_apply, Numbering.wordLeaf_next, Numbering.pure_apply, ih, Call.nodes]
    omega
  case qualified =>
    intro qualifier dot name opening arguments closing ih number
    simp only [Call.toTree, Numbering.bind_apply, Numbering.nextNumber_apply,
      Numbering.nameLeaf_apply, Numbering.wordLeaf_next, Numbering.pure_apply, ih, Call.nodes]
    omega
  case empty => intro number; simp [Arguments.toTree, Arguments.nodes]
  case listed =>
    intro first more one each number
    simp only [Arguments.toTree, Numbering.bind_apply, Numbering.nextNumber_apply,
      Numbering.pure_apply, toTree_next_of one, moreArgumentTrees_next each, Arguments.nodes]
    omega

@[simp]
theorem Expression.toTree_next (e : Expression) (number : Nat) :
    (e.toTree number).2 = number + e.nodes :=
  toTree_next_of (expressions_next.1 e) number

theorem Expression.operandTree_next (e : Expression) (number : Nat) :
    (e.operandTree number).2 + 1 = number + e.nodes :=
  expressions_next.1 e number

@[simp]
theorem Term.toTree_next (t : Term) (number : Nat) : (t.toTree number).2 = number + t.nodes :=
  expressions_next.2.1 t number

@[simp]
theorem Call.toTree_next (c : Call) (number : Nat) : (c.toTree number).2 = number + c.nodes :=
  expressions_next.2.2.1 c number

@[simp]
theorem Arguments.toTree_next (a : Arguments) (number : Nat) :
    (a.toTree number).2 = number + a.nodes :=
  expressions_next.2.2.2 a number

private theorem statementTrees_next_of {statements : List Statement}
    (each : ∀ s ∈ statements, ∀ number, (s.toTree number).2 = number + s.nodes)
    (done : List Tree) (number : Nat) :
    (statementTrees statements done number).2 = number + statementNodes statements := by
  induction statements generalizing done number with
  | nil => simp [statementTrees, statementNodes]
  | cons s statements ih =>
    simp only [statementTrees, Numbering.bind_apply, ih (fun s member => each s (.tail _ member)),
      each s (.head _), statementNodes]
    omega

private theorem statements_next :
    (∀ (s : Statement) number, (s.toTree number).2 = number + s.nodes) ∧
    (∀ (b : Block) number, (b.toTrees number).2 = number + b.nodes) := by
  apply Statement.induction
  case braced =>
    intro opening statements closing each number
    simp only [Block.toTrees, Numbering.bind_apply, Numbering.nextNumber_apply,
      Numbering.wordLeaf_next, Numbering.pure_apply, statementTrees_next_of each, Block.nodes]
    omega
  case ifThen =>
    intro keyword opening condition closing body ih number
    simp only [Statement.toTree, Numbering.bind_apply, Numbering.nextNumber_apply,
      Numbering.wordLeaf_next, Numbering.pure_apply, Expression.toTree_next, ih, Statement.nodes]
    omega
  case ifElse =>
    intro keyword opening condition closing body otherwise alternative ih ih' number
    simp only [Statement.toTree, Numbering.bind_apply, Numbering.nextNumber_apply,
      Numbering.wordLeaf_next, Numbering.pure_apply, Expression.toTree_next, ih, ih',
      Statement.nodes]
    omega
  case loop =>
    intro keyword opening condition closing body ih number
    simp only [Statement.toTree, Numbering.bind_apply, Numbering.nextNumber_apply,
      Numbering.wordLeaf_next, Numbering.pure_apply, Expression.toTree_next, ih, Statement.nodes]
    omega
  case returnNothing =>
    intro keyword semicolon number
    simp only [Statement.toTree, Numbering.bind_apply, Numbering.nextNumber_apply,
      Numbering.wordLeaf_next, Numbering.pure_apply, Statement.nodes]
  all_goals
    intros
    simp only [Statement.toTree, Numbering.bind_apply, Numbering.nextNumber_apply,
      Numbering.nameLeaf_apply, Numbering.wordLeaf_next, Numbering.pure_apply,
      Expression.toTree_next, Call.toTree_next, Statement.nodes]
    omega

@[simp]
theorem Statement.toTree_next (s : Statement) (number : Nat) :
    (s.toTree number).2 = number + s.nodes :=
  statements_next.1 s number

@[simp]
theorem Block.toTrees_next (b : Block) (number : Nat) : (b.toTrees number).2 = number + b.nodes :=
  statements_next.2 b number

theorem statementTrees_next (statements : List Statement) (done : List Tree) (number : Nat) :
    (statementTrees statements done number).2 = number + statementNodes statements :=
  statementTrees_next_of (fun s _ => s.toTree_next) done number

theorem moreArgumentTrees_done (more : List (Comma × Expression)) (done : List Tree)
    (number : Nat) :
    (moreArgumentTrees more done number).1 = done.reverse ++ (moreArgumentTrees more [] number).1 := by
  induction more generalizing done number with
  | nil => simp [moreArgumentTrees]
  | cons pair more ih =>
    obtain ⟨comma, argument⟩ := pair
    simp only [moreArgumentTrees, Numbering.bind_apply, ih (_ :: _ :: done), ih [_, _]]
    simp

theorem moreArgumentTrees_cons (comma : Comma) (argument : Expression)
    (more : List (Comma × Expression)) (number : Nat) :
    (moreArgumentTrees ((comma, argument) :: more) [] number).1 =
      (wordLeaf comma.val number).1 :: (argument.toTree (number + 1)).1 ::
        (moreArgumentTrees more [] (number + 1 + argument.nodes)).1 := by
  rw [moreArgumentTrees]
  simp [moreArgumentTrees_done more [_, _]]

theorem Arguments.toTree_listed (first : Expression) (more : List (Comma × Expression))
    (number : Nat) :
    ((Arguments.listed first more).toTree number).1 = .node number .expressionList none
      ((first.toTree (number + 1)).1 ::
        (moreArgumentTrees more [] (number + 1 + first.nodes)).1) := by
  simp [Arguments.toTree, moreArgumentTrees_done more [_]]

theorem statementTrees_done (statements : List Statement) (done : List Tree) (number : Nat) :
    (statementTrees statements done number).1 =
      done.reverse ++ (statementTrees statements [] number).1 := by
  induction statements generalizing done number with
  | nil => simp [statementTrees]
  | cons s statements ih =>
    simp only [statementTrees, Numbering.bind_apply, ih (_ :: done), ih [_]]
    simp

theorem statementTrees_cons (s : Statement) (statements : List Statement) (number : Nat) :
    (statementTrees (s :: statements) [] number).1 =
      (s.toTree number).1 :: (statementTrees statements [] (number + s.nodes)).1 := by
  rw [statementTrees]
  simp [statementTrees_done statements [_]]

def Block.statements : Block → List Statement
  | .braced _ statements _ => statements

theorem Block.toTrees_eq (b : Block) (number : Nat) :
    ∃ opening closing after, (b.toTrees number).1 =
      [(wordLeaf opening number).1, (statementsTree b.statements (number + 1)).1,
        (wordLeaf closing after).1] := by
  obtain ⟨opening, statements, closing⟩ := b
  exact ⟨opening.val, closing.val, _, by rw [Block.toTrees]; rfl⟩

end JackCompiler
