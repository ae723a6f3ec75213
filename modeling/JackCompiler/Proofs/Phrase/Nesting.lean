import JackCompiler.Proofs.Phrase.Acceptance
import JackCompiler.Proofs.Phrase.Declarations
import JackCompiler.Proofs.Phrase.Reading

/-!
# Depth of a tree

How many levels of terms, operators and statements lie one below the other in a tree that has been
read. The levels of an operand are given back before the operators after it put it further down, so
there can be more of them than phrases may nest. Main statement: `descent_levels_le`.
-/

namespace JackCompiler

/-! ## Ways down a tree -/

/-- The nodes on a way from the root of a tree to one of its nodes. -/
inductive Descent : Tree → List Tree → Prop
  | here (tree : Tree) : Descent tree [tree]
  | step {tree child : Tree} {path : List Tree} :
    child ∈ tree.children → Descent child path → Descent tree (tree :: path)

def NodeKind.isLevel : NodeKind → Bool
  | .term | .binaryOp | .statements => true
  | _ => false

def levels (path : List Tree) : Nat := path.countP (·.kind.isLevel)

def sumTo : Nat → Nat
  | 0 => 0
  | room + 1 => sumTo room + (room + 1)

theorem sumTo_eq (room : Nat) : sumTo room = room * (room + 1) / 2 := by
  have twice : 2 * sumTo room = room * (room + 1) := by
    induction room with
    | zero => rfl
    | succ room ih =>
      rw [sumTo, Nat.mul_add, ih, ← Nat.add_mul, Nat.mul_comm]
  omega

/-! ## Bounded trees -/

private def Within (bound : Nat) (tree : Tree) : Prop :=
  ∀ path, Descent tree path → levels path ≤ bound

private abbrev WithinAll (bound : Nat) (trees : List Tree) : Prop := ∀ tree ∈ trees, Within bound tree

section Within

variable {bound more number room : Nat} {tree : Tree} {trees others : List Tree} {kind : NodeKind}
  {token? : Option Token}

private theorem Within.mono (within : Within bound tree) (less : bound ≤ more) : Within more tree :=
  fun path descent => Nat.le_trans (within path descent) less

private theorem WithinAll.mono (within : WithinAll bound trees) (less : bound ≤ more) :
    WithinAll more trees :=
  fun tree member => (within tree member).mono less

private theorem withinAll_nil : WithinAll bound [] := fun _ member => absurd member List.not_mem_nil

private theorem withinAll_cons (one : Within bound tree) (rest : WithinAll bound trees) :
    WithinAll bound (tree :: trees) :=
  List.forall_mem_cons.mpr ⟨one, rest⟩

private theorem WithinAll.append (first : WithinAll bound trees) (rest : WithinAll bound others) :
    WithinAll bound (trees ++ others) :=
  List.forall_mem_append.mpr ⟨first, rest⟩

private theorem within_level (all : WithinAll bound trees) :
    Within (bound + 1) (.node number kind token? trees) := by
  intro path descent
  cases descent with
  | here => exact Nat.le_trans List.countP_le_length (Nat.le_add_left _ _)
  | step member descent =>
    rw [levels, List.countP_cons]
    have below := all _ member _ descent
    rw [levels] at below
    split <;> omega

private theorem within_plain (plain : kind.isLevel = false) (all : WithinAll bound trees) :
    Within bound (.node number kind token? trees) := by
  intro path descent
  cases descent with
  | here => simp [levels, Tree.kind, plain]
  | step member descent =>
    rw [levels, List.countP_cons_of_neg (by simp [Tree.kind, plain])]
    exact all _ member _ descent

private theorem within_leaf (plain : kind.isLevel = false) :
    Within bound (.node number kind token? []) :=
  within_plain plain withinAll_nil

private theorem within_wordLeaf (token : Token) (number : Nat) :
    Within bound (wordLeaf token number).1 := by
  change Within bound (.node number (if token.kind = .keyword then .keyword else .symbol) _ [])
  split <;> exact within_leaf rfl

private theorem within_literalLeaf (token : Token) (number : Nat) :
    Within bound (literalLeaf token number).1 := by
  obtain ⟨line, kind, value⟩ := token
  cases kind <;> exact within_leaf rfl

/-! ## Expressions -/

private theorem nesting_pos (t : Term) : 0 < t.nesting := by
  cases t <;> rw [Term.nesting] <;> exact Nat.succ_pos _

private theorem operators_lt_nesting (e : Expression) : e.operators < e.nesting := by
  cases e with
  | term t =>
    rw [Expression.nesting]
    exact nesting_pos t
  | binary left operator right =>
    have positive := nesting_pos right
    rw [Expression.nesting, Expression.operators]
    omega

private abbrev Operand (e : Expression) : Prop :=
  ∀ room number, e.nesting ≤ room + 1 →
    Within (e.operators + 1 + sumTo room) (e.operandTree number).1

private theorem within_expression {e : Expression} (operand : Operand e) (fits : e.nesting ≤ room)
    (number : Nat) : Within (sumTo room) (e.toTree number).1 := by
  have less := operators_lt_nesting e
  obtain ⟨room, rfl⟩ := Nat.exists_eq_add_of_le' (Nat.lt_of_lt_of_le (Nat.zero_lt_of_lt less) fits)
  rw [Expression.toTree]
  refine within_plain rfl (withinAll_cons ?_ withinAll_nil)
  -- At most `room` operators and the level of the operand make up the last number of the sum.
  refine (operand room _ fits).mono ?_
  rw [sumTo]
  omega

private theorem within_moreArguments {more : List (Comma × Expression)}
    (each : ∀ pair ∈ more, Operand pair.2) (fits : moreArgumentNesting more ≤ room)
    (number : Nat) : WithinAll (sumTo room) (moreArgumentTrees more [] number).1 := by
  induction more generalizing number with
  | nil =>
    rw [moreArgumentTrees]
    exact withinAll_nil
  | cons pair more ih =>
    obtain ⟨comma, argument⟩ := pair
    rw [moreArgumentNesting, Nat.max_le] at fits
    rw [moreArgumentTrees_cons]
    exact withinAll_cons (within_wordLeaf _ _) (withinAll_cons
      (within_expression (each _ (.head _)) fits.1 _)
      (ih (fun pair member => each pair (.tail _ member)) fits.2 _))

private theorem within_expressions :
    (∀ e : Expression, Operand e) ∧
    (∀ (t : Term) room number, t.nesting ≤ room + 1 →
      Within (1 + sumTo room) (t.toTree number).1) ∧
    (∀ (c : Call) room number, c.nesting ≤ room → Within (sumTo room) (c.toTree number).1) ∧
    (∀ (a : Arguments) room number, a.nesting ≤ room → Within (sumTo room) (a.toTree number).1) := by
  apply Expression.induction
  case term =>
    intro t ih room number fits
    rw [Expression.nesting] at fits
    rw [Expression.operandTree, Expression.operators, Nat.zero_add]
    exact ih room number fits
  case binary =>
    intro left operator right first second room number fits
    rw [Expression.nesting, Nat.max_le] at fits
    rw [Expression.operandTree, Expression.operators]
    -- Each operator puts its first operand deeper; the second is read with the operators counted.
    have outer := first room number fits.1
    have shallow : right.nesting ≤ room := by omega
    have inner := second room (left.operandTree number).2.succ (Nat.le_succ_of_le shallow)
    refine (within_level (withinAll_cons outer (withinAll_cons (inner.mono ?_) withinAll_nil))).mono ?_
    · omega
    · omega
  case literal =>
    intro value room number fits
    rw [Term.toTree, Nat.add_comm]
    exact within_level (withinAll_cons (within_literalLeaf _ _) withinAll_nil)
  case name =>
    intro name room number fits
    rw [Term.toTree, Nat.add_comm]
    exact within_level (withinAll_cons (within_leaf rfl) withinAll_nil)
  case element =>
    intro array opening index closing ih room number fits
    rw [Term.nesting] at fits
    rw [Term.toTree, Nat.add_comm]
    exact within_level (withinAll_cons (within_plain rfl (withinAll_cons (within_leaf rfl)
      (withinAll_cons (within_wordLeaf _ _) (withinAll_cons
        (within_expression ih (Nat.le_of_succ_le_succ fits) _)
        (withinAll_cons (within_wordLeaf _ _) withinAll_nil))))) withinAll_nil)
  case call =>
    intro c ih room number fits
    rw [Term.nesting] at fits
    rw [Term.toTree, Nat.add_comm]
    exact within_level (withinAll_cons (ih room _ (Nat.le_of_succ_le_succ fits)) withinAll_nil)
  case group =>
    intro opening inner closing ih room number fits
    rw [Term.nesting] at fits
    rw [Term.toTree, Nat.add_comm]
    exact within_level (withinAll_cons (within_wordLeaf _ _) (withinAll_cons
      (within_expression ih (Nat.le_of_succ_le_succ fits) _)
      (withinAll_cons (within_wordLeaf _ _) withinAll_nil)))
  case unary =>
    intro operator operand ih room number fits
    rw [Term.nesting] at fits
    have positive := nesting_pos operand
    obtain ⟨less, rfl⟩ := Nat.exists_eq_add_of_le' (show 1 ≤ room by omega)
    rw [Term.toTree, Nat.add_comm]
    have inner := ih less (number + 2) (Nat.le_of_succ_le_succ fits)
    refine within_level (withinAll_cons (within_plain rfl (withinAll_cons (inner.mono ?_)
      withinAll_nil)) withinAll_nil)
    rw [sumTo]
    omega
  case bare =>
    intro name opening arguments closing ih room number fits
    rw [Call.nesting] at fits
    rw [Call.toTree]
    exact within_plain rfl (withinAll_cons (within_leaf rfl) (withinAll_cons (within_wordLeaf _ _)
      (withinAll_cons (ih room _ fits) (withinAll_cons (within_wordLeaf _ _) withinAll_nil))))
  case qualified =>
    intro qualifier dot name opening arguments closing ih room number fits
    rw [Call.nesting] at fits
    rw [Call.toTree]
    exact within_plain rfl (withinAll_cons (within_leaf rfl) (withinAll_cons (within_wordLeaf _ _)
      (withinAll_cons (within_leaf rfl) (withinAll_cons (within_wordLeaf _ _)
        (withinAll_cons (ih room _ fits) (withinAll_cons (within_wordLeaf _ _) withinAll_nil))))))
  case empty =>
    intro room number fits
    rw [Arguments.toTree]
    exact within_leaf rfl
  case listed =>
    intro first more one each room number fits
    rw [Arguments.nesting, Nat.max_le] at fits
    rw [Arguments.toTree_listed]
    exact within_plain rfl (withinAll_cons (within_expression one fits.1 _)
      (within_moreArguments each fits.2 _))

/-! ## Statements -/

private theorem within_statementsTree {statements : List Statement}
    (each : ∀ s ∈ statements, ∀ room number, s.nesting ≤ room →
      Within (sumTo room) (s.toTree number).1)
    (fits : statementsNesting statements ≤ room) (number : Nat) :
    Within (sumTo room) (statementsTree statements number).1 := by
  obtain ⟨room, rfl⟩ := Nat.exists_eq_add_of_le' (Nat.lt_of_lt_of_le (Nat.succ_pos _) fits)
  have inner := (deepestStatement_le _ _).mp (Nat.le_of_succ_le_succ fits)
  have all (number : Nat) : WithinAll (sumTo room) (statementTrees statements [] number).1 := by
    clear fits
    induction statements generalizing number with
    | nil =>
      rw [statementTrees]
      exact withinAll_nil
    | cons s statements ih =>
      rw [statementTrees_cons]
      exact withinAll_cons (each s (.head _) room number (inner s (.head _)))
        (ih (fun s member => each s (.tail _ member)) (fun s member => inner s (.tail _ member)) _)
  refine (within_level (all (number + 1))).mono ?_
  rw [sumTo]
  omega

private theorem within_statements :
    (∀ (s : Statement) room number, s.nesting ≤ room → Within (sumTo room) (s.toTree number).1) ∧
    (∀ (b : Block) room number, b.nesting ≤ room → WithinAll (sumTo room) (b.toTrees number).1) := by
  have inner (e : Expression) {room : Nat} (fits : e.nesting ≤ room) (number : Nat) :
      Within (sumTo room) (e.toTree number).1 :=
    within_expression (within_expressions.1 e) fits number
  apply Statement.induction
  case assign =>
    intro keyword target equals value semicolon room number fits
    rw [Statement.nesting] at fits
    rw [Statement.toTree]
    exact within_plain rfl (withinAll_cons (within_wordLeaf _ _) (withinAll_cons
      (within_plain rfl (withinAll_cons (within_leaf rfl) (withinAll_cons (within_wordLeaf _ _)
        (withinAll_cons (inner value fits _) withinAll_nil))))
      (withinAll_cons (within_wordLeaf _ _) withinAll_nil)))
  case assignElement =>
    intro keyword array opening index closing equals value semicolon room number fits
    rw [Statement.nesting, Nat.max_le] at fits
    rw [Statement.toTree]
    exact within_plain rfl (withinAll_cons (within_wordLeaf _ _) (withinAll_cons
      (within_plain rfl (withinAll_cons (within_leaf rfl) (withinAll_cons (within_wordLeaf _ _)
        (withinAll_cons (inner index fits.1 _) (withinAll_cons (within_wordLeaf _ _)
          (withinAll_cons (within_wordLeaf _ _)
            (withinAll_cons (inner value fits.2 _) withinAll_nil)))))))
      (withinAll_cons (within_wordLeaf _ _) withinAll_nil)))
  case ifThen =>
    intro keyword opening condition closing body ih room number fits
    rw [Statement.nesting, Nat.max_le] at fits
    rw [Statement.toTree]
    exact within_plain rfl ((withinAll_cons (within_wordLeaf _ _) (withinAll_cons
      (within_wordLeaf _ _) (withinAll_cons (inner condition fits.1 _)
        (withinAll_cons (within_wordLeaf _ _) withinAll_nil)))).append (ih room _ fits.2))
  case ifElse =>
    intro keyword opening condition closing body otherwise alternative ih ih' room number fits
    rw [Statement.nesting, Nat.max_le, Nat.max_le] at fits
    rw [Statement.toTree]
    exact within_plain rfl ((((withinAll_cons (within_wordLeaf _ _) (withinAll_cons
      (within_wordLeaf _ _) (withinAll_cons (inner condition fits.1 _)
        (withinAll_cons (within_wordLeaf _ _) withinAll_nil)))).append (ih room _ fits.2.1)).append
          (withinAll_cons (within_wordLeaf _ _) withinAll_nil)).append (ih' room _ fits.2.2))
  case loop =>
    intro keyword opening condition closing body ih room number fits
    rw [Statement.nesting, Nat.max_le] at fits
    rw [Statement.toTree]
    exact within_plain rfl ((withinAll_cons (within_wordLeaf _ _) (withinAll_cons
      (within_wordLeaf _ _) (withinAll_cons (inner condition fits.1 _)
        (withinAll_cons (within_wordLeaf _ _) withinAll_nil)))).append (ih room _ fits.2))
  case perform =>
    intro keyword call semicolon room number fits
    rw [Statement.nesting] at fits
    rw [Statement.toTree]
    exact within_plain rfl (withinAll_cons (within_wordLeaf _ _) (withinAll_cons
      (within_expressions.2.2.1 call room _ fits)
      (withinAll_cons (within_wordLeaf _ _) withinAll_nil)))
  case returnNothing =>
    intro keyword semicolon room number fits
    rw [Statement.toTree]
    exact within_plain rfl (withinAll_cons (within_wordLeaf _ _)
      (withinAll_cons (within_wordLeaf _ _) withinAll_nil))
  case returnValue =>
    intro keyword value semicolon room number fits
    rw [Statement.nesting] at fits
    rw [Statement.toTree]
    exact within_plain rfl (withinAll_cons (within_wordLeaf _ _) (withinAll_cons
      (inner value fits _) (withinAll_cons (within_wordLeaf _ _) withinAll_nil)))
  case braced =>
    intro opening statements closing each room number fits
    rw [Block.nesting] at fits
    rw [Block.toTrees]
    exact withinAll_cons (within_wordLeaf _ _) (withinAll_cons
      (within_statementsTree each fits _) (withinAll_cons (within_wordLeaf _ _) withinAll_nil))

/-! ## Declarations -/

private theorem within_of_leaf (leaf : Leaf tree) : Within bound tree := by
  cases leaf with
  | name token number => exact within_leaf rfl
  | word token number => exact within_wordLeaf token number

private theorem withinAll_of_leaves (leaves : ∀ tree ∈ trees, Leaf tree) : WithinAll bound trees :=
  fun tree member => within_of_leaf (leaves tree member)

private theorem within_classVariables (declaration : ClassVariables) (number : Nat) :
    Within bound (declaration.toTree number).1 := by
  obtain ⟨leaves, same, each⟩ := declaration.toTree_leaves number
  rw [same]
  exact within_plain rfl (withinAll_of_leaves each)

private theorem within_localVariables (declaration : LocalVariables) (number : Nat) :
    Within bound (declaration.toTree number).1 := by
  obtain ⟨leaves, same, each⟩ := declaration.toTree_leaves number
  rw [same]
  exact within_plain rfl (withinAll_of_leaves each)

private theorem within_parameters (parameters : Parameters) (number : Nat) :
    Within bound (parameters.toTree number).1 := by
  obtain ⟨leaves, same, each⟩ := parameters.toTree_leaves number
  rw [same]
  exact within_plain rfl (withinAll_of_leaves each)

private theorem within_body {body : SubroutineBody} (fits : body.nesting ≤ room) (number : Nat) :
    Within (sumTo room) (body.toTree number).1 := by
  rw [body.toTree_eq]
  exact within_plain rfl (((withinAll_cons (within_wordLeaf _ _) withinAll_nil).append
    (treesOf_forall (fun x _ => within_localVariables x) _)).append (withinAll_cons
      (within_statementsTree (fun s _ => within_statements.1 s) fits _)
      (withinAll_cons (within_wordLeaf _ _) withinAll_nil)))

private theorem within_subroutine {subroutine : SubroutineDeclaration}
    (fits : subroutine.nesting ≤ room) (number : Nat) :
    Within (sumTo room) (subroutine.toTree number).1 := by
  rw [subroutine.toTree_eq]
  exact within_plain rfl (withinAll_cons (within_wordLeaf _ _)
    (withinAll_cons (within_of_leaf (subroutine.returnType.leaf _))
      (withinAll_cons (within_leaf rfl) (withinAll_cons (within_wordLeaf _ _)
        (withinAll_cons (within_parameters _ _) (withinAll_cons (within_wordLeaf _ _)
          (withinAll_cons (within_body fits _) withinAll_nil)))))))

private theorem within_class {declaration : ClassDeclaration} (fits : declaration.nesting ≤ room)
    (number : Nat) : Within (sumTo room) (declaration.toTree number).1 := by
  have each := (declaration.nesting_le room).mp fits
  rw [declaration.toTree_eq]
  exact within_plain rfl ((((withinAll_cons (within_wordLeaf _ _) (withinAll_cons
    (within_leaf rfl) (withinAll_cons (within_wordLeaf _ _) withinAll_nil))).append
      (treesOf_forall (fun x _ => within_classVariables x) _)).append
        (treesOf_forall (fun s member => within_subroutine (each s member)) _)).append
          (withinAll_cons (within_wordLeaf _ _) withinAll_nil))

private theorem withinAll_phrase {phrase : Phrase} (fits : phrase.nesting ≤ room) (number : Nat) :
    WithinAll (sumTo room) (phrase.toTrees number).1 := by
  have one {tree : Tree} (within : Within (sumTo room) tree) : WithinAll (sumTo room) [tree] :=
    withinAll_cons within withinAll_nil
  cases phrase with
  | classDeclaration phrase => exact one (within_class fits number)
  | classVariables phrases => exact treesOf_forall (fun x _ => within_classVariables x) number
  | subroutineDeclaration phrase => exact one (within_subroutine fits number)
  | parameters phrase => exact one (within_parameters phrase number)
  | subroutineBody phrase => exact one (within_body fits number)
  | statements phrases =>
    exact one (within_statementsTree (fun s _ => within_statements.1 s) fits number)
  | statement phrase => exact one (within_statements.1 phrase room number fits)
  | expression phrase => exact one (within_expression (within_expressions.1 phrase) fits number)
  | term phrase =>
    obtain ⟨room, rfl⟩ := Nat.exists_eq_add_of_le' (Nat.lt_of_lt_of_le (nesting_pos phrase) fits)
    refine one ((within_expressions.2.1 phrase room number fits).mono ?_)
    rw [sumTo]
    omega
  | arguments phrase => exact one (within_expressions.2.2.2 phrase room number fits)

end Within

/-! ## Steep trees -/

section Steep

variable {first : Term} {number : Nat} {path : List Tree}

private def plusToken : Token := ⟨1, .symbol, "+"⟩

private def oneToken : Token := ⟨1, .integerConstant, "1"⟩

private def openingToken : Token := ⟨1, .symbol, "("⟩

private def closingToken : Token := ⟨1, .symbol, ")"⟩

private def oneTerm : Term := .literal ⟨oneToken, rfl⟩

private def grouped (inner : Expression) : Term :=
  .group ⟨openingToken, rfl⟩ inner ⟨closingToken, rfl⟩

private def plusOnes (first : Term) : Nat → Expression
  | 0 => .term first
  | count + 1 => .binary (plusOnes first count) ⟨plusToken, rfl⟩ oneTerm

private theorem plusOnes_operators (count : Nat) : (plusOnes first count).operators = count := by
  induction count with
  | zero => rfl
  | succ count ih => rw [plusOnes, Expression.operators, ih]

private theorem plusOnes_nesting (count : Nat) :
    (plusOnes first count).nesting ≤ max first.nesting (count + 1) := by
  induction count with
  | zero => exact Nat.le_max_left _ _
  | succ count ih =>
    rw [plusOnes, Expression.nesting, plusOnes_operators]
    change max _ (count + 1 + 1) ≤ _
    omega

private theorem plusOnes_tokens (count : Nat) :
    (plusOnes first count).tokens =
      first.tokens ++ (List.replicate count [plusToken, oneToken]).flatten := by
  induction count with
  | zero =>
    rw [plusOnes, Expression.tokens]
    exact (List.append_nil _).symm
  | succ count ih =>
    rw [plusOnes, Expression.tokens, ih, List.replicate_succ', List.flatten_append, List.append_assoc]
    simp [oneTerm, Term.tokens]

private theorem plusOnes_descent (descent : Descent (first.toTree number).1 path) (count : Nat) :
    ∃ longer, Descent ((plusOnes first count).operandTree number).1 longer ∧
      levels longer = levels path + count := by
  -- Every operator puts the first operand one level down.
  induction count with
  | zero =>
    rw [plusOnes, Expression.operandTree]
    exact ⟨path, descent, rfl⟩
  | succ count ih =>
    obtain ⟨longer, down, length⟩ := ih
    rw [plusOnes, Expression.operandTree]
    refine ⟨_, .step (.head _) down, ?_⟩
    rw [levels, List.countP_cons_of_pos rfl]
    exact congrArg Nat.succ length

private theorem expression_descent {e : Expression}
    (descent : Descent (e.operandTree (number + 1)).1 path) :
    ∃ longer, Descent (e.toTree number).1 longer ∧ levels longer = levels path := by
  rw [Expression.toTree]
  refine ⟨_, .step (.head _) descent, ?_⟩
  rw [levels, List.countP_cons_of_neg Bool.false_ne_true]
  rfl

private theorem oneTerm_descent (number : Nat) :
    Descent (oneTerm.toTree number).1 [(oneTerm.toTree number).1] ∧
      levels [(oneTerm.toTree number).1] = 1 := by
  rw [oneTerm, Term.toTree]
  exact ⟨.here _, rfl⟩

private theorem grouped_descent {inner : Expression}
    (descent : Descent (inner.toTree (number + 2)).1 path) :
    ∃ longer, Descent ((grouped inner).toTree number).1 longer ∧
      levels longer = levels path + 1 := by
  rw [grouped, Term.toTree]
  refine ⟨_, .step (.tail _ (.head _)) descent, ?_⟩
  rw [levels, List.countP_cons_of_pos rfl]
  rfl

private def steep : Nat → Expression
  | 0 => .term oneTerm
  | room + 1 => plusOnes (grouped (steep room)) (room + 1)

private theorem steep_nesting (room : Nat) : (steep room).nesting ≤ room + 1 := by
  induction room with
  | zero => exact Nat.le_refl _
  | succ room ih =>
    refine Nat.le_trans (plusOnes_nesting _) ?_
    rw [grouped, Term.nesting]
    omega

private theorem steep_descent (room number : Nat) :
    ∃ path, Descent ((steep room).toTree number).1 path ∧ levels path = sumTo (room + 1) := by
  induction room generalizing number with
  | zero =>
    obtain ⟨down, length⟩ := oneTerm_descent (number + 1)
    obtain ⟨_, operand, length'⟩ := plusOnes_descent down 0
    obtain ⟨longer, descent, same⟩ := expression_descent operand
    exact ⟨longer, descent, same.trans (length'.trans length)⟩
  | succ room ih =>
    obtain ⟨path, inner, length⟩ := ih (number + 3)
    obtain ⟨_, group, length'⟩ := grouped_descent inner
    obtain ⟨_, operand, length''⟩ := plusOnes_descent group (room + 1)
    obtain ⟨longer, descent, same⟩ := expression_descent operand
    refine ⟨longer, descent, ?_⟩
    rw [sumTo]
    omega

end Steep

/-! ## Whole inputs -/

theorem levels_le_sumTo {entry : EntryPoint} {stream : List Item} {phrase : Phrase}
    {path : List Tree} (read : parse entry stream = .ok phrase)
    (descent : Descent phrase.toTree path) : levels path ≤ sumTo maxNesting := by
  obtain ⟨-, -, -, -, -, fits⟩ := parse_reads read
  exact within_plain rfl (withinAll_phrase fits 1) path descent

/-- On a way down a tree that has been read there are at most as many levels as the numbers up to
the limit on nesting add up to. -/
theorem descent_levels_le {entry : EntryPoint} {stream : List Item} {phrase : Phrase}
    {path : List Tree} (read : parse entry stream = .ok phrase)
    (descent : Descent phrase.toTree path) :
    levels path ≤ maxNesting * (maxNesting + 1) / 2 := by
  rw [← sumTo_eq]
  exact levels_le_sumTo read descent

private theorem read_descent {e : Expression} {path : List Tree} (fits : e.nesting ≤ maxNesting)
    (descent : Descent (e.toTree 1).1 path) :
    parse .expression (e.tokens.map .ok ++ [.ok (.endOfFile 1)]) = .ok (.expression e) ∧
      ∃ longer, Descent (Phrase.expression e).toTree longer ∧ levels longer = levels path := by
  have fits : (Phrase.expression e).nesting ≤ maxNesting := fits
  refine ⟨parse_of_phrase fits (.endOfFile 1) rfl [], _, .step (.head _) descent, ?_⟩
  rw [levels, List.countP_cons_of_neg Bool.false_ne_true]
  rfl

theorem exists_descent_levels_eq :
    ∃ stream phrase path, parse .expression stream = .ok phrase ∧ Descent phrase.toTree path ∧
      levels path = maxNesting * (maxNesting + 1) / 2 := by
  have every (room : Nat) (fits : room + 1 ≤ maxNesting) :
      ∃ stream phrase path, parse .expression stream = .ok phrase ∧ Descent phrase.toTree path ∧
        levels path = sumTo (room + 1) := by
    obtain ⟨path, descent, length⟩ := steep_descent room 1
    obtain ⟨read, longer, down, same⟩ :=
      read_descent (Nat.le_trans (steep_nesting room) fits) descent
    exact ⟨_, _, longer, read, down, same.trans length⟩
  rw [← sumTo_eq]
  exact every 255 (Nat.le_refl _)

/-! ## A group and operators -/

private def groupedTokens (count : Nat) : List Token :=
  [openingToken, oneToken, closingToken] ++ (List.replicate count [plusToken, oneToken]).flatten

private def groupedSum (count : Nat) : List Item :=
  (groupedTokens count).map .ok ++ [.ok (.endOfFile 1)]

private theorem groupedSum_descent {count : Nat} (fits : count + 1 ≤ maxNesting)
    (some : 0 < count) :
    ∃ phrase path, parse .expression (groupedSum count) = .ok phrase ∧
      Descent phrase.toTree path ∧ levels path = count + 2 := by
  obtain ⟨_, inner, length⟩ := steep_descent 0 4
  obtain ⟨_, group, length'⟩ := grouped_descent inner
  obtain ⟨_, operand, length''⟩ := plusOnes_descent group count
  obtain ⟨_, descent, same⟩ := expression_descent operand
  have nesting : (plusOnes (grouped (steep 0)) count).nesting ≤ maxNesting := by
    refine Nat.le_trans (plusOnes_nesting _) (Nat.le_trans (Nat.max_le.mpr ⟨?_, ?_⟩) fits)
    · exact Nat.succ_le_succ some
    · exact Nat.le_refl _
  obtain ⟨read, path, down, levels⟩ := read_descent nesting descent
  rw [plusOnes_tokens] at read
  refine ⟨_, path, read, down, ?_⟩
  rw [sumTo, sumTo] at length
  omega

/-- The limit on nesting does not limit the levels one below the other in a tree: the levels of the
group are given back before it is put below the operators. -/
theorem maxNesting_lt_levels :
    ∃ phrase path, parse .expression (groupedSum 255) = .ok phrase ∧
      Descent phrase.toTree path ∧ levels path = 257 ∧ maxNesting < levels path := by
  obtain ⟨phrase, path, read, descent, length⟩ :=
    groupedSum_descent (Nat.le_refl (255 + 1)) (Nat.succ_pos _)
  exact ⟨phrase, path, read, descent, length, length ▸ Nat.lt_succ_self _⟩

theorem descent_levels_le_grouped_sum :
    ∃ phrase path, parse .expression (groupedSum 255) = .ok phrase ∧
      Descent phrase.toTree path ∧ levels path = 257 ∧ levels path ≤ 32896 := by
  obtain ⟨phrase, path, read, descent, length⟩ :=
    groupedSum_descent (Nat.le_refl (255 + 1)) (Nat.succ_pos _)
  exact ⟨phrase, path, read, descent, length, descent_levels_le read descent⟩

end JackCompiler
