import JackCompiler.Compile
import JackCompiler.Proofs.Lowering.Table
import JackCompiler.Proofs.Lowering.Visit
import JackCompiler.Proofs.Phrase.Declarations

namespace JackCompiler

open Lowering

def TypeName.text : TypeName → String
  | .builtIn word => word.val.value
  | .named name => name.val.value

def ReturnType.text : ReturnType → String
  | .void word => word.val.value
  | .value type => type.text

def ReturnType.isVoid : ReturnType → Bool
  | .void _ => true
  | .value _ => false

def NameList.texts (names : NameList) : List String :=
  names.first.val.value :: names.more.map (·.2.val.value)

def ClassVariables.kind (declaration : ClassVariables) : VariableKind :=
  if declaration.scope.val.value = "static" then .static else .field

def ClassVariables.variableList (declaration : ClassVariables) : List Declared :=
  declaration.names.texts.map fun name => ⟨declaration.kind, declaration.type.text, name⟩

def LocalVariables.variableList (declaration : LocalVariables) : List Declared :=
  declaration.names.texts.map fun name => ⟨.localVariable, declaration.type.text, name⟩

def Parameter.variable (parameter : Parameter) : Declared :=
  ⟨.argument, parameter.type.text, parameter.name.val.value⟩

def Parameters.list : Parameters → List Parameter
  | .empty => []
  | .listed first more => first :: more.map Prod.snd

namespace SubroutineDeclaration

def kind (subroutine : SubroutineDeclaration) : SubroutineKind :=
  match subroutine.keyword.val.value with
  | "constructor" => .constructor
  | "function" => .function
  | _ => .method

def declared (subroutine : SubroutineDeclaration) : List Declared :=
  subroutine.parameters.list.map Parameter.variable ++
    subroutine.body.locals.flatMap LocalVariables.variableList

def receiver (className : String) (subroutine : SubroutineDeclaration) : List Declared :=
  if subroutine.kind = .method then [⟨.argument, className, "this"⟩] else []

def variableList (className : String) (subroutine : SubroutineDeclaration) : List Declared :=
  subroutine.receiver className ++ subroutine.declared

def occurrences (subroutine : SubroutineDeclaration) : List Occurrence :=
  statementOccurrences subroutine.body.statements

def head (subroutine : SubroutineDeclaration) : Subroutine :=
  ⟨subroutine.kind, subroutine.returnType.text, subroutine.name.val.value⟩

end SubroutineDeclaration

namespace ClassDeclaration

def className (declaration : ClassDeclaration) : String := declaration.name.val.value

def variableList (declaration : ClassDeclaration) : List Declared :=
  declaration.declarations.flatMap ClassVariables.variableList

def kindOf (declaration : ClassDeclaration) (name : String) : Option SubroutineKind :=
  (declaration.subroutines.find? (·.name.val.value == name)).map SubroutineDeclaration.kind

/-- What surrounds the statements of a subroutine of the class. -/
def context (comments : Bool) (declaration : ClassDeclaration)
    (subroutine : SubroutineDeclaration) : Context where
  comments
  className := declaration.className
  subroutine := subroutine.head
  classVariables := SymbolTable.empty.extend declaration.variableList
  subroutineVariables := SymbolTable.empty.extend (subroutine.variableList declaration.className)
  kindOf := declaration.kindOf

end ClassDeclaration

def Statement.isReturn : Statement → Bool
  | .returnNothing _ _ | .returnValue _ _ _ => true
  | .assign _ _ _ _ _ | .assignElement _ _ _ _ _ _ _ _ | .ifThen _ _ _ _ _
  | .ifElse _ _ _ _ _ _ _ | .loop _ _ _ _ _ | .perform _ _ _ => false

def SubroutineBody.code (context : Context) (number : Nat) (body : SubroutineBody) : Code :=
  marker context.comments context.subroutine.kind.name ++
    [.function (context.className ++ "." ++ context.subroutine.name)
      (context.subroutineVariables.count .localVariable)] ++
    prologue context.scope context.subroutine.kind ++
    statementCode context (number + 3 + nodesOf LocalVariables.nodes body.locals)
      body.statements ++
    (if context.isVoid && !body.statements.getLast?.any Statement.isReturn then
      [.push .constant 0, .ret]
    else
      [])

def ClassDeclaration.bodyCode (comments : Bool) (declaration : ClassDeclaration)
    (subroutine : SubroutineDeclaration) (number : Nat) : Code :=
  subroutine.body.code (declaration.context comments subroutine)
    (number + 6 + subroutine.parameters.nodes)

def ClassDeclaration.subroutineCode (comments : Bool) (declaration : ClassDeclaration)
    (number : Nat) : List SubroutineDeclaration → Code
  | [] => []
  | subroutine :: subroutines =>
    declaration.bodyCode comments subroutine number ++
      declaration.subroutineCode comments (number + subroutine.nodes) subroutines

def ClassDeclaration.firstNumber (declaration : ClassDeclaration) : Nat :=
  5 + nodesOf ClassVariables.nodes declaration.declarations

def ClassDeclaration.code (comments : Bool) (declaration : ClassDeclaration) : Code :=
  marker comments declaration.className ++
    declaration.subroutineCode comments declaration.firstNumber declaration.subroutines ++
    marker comments ("~" ++ declaration.className)

/-- What is wrong with a subroutine, in the order in which it is met. -/
def ClassDeclaration.subroutineFaults (declaration : ClassDeclaration)
    (subroutine : SubroutineDeclaration) : List CompileError :=
  SymbolTable.empty.duplicates (subroutine.variableList declaration.className) ++
    (declaration.context false subroutine).faults subroutine.occurrences

def ClassDeclaration.faults (declaration : ClassDeclaration) : List CompileError :=
  SymbolTable.empty.duplicates declaration.variableList ++
    declaration.subroutines.flatMap declaration.subroutineFaults

section Leaves

variable {setting : Setting} {scope : Scope}

theorem visit_leaf {tree : Tree} (leaf : Leaf tree) :
    visit setting tree scope = settle [] ([], scope) := by
  cases leaf with
  | name token number => exact visit_nameLeaf token number
  | word token number => exact visit_wordLeaf token number

theorem visitAll_leaves {trees : List Tree} (leaves : ∀ tree ∈ trees, Leaf tree) :
    visitAll setting trees scope [] = settle [] (List.replicate trees.length [], scope) := by
  induction trees with
  | nil => rfl
  | cons tree trees ih =>
    exact visitAll_cons (visit_leaf (leaves tree (.head _)))
      (ih fun other member => leaves other (.tail _ member))

@[simp]
theorem wordLeaf_kind_beq_identifier (token : Token) (number : Nat) :
    ((wordLeaf token number).1.kind == .identifier) = false := by
  change ((if token.kind = .keyword then NodeKind.keyword else .symbol) == .identifier) = false
  split <;> rfl

private theorem moreNameTrees_texts (more : List (Comma × Name)) (number : Nat) :
    ((moreNameTrees more [] number).1.filter (·.kind == .identifier)).filterMap Tree.value? =
      more.map (·.2.val.value) := by
  induction more generalizing number with
  | nil => simp [moreNameTrees]
  | cons pair more ih =>
    obtain ⟨comma, name⟩ := pair
    rw [moreNameTrees_cons]
    simp [ih]

namespace NameList

theorem toTrees_texts (names : NameList) (number : Nat) :
    ((names.toTrees number).1.filter (·.kind == .identifier)).filterMap Tree.value? =
      names.texts := by
  rw [toTrees_eq]
  simp [moreNameTrees_texts, texts]

end NameList

namespace TypeName

@[simp]
theorem toTree_value? (type : TypeName) (number : Nat) :
    (type.toTree number).1.value? = some type.text := by
  cases type <;> rfl

end TypeName

namespace ReturnType

@[simp]
theorem toTree_value? (type : ReturnType) (number : Nat) :
    (type.toTree number).1.value? = some type.text := by
  cases type with
  | void word => rfl
  | value type => exact type.toTree_value? number

end ReturnType

end Leaves

section Declarations

variable {setting : Setting} {scope : Scope}

private theorem declaredNames_leaves (first last : Token) (type : TypeName) (names : NameList)
    (number : Nat) (kind : NodeKind) :
    declaredNames (.node number kind none (declarationLeaves first last type names number)) =
      names.texts := by
  simp [declaredNames, declarationLeaves, names.toTrees_texts, List.filter_append]

theorem childValue_of {tree child : Tree} {index : Nat} {text : String}
    (there : tree.children[index]? = some child) (value : child.value? = some text) :
    childValue tree index = .ok text := by
  simp [childValue, Lowering.child, there, valueOf, value, bind, Except.bind]

private theorem classVariableKind_eq (declaration : ClassVariables) :
    classVariableKind declaration.scope.val.value = .ok declaration.kind := by
  have one := Word.value_mem declaration.scope
  simp only [classVariableWords, List.mem_cons, List.not_mem_nil, or_false] at one
  rw [ClassVariables.kind]
  rcases one with same | same <;> rw [same] <;> rfl

theorem visit_classVariables (declaration : ClassVariables) (number : Nat) :
    visit setting (declaration.toTree number).1 scope =
      settle (scope.classVariables.duplicates declaration.variableList)
        ([], { scope with
          classVariables := scope.classVariables.extend declaration.variableList }) := by
  rw [declaration.toTree_eq]
  refine visit_node setting number .classVarDec none rfl
    (visitAll_leaves (declarationLeaves_leaves _ _ _ _ _)) ?_
  rw [leave]
  simp only [Tree.kind_node]
  rw [declareClassVariables, childValue_of rfl rfl]
  change (classVariableKind declaration.scope.val.value >>= _) >>= _ = _
  rw [classVariableKind_eq, childValue_of rfl (declaration.type.toTree_value? (number + 2)),
    declaredNames_leaves]
  change (declareAll declaration.kind declaration.type.text declaration.names.texts
    scope.classVariables >>= _) >>= _ = _
  rw [declareAll_settles]
  rw [settle_bind_pure, settle_bind_pure]
  rfl

theorem visit_localVariables (declaration : LocalVariables) (number : Nat) :
    visit setting (declaration.toTree number).1 scope =
      settle (scope.subroutineVariables.duplicates declaration.variableList)
        ([], { scope with
          subroutineVariables := scope.subroutineVariables.extend declaration.variableList }) := by
  rw [declaration.toTree_eq]
  refine visit_node setting number .varDec none rfl
    (visitAll_leaves (declarationLeaves_leaves _ _ _ _ _)) ?_
  rw [leave]
  simp only [Tree.kind_node]
  rw [declareLocals, childValue_of rfl (declaration.type.toTree_value? (number + 2)),
    declaredNames_leaves]
  change (declareAll .localVariable declaration.type.text declaration.names.texts
    scope.subroutineVariables >>= _) >>= _ = _
  rw [declareAll_settles]
  rw [settle_bind_pure, settle_bind_pure]
  rfl

private theorem TypeName.toTree_kind_ne {type : TypeName} (formed : ∀ t ∈ type.tokens, t.WellFormed)
    (number : Nat) : (type.toTree number).1.kind ≠ .symbol := by
  cases type with
  | named name => exact nofun
  | builtIn word =>
    have kind := ((formed _ (.head _)).proper.isKeyword word.property (by decide)).1
    change (if word.val.kind = .keyword then NodeKind.keyword else .symbol) ≠ .symbol
    rw [if_pos kind]
    exact nofun

private theorem filter_parameter {type : Tree} (kind : type.kind ≠ .symbol) (number : Nat)
    (token : Token) (rest : List Tree) :
    (type :: .node number .identifier (some token) [] :: rest).filter (·.kind != .symbol) =
      type :: .node number .identifier (some token) [] :: rest.filter (·.kind != .symbol) := by
  simp [List.filter_cons, kind]

private theorem declareParameterPairs_cons {type name : Tree} {parameter : Parameter}
    {rest : List Tree} {declared : List Declared}
    (typeText : type.value? = some parameter.type.text)
    (nameText : name.value? = some parameter.name.val.value)
    (settles : ∀ table, declareParameterPairs rest table =
      settle (table.duplicates declared) (table.extend declared)) (table : SymbolTable) :
    declareParameterPairs (type :: name :: rest) table =
      settle (table.duplicates (parameter.variable :: declared))
        (table.extend (parameter.variable :: declared)) := by
  have first := table.declare_settles parameter.variable
  have whole : declareParameterPairs (type :: name :: rest) table =
      table.declare .argument parameter.type.text parameter.name.val.value >>=
        declareParameterPairs rest := by
    simp [declareParameterPairs, valueOf, typeText, nameText, bind, Except.bind]
  rw [whole]
  apply (congrArg (· >>= _) first).trans
  rw [settle_bind (settles _)]
  exact congrArg (settle · _) (table.duplicates_append [_] declared).symm

private theorem declareParameterPairs_settles {more : List (Comma × Parameter)}
    (formed : ∀ t ∈ commaTokens Parameter.tokens more, t.WellFormed) (number : Nat)
    (table : SymbolTable) :
    declareParameterPairs ((moreParameterTrees more [] number).1.filter (·.kind != .symbol)) table =
      settle (table.duplicates (more.map (·.2.variable)))
        (table.extend (more.map (·.2.variable))) := by
  induction more generalizing number table with
  | nil => simp [moreParameterTrees, declareParameterPairs, SymbolTable.extend]
  | cons pair more ih =>
    obtain ⟨comma, parameter⟩ := pair
    have parts := formed
    simp only [commaTokens, List.flatMap_cons, Parameter.tokens, List.forall_mem_append,
      List.forall_mem_cons] at parts
    obtain ⟨⟨formedComma, formedType, -⟩, formedRest⟩ := parts
    have trees : ((moreParameterTrees ((comma, parameter) :: more) [] number).1.filter
        (·.kind != .symbol)) = (parameter.type.toTree (number + 1)).1 ::
          .node (number + 2) .identifier (some parameter.name.val) [] ::
            (moreParameterTrees more [] (number + 3)).1.filter (·.kind != .symbol) := by
      rw [moreParameterTrees_cons, wordLeaf_symbol comma formedComma (by decide),
        List.filter_cons_of_neg (by simp), filter_parameter (TypeName.toTree_kind_ne formedType _)]
    rw [trees]
    exact declareParameterPairs_cons (parameter.type.toTree_value? _) rfl
      (ih formedRest (number + 3)) table

theorem visit_parameters {parameters : Parameters}
    (formed : ∀ t ∈ parameters.tokens, t.WellFormed) (number : Nat) :
    visit setting (parameters.toTree number).1 scope =
      settle (scope.subroutineVariables.duplicates (parameters.list.map Parameter.variable))
        ([], { scope with
          subroutineVariables :=
            scope.subroutineVariables.extend (parameters.list.map Parameter.variable) }) := by
  cases parameters with
  | empty => rw [Parameters.toTree]; rfl
  | listed first more =>
    simp only [Parameters.tokens, Parameter.tokens, List.forall_mem_append] at formed
    obtain ⟨⟨formedType, -⟩, formedMore⟩ := formed
    have list : (Parameters.listed first more).list.map Parameter.variable =
        first.variable :: more.map (·.2.variable) := by
      simp [Parameters.list]
    rw [Parameters.toTree_listed, list]
    apply visit_node setting number .parameterList none rfl
      (visitAll_leaves (listedParameters_leaves _ _ _))
    rw [leave]
    simp only [Tree.kind_node]
    rw [declareParameters, Tree.children_node,
      filter_parameter (TypeName.toTree_kind_ne formedType _)]
    refine (congrArg (fun x => (x >>= _) >>= _) (declareParameterPairs_cons
      (first.type.toTree_value? _) rfl (declareParameterPairs_settles formedMore (number + 3))
      scope.subroutineVariables)).trans ?_
    rw [settle_bind_pure, settle_bind_pure]
    rfl

theorem visitAll_classVariables (declarations : List ClassVariables) (number : Nat)
    (scope : Scope) :
    visitAll setting (treesOf ClassVariables.toTree declarations [] number).1 scope [] =
      settle (scope.classVariables.duplicates (declarations.flatMap ClassVariables.variableList))
        (List.replicate declarations.length [], { scope with
          classVariables := scope.classVariables.extend
            (declarations.flatMap ClassVariables.variableList) }) := by
  induction declarations generalizing number scope with
  | nil => rfl
  | cons declaration declarations ih =>
    rw [treesOf_cons, visitAll_cons (visit_classVariables declaration number) (ih _ _)]
    simp only [List.flatMap_cons, SymbolTable.duplicates_append, SymbolTable.extend_append]
    rfl

theorem visitAll_localVariables (declarations : List LocalVariables) (number : Nat)
    (scope : Scope) :
    visitAll setting (treesOf LocalVariables.toTree declarations [] number).1 scope [] =
      settle (scope.subroutineVariables.duplicates (declarations.flatMap LocalVariables.variableList))
        (List.replicate declarations.length [], { scope with
          subroutineVariables := scope.subroutineVariables.extend
            (declarations.flatMap LocalVariables.variableList) }) := by
  induction declarations generalizing number scope with
  | nil => rfl
  | cons declaration declarations ih =>
    rw [treesOf_cons, visitAll_cons (visit_localVariables declaration number) (ih _ _)]
    simp only [List.flatMap_cons, SymbolTable.duplicates_append, SymbolTable.extend_append]
    rfl

end Declarations

section Subroutines

variable {setting : Setting} {context : Context}

private theorem Statement.toTree_kind (s : Statement) (number : Nat) :
    ((s.toTree number).1.kind == .returnStatement) = s.isReturn := by
  cases s <;> simp [toTree, isReturn]

private theorem statementTrees_kinds (statements : List Statement) (number : Nat) :
    (statementTrees statements [] number).1.map (·.kind == .returnStatement) =
      statements.map Statement.isReturn := by
  induction statements generalizing number with
  | nil => simp [statementTrees]
  | cons s statements ih => simp [statementTrees_cons, ih, s.toTree_kind]

private theorem any_getLast? {α : Type} (test : α → Bool) (list : List α) :
    list.getLast?.any test = (list.map test).getLast?.any id := by
  rw [List.getLast?_map, Option.any_map]
  rfl

private theorem endsWithReturn_eq (body : SubroutineBody) (number : Nat) :
    endsWithReturn (body.toTree number).1 = body.statements.getLast?.any Statement.isReturn := by
  -- The generator looks for the last statement of a body among the parts of the body.
  rw [body.toTree_eq, any_getLast?, ← statementTrees_kinds body.statements
    (number + 2 + nodesOf LocalVariables.nodes body.locals + 1), ← any_getLast?]
  simp [endsWithReturn, statementsTree]

private theorem lowerBody_eq {setting : Setting} (agrees : Agrees setting context)
    {body : SubroutineBody} {number : Nat} {fragments : List Code}
    (flat : fragments.flatten = statementCode context
      (number + 3 + nodesOf LocalVariables.nodes body.locals) body.statements) :
    lowerBody setting.comments context.scope (body.toTree number).1 fragments =
      settle [] (body.code context number) := by
  rw [SubroutineBody.code, ← flat, ← endsWithReturn_eq body number, ← agrees.comments]
  rfl

theorem visitAll_locals (setting : Setting) {locals : List LocalVariables} {table : SymbolTable}
    (whole : context.subroutineVariables =
      table.extend (locals.flatMap LocalVariables.variableList)) (number : Nat) :
    visitAll setting (treesOf LocalVariables.toTree locals [] number).1
        { context.scope with subroutineVariables := table } [] =
      settle (table.duplicates (locals.flatMap LocalVariables.variableList))
        (List.replicate locals.length [], context.scope) := by
  rw [visitAll_localVariables]
  simp only [← whole]
  rfl

theorem visit_body (agrees : Agrees setting context) {body : SubroutineBody}
    (formed : ∀ t ∈ body.tokens, t.WellFormed) {table : SymbolTable}
    (whole : context.subroutineVariables =
      table.extend (body.locals.flatMap LocalVariables.variableList)) (number : Nat) :
    visit setting (body.toTree number).1 { context.scope with subroutineVariables := table } =
      settle (table.duplicates (body.locals.flatMap LocalVariables.variableList) ++
          context.faults (statementOccurrences body.statements))
        (body.code context number, context.scope) := by
  have formedStatements : ∀ t ∈ statementTokens body.statements, t.WellFormed := fun t member =>
    formed t (.tail _ (List.mem_append_right _ (List.mem_append_left _ member)))
  have locals := visitAll_locals setting whole (number + 2)
  have statements := visit_statements agrees formedStatements
    (number + 2 + nodesOf LocalVariables.nodes body.locals)
  have closing : visit setting (wordLeaf body.closing.val (number + 2 +
      nodesOf LocalVariables.nodes body.locals + 1 + statementNodes body.statements)).1
      context.scope = settle [] ([], context.scope) := visit_wordLeaf _ _
  have parts := visitAll_append (visitAll_append (visitAll_cons
    (visit_wordLeaf body.opening.val (number + 1)) visitAll_nil) locals)
    (visitAll_cons statements (visitAll_cons closing visitAll_nil))
  have flat : ([[]] ++ List.replicate body.locals.length [] ++
      [statementCode context (number + 2 + nodesOf LocalVariables.nodes body.locals + 1)
        body.statements, []]).flatten =
      statementCode context (number + 3 + nodesOf LocalVariables.nodes body.locals)
        body.statements := by
    rw [Nat.add_right_comm, Nat.add_right_comm number 2]
    simp
  have leaves := lowerBody_eq agrees flat
  rw [body.toTree_eq] at leaves ⊢
  rw [visit_plain setting number .subroutineBody none rfl parts
    (show inScope context.scope (lowerBody _ _ _ _) = .ok (body.code context number, context.scope)
      from by rw [leaves]; rfl)]
  simp

def ClassDeclaration.scope (declaration : ClassDeclaration) : Scope :=
  ⟨some declaration.className, none, SymbolTable.empty.extend declaration.variableList, .empty⟩

theorem ofName_keyword (subroutine : SubroutineDeclaration) :
    SubroutineKind.ofName subroutine.keyword.val.value = .ok subroutine.kind := by
  have one := Word.value_mem subroutine.keyword
  simp only [subroutineWords, List.mem_cons, List.not_mem_nil, or_false] at one
  rw [SubroutineDeclaration.kind]
  rcases one with same | same | same <;> rw [same] <;> rfl

def receiverScope (comments : Bool) (declaration : ClassDeclaration)
    (subroutine : SubroutineDeclaration) : Scope :=
  { (declaration.context comments subroutine).scope with
    subroutineVariables := SymbolTable.empty.extend (subroutine.receiver declaration.className) }

theorem enter_subroutine (comments : Bool) (declaration : ClassDeclaration)
    (subroutine : SubroutineDeclaration) (number : Nat) :
    enter (subroutine.toTree number).1 declaration.scope =
      .ok (receiverScope comments declaration subroutine) := by
  rw [subroutine.toTree_eq]
  change (childValue _ 0 >>= fun text => SubroutineKind.ofName text >>= _) = _
  rw [childValue_of rfl rfl]
  change (SubroutineKind.ofName subroutine.keyword.val.value >>= _) = _
  rw [ofName_keyword, childValue_of rfl (subroutine.returnType.toTree_value? (number + 2)),
    childValue_of rfl rfl]
  rw [receiverScope, SubroutineDeclaration.receiver]
  have head : subroutine.head =
      ⟨subroutine.kind, subroutine.returnType.text, subroutine.name.val.value⟩ := rfl
  rw [ClassDeclaration.context, head]
  cases subroutine.kind <;> rfl

private theorem duplicates_receiver (className : String) (subroutine : SubroutineDeclaration) :
    SymbolTable.empty.duplicates (subroutine.receiver className) = [] := by
  rw [SubroutineDeclaration.receiver]
  split <;> rfl

theorem duplicates_variables (className : String) (subroutine : SubroutineDeclaration) :
    SymbolTable.empty.duplicates (subroutine.variableList className) =
      (SymbolTable.empty.extend (subroutine.receiver className)).duplicates
          (subroutine.parameters.list.map Parameter.variable) ++
        ((SymbolTable.empty.extend (subroutine.receiver className)).extend
          (subroutine.parameters.list.map Parameter.variable)).duplicates
            (subroutine.body.locals.flatMap LocalVariables.variableList) := by
  rw [SubroutineDeclaration.variableList, SymbolTable.duplicates_append, duplicates_receiver,
    List.nil_append, SubroutineDeclaration.declared, SymbolTable.duplicates_append]

private theorem leave_subroutine {comments : Bool} {declaration : ClassDeclaration}
    {subroutine : SubroutineDeclaration} {number : Nat} {children : List Tree}
    {fragments : List Code} {code : Code} (flat : fragments.flatten = code) :
    leave setting (.node number .subroutineDec none children)
      (declaration.context comments subroutine).scope fragments =
        settle [] (code, declaration.scope) := by
  rw [← flat]
  rfl

theorem ClassDeclaration.subroutineVariables_eq (declaration : ClassDeclaration) (comments : Bool)
    (subroutine : SubroutineDeclaration) :
    (declaration.context comments subroutine).subroutineVariables =
      ((SymbolTable.empty.extend (subroutine.receiver declaration.className)).extend
        (subroutine.parameters.list.map Parameter.variable)).extend
          (subroutine.body.locals.flatMap LocalVariables.variableList) := by
  rw [← SymbolTable.extend_append, ← SymbolTable.extend_append]
  rfl

theorem visit_subroutine {declaration : ClassDeclaration} {subroutine : SubroutineDeclaration}
    (agrees : Agrees setting (declaration.context setting.comments subroutine))
    (formed : ∀ t ∈ subroutine.tokens, t.WellFormed) (number : Nat) :
    visit setting (subroutine.toTree number).1 declaration.scope =
      settle (declaration.subroutineFaults subroutine)
        (declaration.bodyCode setting.comments subroutine number, declaration.scope) := by
  have formedParameters : ∀ t ∈ subroutine.parameters.tokens, t.WellFormed := fun t member =>
    formed t (by simp [SubroutineDeclaration.tokens, member])
  have formedBody : ∀ t ∈ subroutine.body.tokens, t.WellFormed := fun t member =>
    formed t (by simp [SubroutineDeclaration.tokens, member])
  have parameters : visit setting (subroutine.parameters.toTree (number + 5)).1
      (receiverScope setting.comments declaration subroutine) = _ :=
    visit_parameters formedParameters (number + 5)
  have whole := declaration.subroutineVariables_eq setting.comments subroutine
  have body := visit_body agrees formedBody whole (number + 6 + subroutine.parameters.nodes)
  have enters := enter_subroutine setting.comments declaration subroutine number
  have parts := visitAll_cons (visit_wordLeaf subroutine.keyword.val (number + 1))
    (visitAll_cons (visit_leaf (subroutine.returnType.leaf (number + 2)))
    (visitAll_cons (visit_nameLeaf subroutine.name.val (number + 3))
    (visitAll_cons (visit_wordLeaf subroutine.opening.val (number + 4))
    (visitAll_cons parameters (visitAll_cons
      (visit_wordLeaf subroutine.closing.val (number + 5 + subroutine.parameters.nodes))
      (visitAll_cons body visitAll_nil))))))
  rw [subroutine.toTree_eq] at enters ⊢
  have flat : ([[], [], [], [], [], [], declaration.bodyCode setting.comments subroutine number] :
      List Code).flatten = declaration.bodyCode setting.comments subroutine number := by simp
  apply (visit_entered enters parts (leave_subroutine flat)).trans
  rw [ClassDeclaration.subroutineFaults, duplicates_variables]
  simp only [List.nil_append, List.append_nil, List.append_assoc]
  rfl

end Subroutines

end JackCompiler
