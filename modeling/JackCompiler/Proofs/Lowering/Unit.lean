import JackCompiler.Proofs.Lowering.Class
import JackCompiler.Proofs.Lowering.Located

namespace JackCompiler

open Lowering

def isBare (kind : NodeKind) : Bool := keepsScope kind && !isPiece kind

def Bare (tree : Tree) : Prop := ∀ node, Part node tree → isBare node.kind = true

section Bare

theorem bare_node {number : Nat} {kind : NodeKind} {token? : Option Token} {children : List Tree}
    (bare : isBare kind = true) (all : ∀ child ∈ children, Bare child) :
    Bare (.node number kind token? children) := by
  intro node part
  cases part with
  | self => exact bare
  | inside member part => exact all _ member node part

theorem Leaf.bare {tree : Tree} (leaf : Leaf tree) : Bare tree := by
  cases leaf with
  | name token number => exact bare_node rfl (List.forall_mem_nil _)
  | word token number =>
    change Bare (.node number (if token.kind = .keyword then .keyword else .symbol) _ [])
    split
    · exact bare_node rfl (List.forall_mem_nil _)
    · exact bare_node rfl (List.forall_mem_nil _)

theorem ClassVariables.bare (declaration : ClassVariables) (number : Nat) :
    Bare (declaration.toTree number).1 := by
  obtain ⟨leaves, same, each⟩ := declaration.toTree_leaves number
  rw [same]
  exact bare_node rfl fun child member => (each child member).bare

theorem LocalVariables.bare (declaration : LocalVariables) (number : Nat) :
    Bare (declaration.toTree number).1 := by
  obtain ⟨leaves, same, each⟩ := declaration.toTree_leaves number
  rw [same]
  exact bare_node rfl fun child member => (each child member).bare

theorem Parameters.bare (parameters : Parameters) (number : Nat) :
    Bare (parameters.toTree number).1 := by
  obtain ⟨leaves, same, each⟩ := parameters.toTree_leaves number
  rw [same]
  exact bare_node rfl fun child member => (each child member).bare

end Bare

section Declarations

mutual

private theorem declarationsFrom_none (nested : Bool) (done : List Declaration) : (tree : Tree) →
    (∀ node, Part node tree → node.kind ≠ .subroutineDec) → declarationsFrom nested tree done = done
  | .node number kind token? children, absent => by
    have inner := declarationsAllFrom_none nested done children
      fun child member node part => absent node (.inside member part)
    cases kind
    case subroutineDec => exact absurd rfl (absent _ (.self _))
    all_goals exact inner

private theorem declarationsAllFrom_none (nested : Bool) (done : List Declaration) :
    (trees : List Tree) →
    (∀ tree ∈ trees, ∀ node, Part node tree → node.kind ≠ .subroutineDec) →
    declarationsAllFrom nested trees done = done
  | [], _ => rfl
  | tree :: trees, absent => by
    rw [declarationsAllFrom, declarationsFrom_none nested done tree (absent tree (.head _))]
    exact declarationsAllFrom_none nested done trees fun other member => absent other (.tail _ member)

end

theorem declarationsAllFrom_append (nested : Bool) (first second : List Tree)
    (done : List Declaration) :
    declarationsAllFrom nested (first ++ second) done =
      declarationsAllFrom nested second (declarationsAllFrom nested first done) := by
  induction first generalizing done with
  | nil => rfl
  | cons tree first ih => exact ih _

end Declarations

section Subroutines

def SubroutineDeclaration.statementsNode (subroutine : SubroutineDeclaration) (number : Nat) :
    Tree :=
  (statementsTree subroutine.body.statements (number + 6 + subroutine.parameters.nodes + 2 +
    nodesOf LocalVariables.nodes subroutine.body.locals)).1

theorem isBare_below {subroutine : SubroutineDeclaration} {number : Nat} {child node : Tree}
    (member : child ∈ (subroutine.toTree number).1.children) (part : Part node child) :
    isBare node.kind = true ∨ Part node (subroutine.statementsNode number) := by
  simp only [subroutine.toTree_eq, Tree.children_node, List.mem_cons, List.not_mem_nil,
    or_false] at member
  rcases member with rfl | rfl | rfl | rfl | rfl | rfl | rfl
  · exact .inl ((Leaf.word _ _).bare node part)
  · exact .inl ((subroutine.returnType.leaf _).bare node part)
  · exact .inl ((Leaf.name _ _).bare node part)
  · exact .inl ((Leaf.word _ _).bare node part)
  · exact .inl (subroutine.parameters.bare _ node part)
  · exact .inl ((Leaf.word _ _).bare node part)
  · rw [subroutine.body.toTree_eq] at part
    cases part with
    | self => exact .inl rfl
    | inside member part =>
      simp only [Tree.children_node, List.mem_append, List.mem_cons, List.not_mem_nil,
        or_false] at member
      rcases member with (rfl | member) | rfl | rfl
      · exact .inl ((Leaf.word _ _).bare node part)
      · exact .inl (treesOf_forall (fun x _ => x.bare) _ _ member node part)
      · exact .inr part
      · exact .inl ((Leaf.word _ _).bare node part)

theorem statementsNode_quiet (subroutine : SubroutineDeclaration) (number : Nat) :
    ∀ node, Part node (subroutine.statementsNode number) → isQuiet node.kind = true := by
  intro node part
  have located : AllLocated ⟨false, "", subroutine.head, .empty, .empty, fun _ => none⟩ _
      (subroutine.statementsNode number) := statementsTree_allLocated _ _
  exact (located node part).quiet

theorem statementsNode_located (declaration : ClassDeclaration) (comments : Bool)
    (subroutine : SubroutineDeclaration) (number : Nat) :
    AllLocated (declaration.context comments subroutine)
      ⟨statementTokens subroutine.body.statements, subroutine.occurrences,
        declaration.bodyCode comments subroutine number⟩ (subroutine.statementsNode number) := by
  refine (statementsTree_allLocated _ _).mono ⟨fun _ => id, fun _ => id, ?_⟩
  have same : number + 6 + subroutine.parameters.nodes + 2 +
      nodesOf LocalVariables.nodes subroutine.body.locals + 1 =
      number + 6 + subroutine.parameters.nodes + 3 +
        nodesOf LocalVariables.nodes subroutine.body.locals := by omega
  rw [same]
  exact List.infix_append_of_infix_left List.infix_append_right

theorem ne_subroutineDec_below {subroutine : SubroutineDeclaration} {number : Nat}
    {child : Tree} (member : child ∈ (subroutine.toTree number).1.children) :
    ∀ node, Part node child → node.kind ≠ .subroutineDec := by
  intro node part kind
  rcases isBare_below member part with bare | part
  · rw [kind] at bare
    cases bare
  · have quiet := statementsNode_quiet subroutine number node part
    rw [kind] at quiet
    cases quiet

end Subroutines

section Unit

variable (declaration : ClassDeclaration)

def ClassDeclaration.subroutineTrees : List Tree :=
  (treesOf SubroutineDeclaration.toTree declaration.subroutines [] declaration.firstNumber).1

def ClassDeclaration.headTrees : List Tree :=
  [(wordLeaf declaration.keyword.val 2).1, .node 3 .identifier (some declaration.name.val) [],
    (wordLeaf declaration.opening.val 4).1] ++
    (treesOf ClassVariables.toTree declaration.declarations [] 5).1

theorem unit_toTree : ∃ after, (Phrase.classDeclaration declaration).toTree =
    .node 0 .start none [.node 1 .classDec none (declaration.headTrees ++
      declaration.subroutineTrees ++ [(wordLeaf declaration.closing.val after).1])] := by
  exact ⟨_, congrArg (Tree.node 0 .start none [·]) (congrArg Prod.fst (declaration.toTree_eq 1))⟩

theorem headTrees_bare : ∀ tree ∈ declaration.headTrees, Bare tree := by
  refine List.forall_mem_append.mpr ⟨?_, treesOf_forall (fun x _ => x.bare) _⟩
  exact List.forall_mem_cons.mpr ⟨(Leaf.word _ _).bare, List.forall_mem_cons.mpr
    ⟨(Leaf.name _ _).bare, List.forall_mem_cons.mpr ⟨(Leaf.word _ _).bare, List.forall_mem_nil _⟩⟩⟩

theorem Bare.ne_subroutineDec {tree : Tree} (bare : Bare tree) :
    ∀ node, Part node tree → node.kind ≠ .subroutineDec := by
  intro node part same
  have own := bare node part
  rw [same] at own
  cases own

private theorem declarationsAllFrom_subroutines (subroutines : List SubroutineDeclaration)
    (number : Nat) (done : List Declaration) :
    declarationsAllFrom false (treesOf SubroutineDeclaration.toTree subroutines [] number).1 done =
      ((treesOf SubroutineDeclaration.toTree subroutines [] number).1.map (⟨·, false⟩)).reverse ++
        done := by
  induction subroutines generalizing number done with
  | nil => rfl
  | cons subroutine subroutines ih =>
    have first : declarationsFrom false (subroutine.toTree number).1 done =
        ⟨(subroutine.toTree number).1, false⟩ :: done := by
      have inner := declarationsAllFrom_none true done (subroutine.toTree number).1.children
        fun child member => ne_subroutineDec_below member
      rw [subroutine.toTree_eq] at inner ⊢
      rw [declarationsFrom]
      exact congrArg _ inner
    rw [treesOf_cons, declarationsAllFrom, first, ih]
    simp

theorem declarations_unit :
    declarations (Phrase.classDeclaration declaration).toTree =
      declaration.subroutineTrees.map (⟨·, false⟩) := by
  obtain ⟨after, same⟩ := unit_toTree declaration
  have closing : ∀ tree ∈ [(wordLeaf declaration.closing.val after).1],
      ∀ node, Part node tree → node.kind ≠ .subroutineDec :=
    List.forall_mem_cons.mpr ⟨(Leaf.word _ _).bare.ne_subroutineDec, List.forall_mem_nil _⟩
  rw [same]
  change (declarationsAllFrom false (_ ++ _ ++ _) []).reverse = _
  rw [declarationsAllFrom_append, declarationsAllFrom_append,
    declarationsAllFrom_none _ _ declaration.headTrees fun tree member =>
      (headTrees_bare declaration tree member).ne_subroutineDec,
    ClassDeclaration.subroutineTrees, declarationsAllFrom_subroutines,
    declarationsAllFrom_none _ _ _ closing, List.append_nil, List.reverse_reverse]

private theorem declaredKind_subroutines (name : String) (subroutines : List SubroutineDeclaration)
    (number : Nat) (found : Option SubroutineKind) :
    declaredKind name
        ((treesOf SubroutineDeclaration.toTree subroutines [] number).1.map (⟨·, false⟩)) found =
      .ok (found.or ((subroutines.find? (·.name.val.value == name)).map
        SubroutineDeclaration.kind)) := by
  induction subroutines generalizing number found with
  | nil => simp [treesOf, declaredKind]
  | cons subroutine subroutines ih =>
    have own : Declaration.kindOf? ⟨(subroutine.toTree number).1, false⟩ name =
        .ok (if subroutine.name.val.value = name then some subroutine.kind else none) := by
      have third : childValue (subroutine.toTree number).1 2 = .ok subroutine.name.val.value := by
        rw [subroutine.toTree_eq]
        exact childValue_of rfl rfl
      have first : childValue (subroutine.toTree number).1 0 = .ok subroutine.keyword.val.value := by
        rw [subroutine.toTree_eq]
        exact childValue_of rfl rfl
      rw [Declaration.kindOf?, third, first]
      change (if subroutine.name.val.value = name then
        SubroutineKind.ofName subroutine.keyword.val.value >>= _ else _) = _
      rw [ofName_keyword]
      split <;> rfl
    rw [treesOf_cons, List.map_cons, declaredKind, own]
    change declaredKind name _ (found.or _) = _
    rw [ih, List.find?_cons]
    by_cases same : subroutine.name.val.value = name
    · simp [same]
    · simp [same, beq_false_of_ne same]

theorem declaredKind_unit (name : String) :
    declaredKind name (declarations (Phrase.classDeclaration declaration).toTree) none =
      .ok (declaration.kindOf name) := by
  rw [declarations_unit, ClassDeclaration.subroutineTrees, declaredKind_subroutines]
  rfl

def ClassDeclaration.setting (comments : Bool) : Setting :=
  ⟨comments, Lowering.declarations (Phrase.classDeclaration declaration).toTree⟩

theorem agrees_unit (comments : Bool) (subroutine : SubroutineDeclaration) :
    Agrees (declaration.setting comments) (declaration.context comments subroutine) :=
  ⟨rfl, declaredKind_unit declaration⟩

variable {declaration}

private theorem visitAll_subroutines {setting : Setting} {subroutines : List SubroutineDeclaration}
    (agrees : ∀ s ∈ subroutines, Agrees setting (declaration.context setting.comments s))
    (formed : ∀ s ∈ subroutines, ∀ t ∈ s.tokens, t.WellFormed) (number : Nat) :
    ∃ codes, codes.flatten = declaration.subroutineCode setting.comments number subroutines ∧
      visitAll setting (treesOf SubroutineDeclaration.toTree subroutines [] number).1
          declaration.scope [] =
        settle (subroutines.flatMap declaration.subroutineFaults) (codes, declaration.scope) := by
  induction subroutines generalizing number with
  | nil => exact ⟨[], rfl, rfl⟩
  | cons subroutine subroutines ih =>
    obtain ⟨codes, same, visits⟩ := ih (fun s member => agrees s (.tail _ member))
      (fun s member => formed s (.tail _ member)) (number + subroutine.nodes)
    have first := visit_subroutine (agrees _ (.head _)) (formed _ (.head _)) number
    refine ⟨declaration.bodyCode setting.comments subroutine number :: codes, ?_, ?_⟩
    · rw [List.flatten_cons, same, ClassDeclaration.subroutineCode]
    · rw [treesOf_cons, subroutine.toTree_next, visitAll_cons first visits]
      rfl

def ClassDeclaration.entered (declaration : ClassDeclaration) : Scope :=
  ⟨some declaration.className, none, .empty, .empty⟩

theorem visitAll_headTrees (setting : Setting) :
    ∃ count, visitAll setting declaration.headTrees declaration.entered [] =
      settle (SymbolTable.empty.duplicates declaration.variableList)
        (List.replicate count [], declaration.scope) := by
  have leaves : ∀ tree ∈ [(wordLeaf declaration.keyword.val 2).1,
      .node 3 .identifier (some declaration.name.val) [],
      (wordLeaf declaration.opening.val 4).1], Leaf tree :=
    List.forall_mem_cons.mpr ⟨Leaf.word _ _, List.forall_mem_cons.mpr
      ⟨Leaf.name _ _, List.forall_mem_cons.mpr ⟨Leaf.word _ _, List.forall_mem_nil _⟩⟩⟩
  refine ⟨3 + declaration.declarations.length, ?_⟩
  rw [ClassDeclaration.headTrees, visitAll_append (visitAll_leaves leaves)
    (visitAll_classVariables declaration.declarations 5 _), ← List.replicate_append_replicate]
  rfl

private theorem leave_unit {setting : Setting} {number : Nat} {children : List Tree}
    {codes : List Code} {count : Nat}
    (flat : codes.flatten = declaration.subroutineCode setting.comments declaration.firstNumber
      declaration.subroutines) :
    leave setting (.node number .classDec none children) declaration.scope
        (List.replicate count [] ++ codes ++ [[]]) =
      settle [] (declaration.code setting.comments, outermost) := by
  have fragments : (List.replicate count [] ++ codes ++ [[]]).flatten = codes.flatten := by simp
  change (pure (marker _ _ ++ (List.replicate count [] ++ codes ++ [[]]).flatten ++ marker _ _, _) :
    Lower (Code × Scope)) = _
  rw [fragments, flat]
  rfl

theorem ClassDeclaration.subroutine_tokens_subset {s : SubroutineDeclaration}
    (member : s ∈ declaration.subroutines) : s.tokens ⊆ declaration.tokens :=
  fun t inside => by
    have listed : ∃ other ∈ declaration.subroutines, t ∈ other.tokens := ⟨s, member, inside⟩
    simp [ClassDeclaration.tokens, listed]

theorem formed_subroutines (formed : ∀ t ∈ declaration.tokens, t.WellFormed) :
    ∀ s ∈ declaration.subroutines, ∀ t ∈ s.tokens, t.WellFormed :=
  fun _ member t inside => formed t (declaration.subroutine_tokens_subset member inside)

theorem visit_unit (formed : ∀ t ∈ declaration.tokens, t.WellFormed) (comments : Bool) :
    visit (declaration.setting comments) (Phrase.classDeclaration declaration).toTree outermost =
      settle declaration.faults (declaration.code comments, outermost) := by
  obtain ⟨codes, flat, subroutines⟩ := visitAll_subroutines
    (fun s _ => agrees_unit declaration comments s) (formed_subroutines formed)
    declaration.firstNumber
  obtain ⟨count, head⟩ := visitAll_headTrees (declaration.setting comments)
  obtain ⟨after, same⟩ := unit_toTree declaration
  have parts := visitAll_append (visitAll_append head subroutines)
    (visitAll_cons (visit_leaf (Leaf.word declaration.closing.val after)) visitAll_nil)
  have unit : visit (declaration.setting comments) (.node 1 .classDec none
      (declaration.headTrees ++ declaration.subroutineTrees ++
        [(wordLeaf declaration.closing.val after).1])) outermost = _ :=
    visit_entered (show enter _ outermost = .ok declaration.entered from rfl) parts
      (leave_unit flat)
  rw [same, visit_plain _ 0 .start none rfl (visitAll_cons unit visitAll_nil) rfl]
  simp only [List.append_nil, List.flatten_cons, List.flatten_nil]
  rfl

/-- Lowering a unit gives its code, or the first thing that is wrong with it. -/
theorem lower_unit (formed : ∀ t ∈ declaration.tokens, t.WellFormed) (comments : Bool) :
    lower comments (Phrase.classDeclaration declaration).toTree =
      settle declaration.faults (declaration.code comments) := by
  change (visit (declaration.setting comments) _ _ >>= _) = _
  rw [visit_unit formed comments]
  exact settle_bind_pure Prod.fst

theorem compile_unit {source : String} {phrase : Phrase} (comments : Bool)
    (read : parse .classDeclaration (items source.toList) = .ok phrase) :
    ∃ declaration, phrase = .classDeclaration declaration ∧
      (∀ t ∈ declaration.tokens, t.WellFormed) ∧
      compile comments source = settle declaration.faults (declaration.code comments) := by
  have formed := source_tokens_wellFormed read
  obtain ⟨-, -, -, -, entry, -⟩ := parse_reads read
  cases phrase with
  | classDeclaration declaration =>
    refine ⟨declaration, rfl, formed, ?_⟩
    rw [compile, read]
    exact lower_unit formed comments
  | _ => cases entry

theorem class_of_compile {comments : Bool} {source : String} {code : Code}
    (compiles : compile comments source = .ok code) :
    ∃ declaration,
      parse .classDeclaration (items source.toList) = .ok (.classDeclaration declaration) := by
  cases read : parse .classDeclaration (items source.toList) with
  | error e =>
    rw [compile, read] at compiles
    cases compiles
  | ok phrase =>
    obtain ⟨declaration, rfl, -⟩ := compile_unit comments read
    exact ⟨declaration, rfl⟩

end Unit

section Visited

variable {setting : Setting} {trees : List Tree} {tree node : Tree} {scope after there : Scope}
variable {code : Code} {codes : List Code}

private theorem Visits.not_bare (visits : Visits setting trees scope node there)
    (phrase : isBare node.kind = false) : ∃ tree ∈ trees, ¬ Bare tree := by
  obtain ⟨tree, member, part⟩ := visits.part
  refine ⟨tree, member, fun bare => ?_⟩
  have own := bare node part
  rw [phrase] at own
  cases own

private theorem Visits.skip (visits : Visits setting (tree :: trees) scope node there)
    (phrase : isBare node.kind = false) (bare : Bare tree)
    (visited : visit setting tree scope = .ok (code, after)) :
    Visits setting trees after node there := by
  -- A node that is not bare is met after every bare tree.
  rcases visits.first_or_later visited with first | later
  · obtain ⟨other, member, notBare⟩ := first.not_bare phrase
    exact absurd (List.mem_singleton.mp member ▸ bare) notBare
  · exact later

private theorem Visits.skip_all {first : List Tree}
    (visits : Visits setting (first ++ trees) scope node there)
    (phrase : isBare node.kind = false) (bare : ∀ tree ∈ first, Bare tree)
    (visited : visitAll setting first scope [] = .ok (codes, after)) :
    Visits setting trees after node there := by
  rcases visits.of_append visited with first | later
  · obtain ⟨other, member, notBare⟩ := first.not_bare phrase
    exact absurd (bare other member) notBare
  · exact later

private theorem Visits.first (visits : Visits setting (tree :: trees) scope node there)
    (phrase : isBare node.kind = false) (bare : ∀ tree ∈ trees, Bare tree) :
    Visits setting [tree] scope node there := by
  -- Only bare trees come after the first, so the node is met in it.
  cases visits with
  | here => exact .here
  | inside enters inner => exact .inside enters inner
  | later visited visits =>
    obtain ⟨other, member, notBare⟩ := visits.not_bare phrase
    exact absurd (bare other member) notBare

variable {context : Context}

private theorem visited_in_body {body : SubroutineBody} {table : SymbolTable} {number : Nat}
    (whole : context.subroutineVariables =
      table.extend (body.locals.flatMap LocalVariables.variableList))
    (distinct : table.duplicates (body.locals.flatMap LocalVariables.variableList) = [])
    (visits : Visits setting [(body.toTree number).1]
      { context.scope with subroutineVariables := table } node there)
    (phrase : isBare node.kind = false) :
    Visits setting [(statementsTree body.statements
      (number + 2 + nodesOf LocalVariables.nodes body.locals)).1] context.scope node there := by
  rw [body.toTree_eq] at visits
  cases visits with
  | here => cases phrase
  | later visited visits => cases visits
  | inside enters visits =>
    cases enters
    have locals := visitAll_locals setting whole (number + 2)
    rw [distinct] at locals
    have before := visitAll_append (visitAll_cons
      (visit_wordLeaf body.opening.val (number + 1)) visitAll_nil) locals
    have bare : ∀ tree ∈ [(wordLeaf body.opening.val (number + 1)).1] ++
        (treesOf LocalVariables.toTree body.locals [] (number + 2)).1, Bare tree :=
      List.forall_mem_append.mpr ⟨List.forall_mem_cons.mpr ⟨(Leaf.word _ _).bare, List.forall_mem_nil _⟩,
        treesOf_forall (fun x _ => x.bare) _⟩
    exact (visits.skip_all phrase bare before).first phrase
      (List.forall_mem_cons.mpr ⟨(Leaf.word _ _).bare, List.forall_mem_nil _⟩)

private theorem visited_in_subroutine {declaration : ClassDeclaration}
    {subroutine : SubroutineDeclaration} {number : Nat}
    (formed : ∀ t ∈ subroutine.parameters.tokens, t.WellFormed)
    (distinct : SymbolTable.empty.duplicates (subroutine.variableList declaration.className) = [])
    (visits : Visits setting [(subroutine.toTree number).1] declaration.scope node there)
    (phrase : isBare node.kind = false) (kind : node.kind ≠ .subroutineDec) :
    Visits setting [subroutine.statementsNode number]
      (declaration.context setting.comments subroutine).scope node there := by
  have enters := enter_subroutine setting.comments declaration subroutine number
  rw [duplicates_variables, List.append_eq_nil_iff] at distinct
  rw [subroutine.toTree_eq] at visits enters
  cases visits with
  | here => exact absurd rfl kind
  | later visited visits => cases visits
  | inside enters' visits =>
    rw [enters] at enters'
    cases enters'
    have visits := visits.skip phrase (Leaf.word _ _).bare (visit_wordLeaf _ _)
    have visits := visits.skip phrase (subroutine.returnType.leaf _).bare
      (visit_leaf (subroutine.returnType.leaf _))
    have visits := visits.skip phrase (Leaf.name _ _).bare (visit_nameLeaf _ _)
    have visits := visits.skip phrase (Leaf.word _ _).bare (visit_wordLeaf _ _)
    have parameters : visit setting (subroutine.parameters.toTree (number + 5)).1
        (receiverScope setting.comments declaration subroutine) = _ :=
      visit_parameters formed (number + 5)
    change _ = settle ((SymbolTable.empty.extend (subroutine.receiver declaration.className)).duplicates
      (subroutine.parameters.list.map Parameter.variable)) _ at parameters
    rw [distinct.1] at parameters
    have visits := visits.skip phrase (subroutine.parameters.bare _) parameters
    have visits := visits.skip phrase (Leaf.word _ _).bare (visit_wordLeaf _ _)
    refine visited_in_body ?_ distinct.2 visits phrase
    exact (declaration.subroutineVariables_eq setting.comments subroutine)

private theorem visited_in_subroutines {declaration : ClassDeclaration}
    {subroutines : List SubroutineDeclaration} {number : Nat}
    (agrees : ∀ s ∈ subroutines, Agrees setting (declaration.context setting.comments s))
    (formed : ∀ s ∈ subroutines, ∀ t ∈ s.tokens, t.WellFormed)
    (faultless : ∀ s ∈ subroutines, declaration.subroutineFaults s = [])
    (visits : Visits setting (treesOf SubroutineDeclaration.toTree subroutines [] number).1
      declaration.scope node there) :
    ∃ s ∈ subroutines, ∃ place,
      (s.toTree place).1 ∈ (treesOf SubroutineDeclaration.toTree subroutines [] number).1 ∧
      declaration.bodyCode setting.comments s place <:+:
        declaration.subroutineCode setting.comments number subroutines ∧
      Visits setting [(s.toTree place).1] declaration.scope node there := by
  induction subroutines generalizing number with
  | nil => cases visits
  | cons subroutine subroutines ih =>
    rw [treesOf_cons] at visits ⊢
    have visited := visit_subroutine (agrees _ (.head _)) (formed _ (.head _)) number
    rw [faultless _ (.head _)] at visited
    rcases visits.first_or_later visited with here | later
    · exact ⟨subroutine, .head _, number, .head _, List.infix_append_left, here⟩
    · rw [subroutine.toTree_next] at later ⊢
      obtain ⟨s, member, place, tree, code, inside⟩ := ih (fun s member => agrees s (.tail _ member))
        (fun s member => formed s (.tail _ member)) (fun s member => faultless s (.tail _ member))
        later
      exact ⟨s, .tail _ member, place, .tail _ tree,
        List.infix_append_of_infix_right code, inside⟩

private theorem visited_subroutines {declaration : ClassDeclaration} {comments : Bool}
    (distinct : SymbolTable.empty.duplicates declaration.variableList = [])
    (visits : Visits (declaration.setting comments) [(Phrase.classDeclaration declaration).toTree]
      outermost node there)
    (phrase : isBare node.kind = false) (start : node.kind ≠ .start) (unit : node.kind ≠ .classDec)
    (visited : visitAll (declaration.setting comments) declaration.subroutineTrees
      declaration.scope [] = .ok (codes, declaration.scope)) :
    Visits (declaration.setting comments) declaration.subroutineTrees declaration.scope node
      there := by
  obtain ⟨last, same⟩ := unit_toTree declaration
  rw [same] at visits
  cases visits with
  | here => exact absurd rfl start
  | later visited visits => cases visits
  | inside enters visits =>
    cases enters
    cases visits with
    | here => exact absurd rfl unit
    | later visited visits => cases visits
    | inside enters visits =>
      cases enters
      obtain ⟨count, head⟩ := visitAll_headTrees (declaration.setting comments)
      rw [distinct] at head
      rw [Tree.children_node, List.append_assoc] at visits
      have visits := visits.skip_all phrase (headTrees_bare declaration) head
      rcases visits.of_append visited with here | later
      · exact here
      · obtain ⟨tree, member, notBare⟩ := later.not_bare phrase
        exact absurd (List.mem_singleton.mp member ▸ (Leaf.word _ _).bare) notBare

private theorem isBare_of_isPiece (kind : isPiece node.kind = true) : isBare node.kind = false := by
  rw [isBare, kind, Bool.not_true, Bool.and_false]

theorem visits_subroutine {declaration : ClassDeclaration} {comments : Bool}
    {s : SubroutineDeclaration} {place : Nat} (formed : ∀ t ∈ s.tokens, t.WellFormed)
    (faultless : declaration.subroutineFaults s = [])
    (visits : Visits (declaration.setting comments) [(s.toTree place).1] declaration.scope node
      there) (kind : isPiece node.kind = true) :
    there = (declaration.context comments s).scope ∧ Part node (s.toTree place).1 ∧
      Located (declaration.context comments s)
        ⟨statementTokens s.body.statements, s.occurrences, declaration.bodyCode comments s place⟩
        node := by
  rw [ClassDeclaration.subroutineFaults, List.append_eq_nil_iff] at faultless
  have formedParameters : ∀ t ∈ s.parameters.tokens, t.WellFormed := fun t member =>
    formed t (by simp [SubroutineDeclaration.tokens, member])
  have differs : node.kind ≠ .subroutineDec := by
    intro same
    rw [same] at kind
    cases kind
  obtain ⟨tree, only, part⟩ := visits.part
  rw [List.mem_singleton.mp only] at part
  have inBody := visited_in_subroutine formedParameters faultless.1 visits
    (isBare_of_isPiece kind) differs
  obtain ⟨tree, only, partBody⟩ := inBody.part
  rw [List.mem_singleton.mp only] at partBody
  refine ⟨inBody.scope_eq fun tree member => ?_, part,
    statementsNode_located declaration comments s place node partBody⟩
  rw [List.mem_singleton.mp member]
  exact statementsNode_quiet s place

/-- Every node for a piece of a body that is visited in a unit is visited in a subroutine of it. -/
theorem visits_unit {declaration : ClassDeclaration} {comments : Bool}
    (formed : ∀ t ∈ declaration.tokens, t.WellFormed) (faultless : declaration.faults = [])
    (visits : Visits (declaration.setting comments) [(Phrase.classDeclaration declaration).toTree]
      outermost node there)
    (kind : isPiece node.kind = true) :
    ∃ s ∈ declaration.subroutines, there = (declaration.context comments s).scope ∧
      (∃ place, (s.toTree place).1 ∈ declaration.subroutineTrees ∧ Part node (s.toTree place).1) ∧
      Located (declaration.context comments s)
        ⟨statementTokens s.body.statements, s.occurrences, declaration.code comments⟩ node := by
  have phrase : isBare node.kind = false := isBare_of_isPiece kind
  have differs (other : NodeKind) (not : isPiece other = false) : node.kind ≠ other := by
    rintro rfl
    rw [kind] at not
    cases not
  rw [ClassDeclaration.faults, List.append_eq_nil_iff, List.flatMap_eq_nil_iff] at faultless
  have formedSubroutines := formed_subroutines formed
  obtain ⟨codes, flat, visited⟩ := visitAll_subroutines
    (fun s _ => agrees_unit declaration comments s) formedSubroutines declaration.firstNumber
  rw [List.flatMap_eq_nil_iff.mpr faultless.2] at visited
  have inside := visited_subroutines faultless.1 visits phrase (differs .start rfl)
    (differs .classDec rfl) visited
  obtain ⟨s, member, place, tree, code, inside⟩ := visited_in_subroutines
    (fun s _ => agrees_unit declaration comments s) formedSubroutines faultless.2 inside
  obtain ⟨same, part, located⟩ :=
    visits_subroutine (formedSubroutines s member) (faultless.2 s member) inside kind
  exact ⟨s, member, same, ⟨place, tree, part⟩,
    located.mono ⟨fun _ => id, fun _ => id, code.trans (List.infix_append _ _ _)⟩⟩

end Visited

end JackCompiler
