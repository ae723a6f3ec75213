import JackCompiler.Proofs.Operands.Emission

namespace JackCompiler

open Lowering

def SubroutineDeclaration.parameterNames (s : SubroutineDeclaration) : List String :=
  s.parameters.list.map (·.name.val.value)

def SubroutineDeclaration.localNames (s : SubroutineDeclaration) : List String :=
  s.body.locals.flatMap (·.names.texts)

def ClassDeclaration.namesOfKind (declaration : ClassDeclaration) (kind : VariableKind) :
    List String :=
  (declaration.declarations.filter (·.kind == kind)).flatMap (·.names.texts)

structure Cell where
  segment : Segment
  index : Nat
  deriving DecidableEq

def ClassDeclaration.cell? (declaration : ClassDeclaration) (s : SubroutineDeclaration)
    (name : String) : Option Cell :=
  (((s.parameterNames.idxOf? name).map fun i =>
      ⟨.argument, if s.kind = .method then i + 1 else i⟩).or
    ((s.localNames.idxOf? name).map (⟨.localVariable, ·⟩))).or
  ((((declaration.namesOfKind .field).idxOf? name).map (⟨.this, ·⟩)).or
    (((declaration.namesOfKind .static).idxOf? name).map (⟨.static, ·⟩)))

/-- There is room for the variables of each scope. -/
structure ClassDeclaration.Roomy (declaration : ClassDeclaration) : Prop where
  fields : (declaration.namesOfKind .field).length < 65535
  statics : (declaration.namesOfKind .static).length < 65535
  parameters : ∀ s ∈ declaration.subroutines, s.parameterNames.length < 65535
  locals : ∀ s ∈ declaration.subroutines, s.localNames.length < 65535

instance (declaration : ClassDeclaration) : Decidable declaration.Roomy :=
  decidable_of_iff
    ((declaration.namesOfKind .field).length < 65535 ∧
      (declaration.namesOfKind .static).length < 65535 ∧
      (∀ s ∈ declaration.subroutines, s.parameterNames.length < 65535) ∧
      ∀ s ∈ declaration.subroutines, s.localNames.length < 65535)
    ⟨fun ⟨fields, statics, parameters, locals⟩ => ⟨fields, statics, parameters, locals⟩,
      fun few => ⟨few.fields, few.statics, few.parameters, few.locals⟩⟩

section Names

variable {kind : VariableKind} {name : String} {declared first second : List Declared}

def namesIn (kind : VariableKind) (declared : List Declared) : List String :=
  (declared.filter (·.kind == kind)).map (·.name)

theorem namesIn_append :
    namesIn kind (first ++ second) = namesIn kind first ++ namesIn kind second := by
  simp [namesIn]

theorem namesIn_of_all (all : ∀ d ∈ declared, d.kind = kind) :
    namesIn kind declared = declared.map (·.name) := by
  rw [namesIn, List.filter_eq_self.mpr fun d member => beq_iff_eq.mpr (all d member)]

theorem namesIn_of_none (none : ∀ d ∈ declared, d.kind ≠ kind) : namesIn kind declared = [] := by
  rw [namesIn, List.filter_eq_nil_iff.mpr fun d member => by simpa using none d member, List.map_nil]

theorem map_idxOf?_namesIn (kind : VariableKind) (name : String)
    (distinct : (declared.map (·.name)).Nodup) (seen : List Declared) :
    ((namesIn kind declared).idxOf? name).map (seen.countP (·.kind == kind) + ·) =
      ((bindingIn name seen declared).filter (·.kind == kind)).map Binding.index := by
  -- Those of the kind that have been seen are what the index in the rest lacks.
  induction declared generalizing seen with
  | nil => rfl
  | cons d declared ih =>
    rw [List.map_cons, List.nodup_cons] at distinct
    have later := ih distinct.2 (d :: seen)
    by_cases same : d.name = name
    · subst same
      have absent : d.name ∉ namesIn kind declared := by
        intro member
        obtain ⟨other, inside, equal⟩ := List.mem_map.mp member
        exact distinct.1 (equal ▸ List.mem_map_of_mem (List.mem_of_mem_filter inside))
      by_cases own : d.kind = kind
      · simp [namesIn, bindingIn, own, List.idxOf?_cons, Option.filter_some]
      · have skipped : namesIn kind (d :: declared) = namesIn kind declared := by simp [namesIn, own]
        rw [skipped, List.idxOf?_eq_none_iff.mpr absent]
        simp [bindingIn, own, Option.filter_some]
    · have found : bindingIn name seen (d :: declared) = bindingIn name (d :: seen) declared := by
        rw [bindingIn, if_neg same]
      rw [found, ← later]
      by_cases own : d.kind = kind
      · have first : namesIn kind (d :: declared) = d.name :: namesIn kind declared := by
          simp [namesIn, own]
        rw [first, List.idxOf?_cons, if_neg (by simpa using same), Option.map_map]
        congr 1
        funext i
        simp [own]
        omega
      · simp [namesIn, own]

theorem idxOf?_namesIn (distinct : (declared.map (·.name)).Nodup) :
    (namesIn kind declared).idxOf? name =
      ((bindingIn name [] declared).filter (·.kind == kind)).map Binding.index := by
  simpa using map_idxOf?_namesIn kind name distinct []

theorem bindingIn_kind {seen : List Declared} {b : Binding}
    (found : bindingIn name seen declared = some b) : ∃ d ∈ declared, d.kind = b.kind := by
  induction declared generalizing seen with
  | nil => cases found
  | cons d declared ih =>
    rw [bindingIn] at found
    split at found
    · cases found
      exact ⟨d, .head _, rfl⟩
    · obtain ⟨other, member, same⟩ := ih found
      exact ⟨other, .tail _ member, same⟩

end Names

section Declared

variable {declaration : ClassDeclaration} {s : SubroutineDeclaration} {name : String}

theorem SubroutineDeclaration.receiver_kind (className : String) :
    ∀ d ∈ s.receiver className, d.kind = .argument := by
  intro d member
  rw [receiver] at member
  split at member
  · rw [List.mem_singleton.mp member]
  · cases member

theorem SubroutineDeclaration.parameters_kind :
    ∀ d ∈ s.parameters.list.map Parameter.variable, d.kind = .argument :=
  List.forall_mem_map.mpr fun _ _ => rfl

theorem SubroutineDeclaration.locals_kind :
    ∀ d ∈ s.body.locals.flatMap LocalVariables.variableList, d.kind = .localVariable := by
  intro d member
  obtain ⟨declaration, -, inside⟩ := List.mem_flatMap.mp member
  obtain ⟨text, -, rfl⟩ := List.mem_map.mp inside
  rfl

theorem SubroutineDeclaration.variableList_kind (className : String) :
    ∀ d ∈ s.variableList className, d.kind = .argument ∨ d.kind = .localVariable := by
  intro d member
  rcases List.mem_append.mp member with member | member
  · exact .inl (s.receiver_kind className d member)
  · rcases List.mem_append.mp member with member | member
    · exact .inl (s.parameters_kind d member)
    · exact .inr (s.locals_kind d member)

theorem SubroutineDeclaration.namesIn_argument (className : String) :
    namesIn .argument (s.variableList className) =
      (if s.kind = .method then ["this"] else []) ++ s.parameterNames := by
  have receiver : (s.receiver className).map (·.name) =
      if s.kind = .method then ["this"] else [] := by
    rw [receiver]
    split <;> rfl
  have parameters : (s.parameters.list.map Parameter.variable).map (·.name) = s.parameterNames := by
    rw [List.map_map]
    rfl
  have locals : namesIn .argument (s.body.locals.flatMap LocalVariables.variableList) = [] :=
    namesIn_of_none fun d member => by simp [s.locals_kind d member]
  rw [variableList, declared, namesIn_append, namesIn_append, locals, List.append_nil,
    namesIn_of_all (s.receiver_kind className), namesIn_of_all s.parameters_kind, receiver,
    parameters]

theorem SubroutineDeclaration.namesIn_local (className : String) :
    namesIn .localVariable (s.variableList className) = s.localNames := by
  have receiver : namesIn .localVariable (s.receiver className) = [] :=
    namesIn_of_none fun d member => by simp [s.receiver_kind className d member]
  have parameters : namesIn .localVariable (s.parameters.list.map Parameter.variable) = [] :=
    namesIn_of_none fun d member => by simp [s.parameters_kind d member]
  have locals : (s.body.locals.flatMap LocalVariables.variableList).map (·.name) = s.localNames := by
    simp [List.map_flatMap, localNames, LocalVariables.variableList, Function.comp_def]
  rw [variableList, declared, namesIn_append, namesIn_append, receiver, parameters,
    namesIn_of_all s.locals_kind, locals, List.nil_append, List.nil_append]

theorem ClassVariables.variableList_kind (d : ClassVariables) :
    ∀ v ∈ d.variableList, v.kind = d.kind :=
  List.forall_mem_map.mpr fun _ _ => rfl

theorem ClassDeclaration.variableList_kind :
    ∀ d ∈ declaration.variableList, d.kind = .static ∨ d.kind = .field := by
  intro d member
  obtain ⟨line, -, inside⟩ := List.mem_flatMap.mp member
  rw [line.variableList_kind d inside, ClassVariables.kind]
  split
  · exact .inl rfl
  · exact .inr rfl

theorem ClassDeclaration.namesIn_kind (declaration : ClassDeclaration) (kind : VariableKind) :
    namesIn kind declaration.variableList = declaration.namesOfKind kind := by
  rw [variableList, namesOfKind]
  induction declaration.declarations with
  | nil => rfl
  | cons d declarations ih =>
    rw [List.flatMap_cons, namesIn_append, ih, List.filter_cons]
    by_cases own : d.kind = kind
    · rw [namesIn_of_all (own ▸ d.variableList_kind), if_pos (by simpa using own),
        List.flatMap_cons]
      simp [ClassVariables.variableList, Function.comp_def]
    · rw [namesIn_of_none fun other member same => own (d.variableList_kind other member ▸ same),
        if_neg (by simpa using own), List.nil_append]

def Binding.cell (binding : Binding) : Cell := ⟨binding.kind.segment, binding.index⟩

private theorem own_cell (distinct : ((s.variableList declaration.className).map (·.name)).Nodup)
    (other : name ≠ "this") :
    (((s.parameterNames.idxOf? name).map fun i =>
        (⟨.argument, if s.kind = .method then i + 1 else i⟩ : Cell)).or
      ((s.localNames.idxOf? name).map (⟨.localVariable, ·⟩))) =
    (bindingIn name [] (s.variableList declaration.className)).map Binding.cell := by
  have arguments : ((s.parameterNames.idxOf? name).map fun i =>
      (⟨.argument, if s.kind = .method then i + 1 else i⟩ : Cell)) =
      ((namesIn .argument (s.variableList declaration.className)).idxOf? name).map
        (⟨.argument, ·⟩) := by
    rw [s.namesIn_argument]
    split
    · rw [List.singleton_append, List.idxOf?_cons, if_neg (by simpa using other.symm),
        Option.map_map]
      rfl
    · rfl
  rw [arguments, ← s.namesIn_local declaration.className, idxOf?_namesIn distinct,
    idxOf?_namesIn distinct]
  -- The scope of a subroutine has no variables but arguments and locals.
  cases found : bindingIn name [] (s.variableList declaration.className) with
  | none => rfl
  | some b =>
    obtain ⟨d, member, same⟩ := bindingIn_kind found
    obtain ⟨kind, index, type⟩ := b
    rcases s.variableList_kind declaration.className d member with own | own
    all_goals
      obtain rfl : _ = kind := own.symm.trans same
      rfl

private theorem class_cell (distinct : (declaration.variableList.map (·.name)).Nodup) :
    (((declaration.namesOfKind .field).idxOf? name).map (⟨.this, ·⟩)).or
      (((declaration.namesOfKind .static).idxOf? name).map (⟨.static, ·⟩)) =
    (bindingIn name [] declaration.variableList).map Binding.cell := by
  rw [← declaration.namesIn_kind, ← declaration.namesIn_kind, idxOf?_namesIn distinct,
    idxOf?_namesIn distinct]
  -- That of the class has no variables but fields and statics.
  cases found : bindingIn name [] declaration.variableList with
  | none => rfl
  | some b =>
    obtain ⟨d, member, same⟩ := bindingIn_kind found
    obtain ⟨kind, index, type⟩ := b
    rcases declaration.variableList_kind d member with own | own
    all_goals
      obtain rfl : _ = kind := own.symm.trans same
      rfl

theorem ClassDeclaration.cell?_eq (formed : ∀ t ∈ declaration.tokens, t.WellFormed)
    (consistent : declaration.Consistent) (member : s ∈ declaration.subroutines)
    (other : name ≠ "this") :
    declaration.cell? s name = ((declaration.bindings s).lookup name).map Binding.cell := by
  have distinct := (s.variableList_nodup (formed_subroutines formed s member)
    declaration.className).mpr (consistent.locals s member)
  rw [cell?, own_cell distinct other, class_cell consistent.globals, ← Option.map_or]
  rfl

theorem ClassDeclaration.resolve_cell (formed : ∀ t ∈ declaration.tokens, t.WellFormed)
    (consistent : declaration.Consistent) (member : s ∈ declaration.subroutines)
    (other : name ≠ "this") (comments : Bool) :
    ((declaration.context comments s).resolve name).map (fun v => (v.push, v.pop)) =
      (declaration.cell? s name).map fun cell =>
        (.push cell.segment (UInt16.ofNat cell.index),
          .pop cell.segment (UInt16.ofNat cell.index)) := by
  rw [declaration.context_resolve formed consistent comments member, Option.map_map,
    declaration.cell?_eq formed consistent member other, Option.map_map]
  rfl

end Declared

/-- How a node uses the variable that it names itself: as a value, as the base of an element that is
read, as the target of an assignment, as the base of an element that is assigned, or as the receiver
of a call. -/
inductive Use
  | value
  | element
  | target
  | elementTarget
  | receiver
  deriving DecidableEq

def Tree.use? : Tree → Option (Use × Token)
  | .node _ .term _ [.node _ .identifier (some token) _] => some (.value, token)
  | .node _ .term _ [.node _ .arrayAccess _ (.node _ .identifier (some token) _ :: _)] =>
    some (.element, token)
  | .node _ .letStatement _
      (_ :: .node _ .assignment _ (.node _ .identifier (some token) _ :: _) :: _) =>
    some (.target, token)
  | .node _ .letStatement _
      (_ :: .node _ .arrayAssignment _ (.node _ .identifier (some token) _ :: _) :: _) =>
    some (.elementTarget, token)
  | .node _ .subroutineCall _ (.node _ .identifier (some token) _ :: second :: _) =>
    if second.value? = some "." then some (.receiver, token) else none
  | _ => none

/-- What code looks like that uses a cell. -/
def Use.Form (comments : Bool) (segment : Segment) (index : UInt16) (code : Code) : Use → Prop
  | .value => code = [.push segment index]
  | .element => ∃ place, code = .push segment index :: place ++
      [.arithmetic .add, .pop .pointer 1, .push .that 0]
  | .target => ∃ value, code = marker comments "let" ++ value ++ [.pop segment index]
  | .elementTarget => ∃ rest, code = marker comments "let" ++ .push segment index :: rest
  | .receiver => ∃ rest, code = .push segment index :: rest

def Piece.use? : Piece → Option (Use × Name)
  | .term (.name name) => some (.value, name)
  | .term (.element array _ _ _) => some (.element, array)
  | .statement (.assign _ target _ _ _) => some (.target, target)
  | .statement (.assignElement _ array _ _ _ _ _ _) => some (.elementTarget, array)
  | .call (.qualified qualifier _ _ _ _ _) => some (.receiver, qualifier)
  | _ => none

section Uses

variable {declaration : ClassDeclaration} {comments : Bool} {s : SubroutineDeclaration}
  {piece : Piece} {number : Nat} {use : Use} {name : Name} {context : Context}

theorem Piece.tree_use? (piece : Piece) (number : Nat) :
    (piece.tree number).use? = piece.use?.map fun found => (found.1, found.2.val) := by
  cases piece with
  | expression e =>
    rw [tree, Expression.toTree]
    rfl
  | statements list => rfl
  | term t =>
    rw [tree]
    cases t with
    | literal value =>
      obtain ⟨⟨line, kind, text⟩, literal⟩ := value
      rw [Term.toTree]
      cases kind <;> rfl
    | call c =>
      rw [Term.toTree]
      cases c <;>
      · rw [Call.toTree]
        rfl
    | group opening inner closing => simp [Term.toTree, Tree.use?, use?]
    | _ =>
      rw [Term.toTree]
      rfl
  | call c =>
    rw [tree]
    cases c with
    | bare name opening arguments closing =>
      have text : (wordLeaf opening.val (number + 2)).1.value? = some "(" :=
        congrArg some opening.value_eq
      simp [Call.toTree, Tree.use?, use?, text]
    | qualified qualifier dot name opening arguments closing =>
      have text : (wordLeaf dot.val (number + 2)).1.value? = some "." :=
        congrArg some dot.value_eq
      simp [Call.toTree, Tree.use?, use?, text]
  | statement s =>
    rw [tree]
    cases s <;>
    · rw [Statement.toTree]
      rfl

theorem Piece.use?_mem_tokens (found : piece.use? = some (use, name)) :
    name.val ∈ (piece.extent context number).tokens := by
  unfold Piece.use? at found
  split at found
  case h_6 => cases found
  all_goals
    cases found
    simp [Piece.extent, Term.extent, Statement.extent, Call.extent, Term.tokens, Statement.tokens,
      Call.tokens]

theorem Piece.use?_mem_occurrences (context : Context) (number : Nat)
    (found : piece.use? = some (use, name)) :
    use = .receiver ∨ .variable name.val ∈ (piece.extent context number).occurrences := by
  unfold Piece.use? at found
  split at found
  case h_6 => cases found
  all_goals
    cases found
    simp [Piece.extent, Term.extent, Statement.extent, Term.occurrences, Statement.occurrences]

theorem Piece.use_form {found : Variable} (used : piece.use? = some (use, name))
    (resolves : context.resolve name.val.value = some found) :
    use.Form context.comments found.kind.segment found.ordinal
      (piece.extent context number).code := by
  have load : context.load name.val = [.push found.kind.segment found.ordinal] := by
    rw [Context.load, resolves]
    rfl
  have store : context.store name.val = [.pop found.kind.segment found.ordinal] := by
    rw [Context.store, resolves]
    rfl
  unfold Piece.use? at used
  split at used
  case h_1 =>
    cases used
    simp [Use.Form, extent, Term.extent, Term.code, load]
  case h_2 =>
    cases used
    simp [Use.Form, extent, Term.extent, Term.code, load]
  case h_3 =>
    cases used
    simp [Use.Form, extent, Statement.extent, Statement.code, store]
  case h_4 =>
    cases used
    simp [Use.Form, extent, Statement.extent, Statement.code, load]
  case h_5 =>
    cases used
    simp [Use.Form, extent, Call.extent, Call.code, resolves, Variable.push]
  case h_6 => cases used

theorem ClassDeclaration.Placed.uses (formed : ∀ t ∈ declaration.tokens, t.WellFormed)
    (consistent : declaration.Consistent) (placed : declaration.Placed comments s piece number)
    (used : piece.use? = some (use, name)) :
    (declaration.cell? s name.val.value = none → use = .receiver) ∧
      ∀ cell, declaration.cell? s name.val.value = some cell →
        use.Form comments cell.segment (UInt16.ofNat cell.index)
          (piece.extent (declaration.context comments s) number).code := by
  -- The tables of a method know `this` too, but it is no name in a source.
  have other : name.val.value ≠ "this" := fun same =>
    Name.value_not_mem_keywords (placed.formed _ (piece.use?_mem_tokens used))
      (by rw [same]; decide)
  have cells := declaration.resolve_cell formed consistent placed.member other comments
  constructor
  · intro none
    rw [none, Option.map_none, Option.map_eq_none_iff] at cells
    have occurs := piece.use?_mem_occurrences (declaration.context comments s) number used
    refine occurs.resolve_right fun occurs => ?_
    have clear := List.filterMap_eq_nil_iff.mp placed.faultless _ occurs
    rw [Context.fault?, cells] at clear
    cases clear
  · intro cell own
    rw [own, Option.map_some, Option.map_eq_some_iff] at cells
    obtain ⟨found, resolves, same⟩ := cells
    obtain ⟨segment, index⟩ := Instruction.push.inj (congrArg Prod.fst same)
    rw [← segment, ← index]
    exact piece.use_form used resolves

end Uses

def SubroutineKind.opening (words : UInt16) : SubroutineKind → Code
  | .constructor => [.push .constant words, .call "Memory.alloc" 1, .pop .pointer 0]
  | .function => []
  | .method => [.push .argument 0, .pop .pointer 0]

/-- The code of a subroutine says how many locals there are, and a constructor how many words. -/
def ClassDeclaration.Starts (declaration : ClassDeclaration) (comments : Bool)
    (s : SubroutineDeclaration) (locals words : Nat) (block : Code) : Prop :=
  ∃ (count size : UInt16) (rest : Code), count.toNat = locals ∧ size.toNat = words ∧
    block = marker comments s.kind.name ++
      .function (declaration.className ++ "." ++ s.name.val.value) count ::
        (s.kind.opening size ++ rest)

section Starts

variable {declaration : ClassDeclaration} {comments : Bool} {s : SubroutineDeclaration}
  {kind : VariableKind}

theorem countP_extend (table : SymbolTable) (declared : List Declared) :
    (table.extend declared).entries.countP (·.kind == kind) =
      table.entries.countP (·.kind == kind) + (namesIn kind declared).length := by
  induction declared generalizing table with
  | nil => rfl
  | cons d declared ih =>
    rw [SymbolTable.extend, ih, List.countP_cons]
    by_cases own : d.kind = kind
    · simp [namesIn, own]
      omega
    · simp [namesIn, own]

theorem count_extend (declared : List Declared) :
    (SymbolTable.empty.extend declared).count kind = UInt16.ofNat (namesIn kind declared).length := by
  rw [SymbolTable.count, countP_extend, SymbolTable.empty, List.countP_nil, Nat.zero_add]

theorem prologue_eq (scope : Scope) (kind : SubroutineKind) :
    prologue scope kind = kind.opening (max (scope.classVariables.count .field) 1) := by
  cases kind <;> rfl

theorem ClassDeclaration.count_fields (declaration : ClassDeclaration) (comments : Bool)
    (s : SubroutineDeclaration) :
    (declaration.context comments s).scope.classVariables.count .field =
      UInt16.ofNat (declaration.namesOfKind .field).length := by
  rw [← declaration.namesIn_kind]
  exact count_extend _

theorem starts_bodyCode (declaration : ClassDeclaration) (s : SubroutineDeclaration)
    (number : Nat) : declaration.Starts comments s (s.localNames.length % 65536)
      (max 1 ((declaration.namesOfKind .field).length % 65536))
      (declaration.bodyCode comments s number) := by
  have locals : (declaration.context comments s).subroutineVariables.count .localVariable =
      UInt16.ofNat s.localNames.length := by
    rw [← s.namesIn_local declaration.className]
    exact count_extend _
  have code := s.body.code_parts (declaration.context comments s)
    (number + 6 + s.parameters.nodes)
  rw [locals, prologue_eq, declaration.count_fields, List.append_assoc] at code
  refine ⟨_, _, _, UInt16.toNat_ofNat', ?_, code⟩
  rw [UInt16.toNat_max, UInt16.toNat_ofNat', Nat.max_comm]
  rfl

end Starts

/-- Every use of a variable goes to its cell, and every subroutine starts by setting up the cells. An
instruction shows what `keep` leaves of a number. -/
structure ClassDeclaration.Addressed (declaration : ClassDeclaration) (comments : Bool)
    (code : Code) (keep : Nat → Nat) : Prop where
  uses : ∀ node use token, Part node (Phrase.classDeclaration declaration).toTree →
    node.use? = some (use, token) → declaration.Shows comments code node fun s _ fragment =>
      (declaration.cell? s token.value = none → use = .receiver) ∧
      ∀ cell, declaration.cell? s token.value = some cell → ∃ index : UInt16,
        index.toNat = keep cell.index ∧ use.Form comments cell.segment index fragment
  starts : ∀ (index : Nat) s, declaration.subroutines[index]? = some s → ∃ before block after,
    declaration.BlockAt comments code index before block after ∧
    declaration.Starts comments s (keep s.localNames.length)
      (max 1 (keep (declaration.namesOfKind .field).length)) block

section Units

variable {source : String} {declaration : ClassDeclaration} {code : Code} {comments : Bool}
  {s : SubroutineDeclaration} {name : String} {cell : Cell}

theorem isPiece_of_use? {node : Tree} {use : Use} {token : Token}
    (used : node.use? = some (use, token)) : isPiece node.kind = true := by
  unfold Tree.use? at used
  split at used
  case h_6 => cases used
  all_goals rfl

theorem ClassDeclaration.Roomy.index_lt (roomy : declaration.Roomy)
    (member : s ∈ declaration.subroutines) (found : declaration.cell? s name = some cell) :
    cell.index < 65536 := by
  have bound {names : List String} {i : Nat} (few : names.length < 65535)
      (there : names.idxOf? name = some i) : i < 65535 :=
    Nat.lt_trans (List.idxOf?_eq_some_iff.mp there).1 few
  rw [cell?, Option.or_eq_some_iff, Option.or_eq_some_iff, Option.or_eq_some_iff] at found
  simp only [Option.map_eq_some_iff] at found
  rcases found with (⟨i, there, rfl⟩ | ⟨-, i, there, rfl⟩) | ⟨-, ⟨i, there, rfl⟩ | ⟨-, i, there, rfl⟩⟩
  · have := bound (roomy.parameters s member) there
    dsimp only
    split <;> omega
  · exact Nat.lt_trans (bound (roomy.locals s member) there) (by decide)
  · exact Nat.lt_trans (bound roomy.fields there) (by decide)
  · exact Nat.lt_trans (bound roomy.statics there) (by decide)

theorem addressed_of_faultless (comments : Bool)
    (formed : ∀ t ∈ declaration.tokens, t.WellFormed)
    (faultless : declaration.faults = []) :
    declaration.Addressed comments (declaration.code comments) (· % 65536) := by
  have consistent := declaration.consistent_of_faultless formed faultless
  constructor
  · intro node use token part used
    refine shows_of_placed formed faultless part (isPiece_of_use? used) ?_
    rintro s piece number rfl placed
    rw [piece.tree_use?, Option.map_eq_some_iff] at used
    obtain ⟨⟨use', name⟩, used, same⟩ := used
    cases same
    have uses := placed.uses formed consistent used
    exact ⟨uses.1, fun cell own => ⟨_, UInt16.toNat_ofNat', uses.2 cell own⟩⟩
  · intro index s found
    obtain ⟨before, place, after, block⟩ := declaration.exists_blockAt comments formed faultless found
    exact ⟨before, _, after, block, starts_bodyCode declaration s place⟩

/-- In a compiled unit with room for its variables, every use of a variable goes to the cell that the
declarations give it, and every subroutine sets up its cells. -/
theorem variables_addressed
    (read : parse .classDeclaration (items source.toList) = .ok (.classDeclaration declaration))
    (compiles : compile comments source = .ok code) (roomy : declaration.Roomy) :
    declaration.Addressed comments code id := by
  obtain ⟨formed, faultless, rfl⟩ := unit_compiled read compiles
  have kept := addressed_of_faultless comments formed faultless
  constructor
  · intro node use token part used
    obtain ⟨visits, all⟩ := kept.uses node use token part used
    refine ⟨visits, fun there met => ?_⟩
    obtain ⟨s, fragment, emits, bare, cells⟩ := all there met
    refine ⟨s, fragment, emits, bare, fun cell own => ?_⟩
    obtain ⟨index, number, form⟩ := cells cell own
    exact ⟨index, number.trans (Nat.mod_eq_of_lt (roomy.index_lt emits.member own)), form⟩
  · intro index s found
    have starts := kept.starts index s found
    have locals := roomy.locals s (List.mem_of_getElem? found)
    rwa [Nat.mod_eq_of_lt (Nat.lt_trans locals (by decide)),
      Nat.mod_eq_of_lt (Nat.lt_trans roomy.fields (by decide))] at starts

private def meterText : String :=
  "class Meter \x7b field int low; static int made; field Array seen; " ++
    "method int at(int i) \x7b var Array old, kept; let kept = seen; let old = kept[i]; " ++
      "let kept[i] = made; do old.dispose(); return low; \x7d \x7d"

private def cellsOf (declaration : ClassDeclaration) : List (List (Option Cell)) :=
  declaration.subroutines.map fun s =>
    ["i", "old", "kept", "low", "seen", "made"].map (declaration.cell? s)

private def meterCells : List (List (Option Cell)) :=
  [[some ⟨.argument, 1⟩, some ⟨.localVariable, 0⟩, some ⟨.localVariable, 1⟩, some ⟨.this, 0⟩,
    some ⟨.this, 1⟩, some ⟨.static, 0⟩]]

theorem variables_addressed_meter :
    ∃ declaration code,
      parse .classDeclaration (items meterText.toList) = .ok (.classDeclaration declaration) ∧
      compile false meterText = .ok code ∧ cellsOf declaration = meterCells ∧
      declaration.Addressed false code id := by
  have found : (faultlessUnit? meterText).map (fun d => (decide d.Roomy, cellsOf d)) =
      some (true, meterCells) := by decide +kernel
  obtain ⟨declaration, unit, facts⟩ := Option.map_eq_some_iff.mp found
  obtain ⟨few, cells⟩ := Prod.mk.inj facts
  obtain ⟨read, compiles⟩ := compile_of_faultlessUnit? false unit
  exact ⟨declaration, _, read, compiles, cells,
    variables_addressed read compiles (of_decide_eq_true few)⟩

end Units

end JackCompiler
