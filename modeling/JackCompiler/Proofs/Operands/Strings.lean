import JackCompiler.Proofs.Operands.Counts
import JackCompiler.Proofs.Phrase.Lossless
import JackCompiler.Proofs.Phrase.Shape
import JackCompiler.Proofs.Spacing

namespace JackCompiler

/-- After some tokens, a source text has a string with the given characters. -/
structure StringAfter (source : List Char) (row : List Written) (body : List Char) : Prop where
  inner : ∀ c ∈ body, c ≠ '"' ∧ c ≠ '\n'
  stands : ∃ lead rest, lead ++ (textOf row ++ '"' :: (body ++ '"' :: rest)) = source ∧
    Layout.Sound ⟨lead, row, '"' :: (body ++ '"' :: rest)⟩ 1

section Source

variable {line : Nat} {lead rest body source : List Char} {row : List Written}

theorem itemsFrom_layout_rest (sound : Layout.Sound ⟨lead, row, rest⟩ line) (done : List Item) :
    itemsFrom line done (lead ++ (textOf row ++ rest)) =
      itemsFrom (line + (lead ++ textOf row).count '\n')
        ((row.map fun written => .ok written.token).reverse ++ done) rest := by
  induction row generalizing lead line done with
  | nil =>
    rw [Layout.sound_nil] at sound
    have none : textOf [] = [] := rfl
    rw [none, List.nil_append, itemsFrom_gap sound, List.append_nil]
    rfl
  | cons written row ih =>
    obtain ⟨gap, stands, later⟩ := Layout.sound_cons.mp sound
    have sameLine := stands.printable.sameLine
    rw [sameLine, Nat.add_zero] at later
    rw [textOf_cons, List.append_assoc, List.append_assoc, itemsFrom_gap gap, stands.itemsFrom,
      ih later]
    simp [List.count_append, sameLine, Nat.add_assoc]

theorem itemsFrom_quote (inner : ∀ c ∈ body, c ≠ '"' ∧ c ≠ '\n') (line : Nat) (done : List Item) :
    itemsFrom line done ('"' :: (body ++ '"' :: rest)) =
      itemsFrom line (.ok (.quote line body) :: done) rest := by
  have read := @itemsFrom_printable done (.quote line body) rest (Token.quote_printable line inner)
    nofun fun slash => by simpa [Token.quote] using congrArg String.toList slash
  simpa [Token.quote] using read

theorem StringAfter.items (after : StringAfter source row body) :
    ∃ line more, JackCompiler.items source =
      row.map (fun written => .ok written.token) ++ .ok (.quote line body) :: more := by
  obtain ⟨lead, rest, rfl, sound⟩ := after.stands
  let line := 1 + (lead ++ textOf row).count '\n'
  obtain ⟨later, close, -, -, -, same⟩ := itemsFrom_layout line
    (.ok (.quote line body) :: (row.map fun written => .ok written.token).reverse) rest
  refine ⟨line, later.row.map (fun written => .ok written.token) ++ [close], ?_⟩
  rw [JackCompiler.items, itemsFrom_layout_rest sound, itemsFrom_quote after.inner,
    List.append_nil, same, List.reverse_cons, List.reverse_reverse, List.append_assoc]
  rfl

theorem StringAfter.printable (after : StringAfter source row body) :
    ∀ written ∈ row, written.token.Printable := by
  obtain ⟨_, _, _, sound⟩ := after.stands
  exact sound.printable

theorem StringAfter.token {entry : EntryPoint} {phrase : Phrase}
    (after : StringAfter source row body)
    (read : parse entry (JackCompiler.items source) = .ok phrase) :
    ∃ line, phrase.tokens[row.length]? = some (.quote line body) := by
  obtain ⟨close, rest, taken, ends, -⟩ := parse_reads read
  obtain ⟨line, more, items⟩ := after.items
  refine ⟨line, ?_⟩
  rw [items, List.append_eq_append_iff] at taken
  -- The end of file is neither the string nor one of the tokens before it.
  rcases taken with ⟨between, tokens, later⟩ | ⟨between, tokens, later⟩
  · cases between with
    | nil =>
      cases later
      cases ends
    | cons item between =>
      cases later
      have found := congrArg (·[row.length]?) tokens
      simpa [List.getElem?_append_right] using found
  · cases between with
    | nil =>
      cases later
      cases ends
    | cons item between =>
      cases later
      have member : Except.ok close ∈ row.map fun written => (.ok written.token : Item) := by
        simp [tokens]
      obtain ⟨written, inside, same⟩ := List.mem_map.mp member
      cases same
      exact absurd ends (after.printable written inside).2.1

end Source

/-- The term that stands for the string with an index among the tokens of a tree. -/
structure StringNode (tree : Tree) (index : Nat) (token : Token) (node : Tree) : Prop where
  part : Part node tree
  leaf : ∃ leaf, node.children = [leaf] ∧ tree.carriers[index]? = some leaf
  text : node.text? = some token

section Nodes

variable {entry : EntryPoint} {tree node leaf : Tree} {token : Token}

theorem Part.eq_or_child (part : Part node tree) :
    node = tree ∨ ∃ parent, Part parent tree ∧ node ∈ parent.children := by
  induction part with
  | self => exact .inl rfl
  | @inside _ tree member _ ih =>
    rcases ih with rfl | ⟨parent, part, inside⟩
    · exact .inr ⟨tree, .self _, member⟩
    · exact .inr ⟨parent, .inside member part, inside⟩

def Shape.kinds : Shape → List NodeKind
  | .leaf kind _ => [kind]
  | .node kinds => kinds
  | .nothing => []
  | .sequence first second | .choice first second => first.kinds ++ second.kinds
  | .many shape => shape.kinds

theorem Fits.kind_mem {shape : Shape} {trees : List Tree} (fits : Fits shape trees) :
    ∀ tree ∈ trees, tree.kind ∈ shape.kinds := by
  induction fits with
  | leaf own => simp [Shape.kinds, own]
  | node one => simpa [Shape.kinds] using one
  | nothing | none => simp
  | sequence _ _ first second =>
    intro tree member
    rcases List.mem_append.mp member with member | member
    · exact List.mem_append_left _ (first tree member)
    · exact List.mem_append_right _ (second tree member)
  | first _ ih => exact fun tree member => List.mem_append_left _ (ih tree member)
  | second _ ih => exact fun tree member => List.mem_append_right _ (ih tree member)
  | more _ _ first later =>
    intro tree member
    rcases List.mem_append.mp member with member | member
    · exact first tree member
    · exact later tree member

theorem Tree.Regular.term_of_string (regular : node.Regular entry) (member : leaf ∈ node.children)
    (kind : leaf.kind = .stringConstant) : node.kind = .term ∧ node.children = [leaf] := by
  have only : ∀ kind, .stringConstant ∈ (Shape.ofKind entry kind).kinds → kind = .term := by
    intro kind
    cases kind <;> cases entry <;> decide
  have term : node.kind = .term :=
    only _ (kind ▸ regular.children.kind_mem leaf member)
  have fits := regular.children
  rw [term] at fits
  refine ⟨term, ?_⟩
  cases fits with
  | first here =>
    generalize node.children = children at here member
    cases here
    rw [List.mem_singleton.mp member]
  | second here =>
    have absent := here.kind_mem leaf member
    rw [kind] at absent
    exact absurd absent (by decide)

theorem Tree.Regular.kind_of_string (regular : leaf.Regular entry)
    (carried : leaf.token? = some token) (kind : token.kind = .stringConstant) :
    leaf.kind = .stringConstant ∧ leaf.children = [] := by
  have some : leaf.kind.test?.isSome = true := by rw [← regular.token, carried]; rfl
  obtain ⟨test, tested⟩ := Option.isSome_iff_exists.mp some
  have passes := regular.passes test tested token carried
  have own : leaf.kind = .stringConstant := by
    generalize leaf.kind = other at tested
    cases other <;> cases tested <;>
      first | rfl | simp [Token.isMemberName, Token.isSymbolOf, kind] at passes
  have fits := regular.children
  rw [own] at fits
  refine ⟨own, ?_⟩
  generalize leaf.children = children at fits
  cases fits
  rfl

theorem stringNode_of_carrier {index : Nat} (start : tree.kind = .start)
    (regular : ∀ node, Part node tree → node.Regular entry)
    (carrier : tree.carriers[index]? = some leaf) (carried : leaf.token? = some token)
    (kind : token.kind = .stringConstant) : ∃ node, StringNode tree index token node := by
  have part := (Tree.mem_carriers.mp (List.mem_of_getElem? carrier)).1
  obtain ⟨own, -⟩ := (regular leaf part).kind_of_string carried kind
  rcases part.eq_or_child with rfl | ⟨node, inside, member⟩
  · cases start.symm.trans own
  · obtain ⟨term, only⟩ := (regular node inside).term_of_string member own
    refine ⟨node, inside, ⟨leaf, only, carrier⟩, ?_⟩
    obtain ⟨number, _, token?, _⟩ := node
    obtain ⟨place, _, _, children⟩ := leaf
    cases term
    cases own
    cases only
    cases carried
    rfl

end Nodes

def Token.isText (token : Token) : Bool := token.kind == .stringConstant

def Occurrence.text? : Occurrence → Option Token
  | .text literal => some literal
  | _ => none

section Occurrences

@[simp]
private theorem isText_word {values : List String} (word : Word values) :
    word.val.isText = false := by
  have passes := word.property
  cases kind : word.val.kind <;> simp [Token.isOneOf, Token.isText, kind] at passes ⊢

@[simp]
private theorem isText_symbolWord {values : List String} (word : SymbolWord values) :
    word.val.isText = false := by
  have passes := word.property
  cases kind : word.val.kind <;> simp [Token.isSymbolOf, Token.isText, kind] at passes ⊢

@[simp]
private theorem isText_name (name : Name) : name.val.isText = false := by
  have passes := name.property
  cases kind : name.val.kind <;> simp [Token.isName, Token.isText, kind] at passes ⊢

@[simp]
private theorem isText_memberName (name : MemberName) : name.val.isText = false := by
  have passes := name.property
  cases kind : name.val.kind <;> simp [Token.isMemberName, Token.isText, kind] at passes ⊢

/-- The strings among some tokens are those that occur, in their order. -/
private def Tells (tokens : List Token) (occurrences : List Occurrence) : Prop :=
  occurrences.filterMap Occurrence.text? = tokens.filter Token.isText

private theorem tells_moreArguments {more : List (Comma × Expression)}
    (each : ∀ pair ∈ more, Tells pair.2.tokens pair.2.occurrences) :
    Tells (moreArgumentTokens more) (moreArgumentOccurrences more) := by
  induction more with
  | nil => rfl
  | cons pair more ih =>
    have one := each pair (.head _)
    have rest := ih fun pair member => each pair (.tail _ member)
    unfold Tells at one rest ⊢
    simp [moreArgumentTokens, moreArgumentOccurrences, one, rest]

private theorem tells_expressions :
    (∀ e : Expression, Tells e.tokens e.occurrences) ∧
    (∀ t : Term, Tells t.tokens t.occurrences) ∧
    (∀ c : Call, Tells c.tokens c.occurrences) ∧
    (∀ a : Arguments, Tells a.tokens a.occurrences) := by
  apply Expression.induction
  case literal =>
    intro value
    rw [Tells, Term.tokens, Term.occurrences, literalOccurrences, List.filter_singleton,
      Token.isText]
    cases value.val.kind <;> rfl
  case listed =>
    intro first more one each
    have rest := tells_moreArguments each
    unfold Tells at one rest ⊢
    simp [Arguments.tokens, Arguments.occurrences, one, rest]
  all_goals
    intros
    simp_all [Tells, Expression.tokens, Expression.occurrences, Term.tokens, Term.occurrences,
      Call.tokens, Call.occurrences, Arguments.tokens, Arguments.occurrences, Occurrence.text?]

private theorem tells_statementList {statements : List Statement}
    (each : ∀ s ∈ statements, Tells s.tokens s.occurrences) :
    Tells (statementTokens statements) (statementOccurrences statements) := by
  induction statements with
  | nil => rfl
  | cons s statements ih =>
    have one := each s (.head _)
    have rest := ih fun s member => each s (.tail _ member)
    unfold Tells at one rest ⊢
    simp [statementTokens, statementOccurrences, one, rest]

private theorem tells_statements_blocks :
    (∀ s : Statement, Tells s.tokens s.occurrences) ∧
    (∀ b : Block, Tells b.tokens b.occurrences) := by
  have inner := tells_expressions.1
  have calls := tells_expressions.2.2.1
  apply Statement.induction
  case braced =>
    intro opening statements closing each
    have rest := tells_statementList each
    unfold Tells at rest ⊢
    simp [Block.tokens, Block.occurrences, rest]
  all_goals
    intros
    simp_all [Tells, Statement.tokens, Statement.occurrences, Occurrence.text?]

private theorem filter_commaTokens {α : Type} {tokens : α → List Token}
    (none : ∀ x, (tokens x).filter Token.isText = []) (more : List (Comma × α)) :
    (commaTokens tokens more).filter Token.isText = [] := by
  simp [commaTokens, List.filter_flatMap, none]

private theorem filter_typeName (type : TypeName) : type.tokens.filter Token.isText = [] := by
  cases type <;> simp [TypeName.tokens]

private theorem filter_nameList (names : NameList) : names.tokens.filter Token.isText = [] := by
  have each (name : Name) : (nameTokens name).filter Token.isText = [] := by simp [nameTokens]
  simp [NameList.tokens, filter_commaTokens each]

private theorem filter_parameters (parameters : Parameters) :
    parameters.tokens.filter Token.isText = [] := by
  have each (parameter : Parameter) : parameter.tokens.filter Token.isText = [] := by
    simp [Parameter.tokens, filter_typeName]
  cases parameters <;> simp [Parameters.tokens, each, filter_commaTokens each]

private theorem tells_subroutine (s : SubroutineDeclaration) : Tells s.tokens s.occurrences := by
  have locals : (s.body.locals.flatMap LocalVariables.tokens).filter Token.isText = [] := by
    simp [List.filter_flatMap, LocalVariables.tokens, filter_typeName, filter_nameList]
  have type : s.returnType.tokens.filter Token.isText = [] := by
    cases s.returnType <;> simp [ReturnType.tokens, filter_typeName]
  have body : Tells (statementTokens s.body.statements) s.occurrences :=
    tells_statementList fun statement _ => tells_statements_blocks.1 statement
  unfold Tells at body ⊢
  simp [SubroutineDeclaration.tokens, SubroutineBody.tokens, type, filter_parameters, locals, body]

theorem ClassDeclaration.texts_occur (declaration : ClassDeclaration) :
    declaration.subroutines.flatMap (·.occurrences.filterMap Occurrence.text?) =
      declaration.tokens.filter Token.isText := by
  have declared : (declaration.declarations.flatMap ClassVariables.tokens).filter
      Token.isText = [] := by
    simp [List.filter_flatMap, ClassVariables.tokens, filter_typeName, filter_nameList]
  have subroutines :
      (declaration.subroutines.flatMap SubroutineDeclaration.tokens).filter Token.isText =
        declaration.subroutines.flatMap (·.occurrences.filterMap Occurrence.text?) := by
    rw [List.filter_flatMap]
    exact List.flatMap_congr fun s _ => (tells_subroutine s).symm
  simp [ClassDeclaration.tokens, declared, subroutines]

end Occurrences

end JackCompiler
