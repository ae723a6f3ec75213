import JackCompiler.Proofs.Operands.Cells
import JackCompiler.Proofs.Printing

namespace JackCompiler

open Lowering

def Tree.text? : Tree → Option Token
  | .node _ .term _ [.node _ .stringConstant (some token) _] => some token
  | _ => none

/-- The code of a call: at most one receiver, the arguments, and how many values these are. -/
def CallCode (setting : Setting) (there : Scope) (keep : Nat → Nat) (node : Tree)
    (fragment : Code) : Prop :=
  ∃ list ∈ node.children, list.kind = .expressionList ∧
    ∃ (receiver arguments : Code) (name : String) (count : UInt16),
      fragment = receiver ++ arguments ++ [.call name count] ∧
      (receiver = [] ∨ ∃ segment index, receiver = [.push segment index]) ∧
      visit setting list there = .ok (arguments, there) ∧
      count.toNat = keep (list.children.countP (·.kind == .expression) + receiver.length)

/-- The code of a string: its length, and then its characters. -/
def TextCode (keep : Nat → Nat) (text : List Char) (fragment : Code) : Prop :=
  ∃ length : UInt16, length.toNat = keep text.length ∧
    fragment = .push .constant length :: .call "String.new" 1 :: text.flatMap characterCode

/-- An instruction shows what `keep` leaves of a number. -/
structure ClassDeclaration.Counted (declaration : ClassDeclaration) (comments : Bool) (code : Code)
    (keep : Nat → Nat) : Prop extends declaration.Addressed comments code keep where
  calls : ∀ node, Part node (Phrase.classDeclaration declaration).toTree →
    node.kind = .subroutineCall → declaration.Shows comments code node fun _ there fragment =>
      CallCode (declaration.setting comments) there keep node fragment
  texts : ∀ node token, Part node (Phrase.classDeclaration declaration).toTree →
    node.text? = some token → declaration.Shows comments code node fun _ _ fragment =>
      TextCode keep token.unquoted.toList fragment
  apart : ∀ s ∈ declaration.subroutines, ∀ x y first second, x ≠ y →
    declaration.cell? s x = some first → declaration.cell? s y = some second → first ≠ second

section Counts

variable {declaration : ClassDeclaration} {comments : Bool} {s : SubroutineDeclaration}
  {number : Nat} {piece : Piece}

@[simp]
theorem Arguments.toTree_kind (a : Arguments) (number : Nat) :
    (a.toTree number).1.kind = .expressionList := by
  cases a <;> simp [Arguments.toTree]

theorem Arguments.countP_expressions (a : Arguments) (number : Nat) :
    (a.toTree number).1.children.countP (·.kind == .expression) = a.count := by
  cases a with
  | empty =>
    rw [Arguments.toTree]
    rfl
  | listed first more =>
    have later (number : Nat) :
        (moreArgumentTrees more [] number).1.countP (·.kind == .expression) = more.length := by
      induction more generalizing number with
      | nil => simp [moreArgumentTrees]
      | cons pair more ih =>
        obtain ⟨comma, argument⟩ := pair
        simp [moreArgumentTrees_cons, ih]
    rw [Arguments.toTree_listed, Tree.children_node, List.countP_cons, later]
    simp [Arguments.count]

theorem callCode_of {node : Tree} {arguments : Arguments} {place : Nat} {name : String}
    {count : UInt16} (receiver : Code) (formed : ∀ t ∈ arguments.tokens, t.WellFormed)
    (clear : (declaration.context comments s).faults arguments.occurrences = [])
    (member : (arguments.toTree place).1 ∈ node.children)
    (short : receiver = [] ∨ ∃ segment index, receiver = [.push segment index])
    (total : count.toNat = (arguments.count + receiver.length) % 65536) :
    CallCode (declaration.setting comments) (declaration.context comments s).scope (· % 65536) node
      (receiver ++ arguments.code (declaration.context comments s) ++ [.call name count]) := by
  have visited := visit_arguments (agrees_unit declaration comments s) formed place
  rw [clear] at visited
  refine ⟨_, member, arguments.toTree_kind place, receiver, _, name, count, rfl, short, visited, ?_⟩
  rw [arguments.countP_expressions]
  exact total

private theorem toNat_succ (n : Nat) : (UInt16.ofNat n + 1).toNat = (n + 1) % 65536 := by
  rw [UInt16.toNat_add, UInt16.toNat_ofNat']
  exact Nat.mod_add_mod n _ 1

theorem ClassDeclaration.Placed.callCode {c : Call}
    (placed : declaration.Placed comments s (.call c) number) :
    CallCode (declaration.setting comments) (declaration.context comments s).scope (· % 65536)
      ((Piece.call c).tree number)
      ((Piece.call c).extent (declaration.context comments s) number).code := by
  have formed := placed.formed
  have clear := placed.faultless
  cases c with
  | bare name opening arguments closing =>
    simp only [Piece.extent, Call.extent, Call.tokens, List.forall_mem_cons,
      List.forall_mem_append] at formed
    simp only [Piece.extent, Call.extent, Call.occurrences, Context.faults_append,
      List.append_eq_nil_iff] at clear
    have member : (arguments.toTree (number + 3)).1 ∈
        ((Piece.call (.bare name opening arguments closing)).tree number).children := by
      simp [Piece.tree, Call.toTree]
    change CallCode _ _ _ _ (Call.code _ _)
    rw [Call.code]
    exact callCode_of [.push .pointer 0] formed.2.2.1 clear.1 member
      (.inr ⟨_, _, rfl⟩) (toNat_succ _)
  | qualified qualifier dot name opening arguments closing =>
    simp only [Piece.extent, Call.extent, Call.tokens, List.forall_mem_cons,
      List.forall_mem_append] at formed
    simp only [Piece.extent, Call.extent, Call.occurrences, Context.faults_append,
      List.append_eq_nil_iff] at clear
    have member : (arguments.toTree (number + 5)).1 ∈
        ((Piece.call (.qualified qualifier dot name opening arguments closing)).tree
          number).children := by
      simp [Piece.tree, Call.toTree]
    change CallCode _ _ _ _ (Call.code _ _)
    rw [Call.code]
    split
    · exact callCode_of [_] formed.2.2.2.2.1 clear.1 member
        (.inr ⟨_, _, rfl⟩) (toNat_succ _)
    · split
      · exact callCode_of [_] formed.2.2.2.2.1 clear.1 member
          (.inr ⟨_, _, rfl⟩) (toNat_succ _)
      · exact callCode_of [] formed.2.2.2.2.1 clear.1 member (.inl rfl)
          UInt16.toNat_ofNat'

def Piece.text? : Piece → Option Token
  | .term (.literal value) => if value.val.kind = .stringConstant then some value.val else none
  | _ => none

theorem Piece.tree_text? (piece : Piece) (number : Nat) :
    (piece.tree number).text? = piece.text? := by
  cases piece with
  | expression e =>
    rw [tree, Expression.toTree]
    rfl
  | statements list => rfl
  | term t =>
    rw [tree]
    cases t with
    | literal value =>
      obtain ⟨⟨line, kind, text⟩, literal⟩ := value
      rw [Term.toTree]
      cases kind <;> rfl
    | call c =>
      rw [Term.toTree]
      cases c <;>
      · rw [Call.toTree]
        rfl
    | group opening inner closing => simp [Term.toTree, Tree.text?, text?]
    | _ =>
      rw [Term.toTree]
      rfl
  | call c =>
    rw [tree]
    cases c <;>
    · rw [Call.toTree]
      rfl
  | statement s =>
    rw [tree]
    cases s <;>
    · rw [Statement.toTree]
      rfl

theorem Piece.text_code {token : Token} {context : Context} (found : piece.text? = some token) :
    (piece.extent context number).code = textCode token.unquoted.toList := by
  unfold Piece.text? at found
  split at found
  case h_1 value =>
    obtain ⟨kind, same⟩ := Option.ite_none_right_eq_some.mp found
    cases same
    change Term.code context (.literal value) = _
    rw [Term.code, literalCode, kind]
  case h_2 => cases found

theorem isPiece_of_text? {node : Tree} {token : Token} (found : node.text? = some token) :
    isPiece node.kind = true := by
  unfold Tree.text? at found
  split at found
  case h_1 => rfl
  case h_2 => cases found

theorem Piece.call_of_kind (kind : (piece.tree number).kind = .subroutineCall) :
    ∃ c, piece = .call c := by
  rw [Piece.tree_kind] at kind
  cases piece with
  | call c => exact ⟨c, rfl⟩
  | statement s => cases s <;> cases kind
  | _ => cases kind

def ClassDeclaration.name? (declaration : ClassDeclaration) (s : SubroutineDeclaration)
    (cell : Cell) : Option String :=
  match cell.segment with
  | .argument => s.parameterNames[if s.kind = .method then cell.index - 1 else cell.index]?
  | .localVariable => s.localNames[cell.index]?
  | .this => (declaration.namesOfKind .field)[cell.index]?
  | .static => (declaration.namesOfKind .static)[cell.index]?
  | _ => none

theorem ClassDeclaration.name?_of_cell? {name : String} {cell : Cell}
    (found : declaration.cell? s name = some cell) : declaration.name? s cell = some name := by
  have back {names : List String} {i : Nat} (there : names.idxOf? name = some i) :
      names[i]? = some name := by
    obtain ⟨inside, same, -⟩ := List.idxOf?_eq_some_iff.mp there
    rw [List.getElem?_eq_getElem inside, same]
  rw [cell?, Option.or_eq_some_iff, Option.or_eq_some_iff, Option.or_eq_some_iff] at found
  simp only [Option.map_eq_some_iff] at found
  rcases found with (⟨i, there, rfl⟩ | ⟨-, i, there, rfl⟩) | ⟨-, ⟨i, there, rfl⟩ | ⟨-, i, there, rfl⟩⟩
  · have shift : (if s.kind = .method then (if s.kind = .method then i + 1 else i) - 1
        else if s.kind = .method then i + 1 else i) = i := by
      split <;> simp
    rw [name?, shift]
    exact back there
  · exact back there
  · exact back there
  · exact back there

end Counts

section Units

variable {source : String} {declaration : ClassDeclaration} {code : Code} {comments : Bool}

/-- The numbers in the code of a compiled unit are right up to multiples of 65536. -/
theorem counts_kept
    (read : parse .classDeclaration (items source.toList) = .ok (.classDeclaration declaration))
    (compiles : compile comments source = .ok code) :
    declaration.Counted comments code (· % 65536) := by
  obtain ⟨formed, faultless, rfl⟩ := unit_compiled read compiles
  refine ⟨addressed_of_faultless _ formed faultless, ?_, ?_, ?_⟩
  · intro node part kind
    refine shows_of_placed formed faultless part (by rw [kind]; rfl) ?_
    rintro s piece number rfl placed
    obtain ⟨c, rfl⟩ := piece.call_of_kind kind
    exact placed.callCode
  · intro node token part text
    refine shows_of_placed formed faultless part (isPiece_of_text? text) ?_
    rintro s piece number rfl placed
    rw [piece.tree_text?] at text
    exact ⟨_, UInt16.toNat_ofNat', piece.text_code text⟩
  · -- A cell holds one variable, whose name can be read back from it.
    rintro s - x y first second differ own other rfl
    have same := (declaration.name?_of_cell? own).symm.trans (declaration.name?_of_cell? other)
    exact differ (Option.some.inj same)

end Units

private def longToken (n : Nat) : Token := .quote 1 (List.replicate n 'a')

private def longCall (n : Nat) : Call :=
  .bare ⟨⟨1, .identifier, "g"⟩, Eq.refl true⟩ ⟨⟨1, .symbol, "("⟩, Eq.refl true⟩
    (.listed (.term (.literal ⟨longToken n, rfl⟩)) []) ⟨⟨1, .symbol, ")"⟩, Eq.refl true⟩

private def longBody (n : Nat) : List Statement :=
  [.perform ⟨⟨1, .keyword, "do"⟩, Eq.refl true⟩ (longCall n) ⟨⟨1, .symbol, ";"⟩, Eq.refl true⟩,
    .returnNothing ⟨⟨1, .keyword, "return"⟩, Eq.refl true⟩ ⟨⟨1, .symbol, ";"⟩, Eq.refl true⟩]

private def longSubroutine (n : Nat) : SubroutineDeclaration where
  keyword := ⟨⟨1, .keyword, "function"⟩, Eq.refl true⟩
  returnType := .void ⟨⟨1, .keyword, "void"⟩, Eq.refl true⟩
  name := ⟨⟨1, .identifier, "f"⟩, Eq.refl true⟩
  opening := ⟨⟨1, .symbol, "("⟩, Eq.refl true⟩
  parameters := .empty
  closing := ⟨⟨1, .symbol, ")"⟩, Eq.refl true⟩
  body := ⟨⟨⟨1, .symbol, "\x7b"⟩, Eq.refl true⟩, [], longBody n,
    ⟨⟨1, .symbol, "\x7d"⟩, Eq.refl true⟩⟩

private def longUnit (n : Nat) : ClassDeclaration where
  keyword := ⟨⟨1, .keyword, "class"⟩, Eq.refl true⟩
  name := ⟨⟨1, .identifier, "A"⟩, Eq.refl true⟩
  opening := ⟨⟨1, .symbol, "\x7b"⟩, Eq.refl true⟩
  declarations := []
  subroutines := [longSubroutine n]
  closing := ⟨⟨1, .symbol, "\x7d"⟩, Eq.refl true⟩

private def longText (n : Nat) : String := String.ofList (spaced (longUnit n).tokens)

private theorem longUnit_printable (n : Nat) :
    ∀ t ∈ (longUnit n).tokens, t.Printable ∧ t.line = 1 := by
  have same : (longUnit n).tokens =
      (longUnit 0).tokens.take 12 ++ longToken n :: (longUnit 0).tokens.drop 13 := rfl
  have words : ∀ t ∈ (longUnit 0).tokens.take 12 ++ (longUnit 0).tokens.drop 13,
      t.WellFormed ∧ t.kind ≠ .eof ∧ t.kind ≠ .stringConstant ∧ t.line = 1 := by decide
  have inner : ∀ c ∈ List.replicate n 'a', c ≠ '"' ∧ c ≠ '\n' := by
    intro c member
    rw [List.eq_of_mem_replicate member]
    decide
  intro t member
  rw [same, List.mem_append, List.mem_cons] at member
  rcases member with member | rfl | member
  · obtain ⟨formed, inside, bare, line⟩ := words t (List.mem_append_left _ member)
    exact ⟨formed.printable inside bare, line⟩
  · exact ⟨Token.quote_printable 1 inner, rfl⟩
  · obtain ⟨formed, inside, bare, line⟩ := words t (List.mem_append_right _ member)
    exact ⟨formed.printable inside bare, line⟩

private theorem longUnit_read (n : Nat) :
    parse .classDeclaration (items (longText n).toList) = .ok (.classDeclaration (longUnit n)) := by
  have shallow : (Phrase.classDeclaration (longUnit 0)).nesting ≤ maxNesting := by decide
  have read : parse (Phrase.classDeclaration (longUnit n)).entry _ = _ :=
    parse_spaced (longUnit_printable n) shallow
  rw [longText, String.toList_ofList]
  exact read

private theorem longToken_unquoted (n : Nat) :
    (longToken n).unquoted.toList = List.replicate n 'a' := by
  simp [longToken]

private theorem longUnit_faultless (n : Nat) : (longUnit n).faults = [] := by
  have small : (List.replicate n 'a').find? (fun c => decide (65536 ≤ c.toNat)) = none := by
    rw [List.find?_eq_none]
    intro c member
    rw [List.eq_of_mem_replicate member]
    decide
  have fault :
      ((longUnit n).context false (longSubroutine n)).fault? (.text (longToken n)) = none := by
    rw [Context.fault?, longToken_unquoted, small]
    rfl
  have occurs : (longSubroutine n).occurrences =
      [.text (longToken n), .call 1, .leave false] := rfl
  have own : (longUnit n).subroutineFaults (longSubroutine n) = [] := by
    rw [ClassDeclaration.subroutineFaults, occurs, Context.faults, List.filterMap_cons, fault]
    rfl
  rw [ClassDeclaration.faults, longUnit, List.flatMap_singleton]
  exact own

private theorem longUnit_compiles (n : Nat) :
    compile false (longText n) = .ok ((longUnit n).code false) := by
  obtain ⟨other, same, -, result⟩ := compile_unit false (longUnit_read n)
  cases same
  rw [result, longUnit_faultless]
  rfl

private def longTerm (n : Nat) : Tree :=
  .node 22 .term none [.node 23 .stringConstant (some (longToken n)) []]

private theorem longTerm_part (n : Nat) :
    Part (longTerm n) (Phrase.classDeclaration (longUnit n)).toTree := by
  refine .inside (.head _) (.inside (.tail _ (.tail _ (.tail _ (.head _)))) ?_)
  refine .inside (.tail _ (.tail _ (.tail _ (.tail _ (.tail _ (.tail _ (.head _))))))) ?_
  refine .inside (.tail _ (.head _)) (.inside (.head _) (.inside (.tail _ (.head _)) ?_))
  have call : ((longCall n).toTree 17).1.children[2]? = some
      (.node 20 .expressionList none [.node 21 .expression none [longTerm n]]) := by
    simp [longCall, Call.toTree, Arguments.toTree, moreArgumentTrees, Expression.toTree,
      Expression.operandTree, Term.toTree]
    rfl
  exact .inside (List.mem_of_getElem? call) (.inside (.head _) (.inside (.head _) (.self _)))

theorem counts_lost :
    ∃ declaration, parse .classDeclaration (items (longText 65536).toList) =
        .ok (.classDeclaration declaration) ∧
      compile false (longText 65536) = .ok (declaration.code false) ∧
      ¬ declaration.Counted false (declaration.code false) id := by
  refine ⟨_, longUnit_read _, longUnit_compiles _, fun counted => ?_⟩
  obtain ⟨⟨there, visits⟩, all⟩ := counted.texts _ (longToken 65536) (longTerm_part _) rfl
  obtain ⟨s, fragment, -, length, number, -⟩ := all there visits
  have small := length.toNat_lt
  rw [number, longToken_unquoted, List.length_replicate] at small
  exact absurd small (by decide)

theorem counts_kept_short : (longUnit 3).Counted false ((longUnit 3).code false) (· % 65536) :=
  counts_kept (longUnit_read 3) (longUnit_compiles 3)

end JackCompiler
