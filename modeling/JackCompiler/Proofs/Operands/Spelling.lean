import JackCompiler.Proofs.Operands.Strings

/-!
# Code of strings

The code of a string spells it out, one character after the other, and nothing else. A character
that does not fit into sixteen bits has no code, and stops the generator at the first string that
has such a one. Main statement: `strings_survive`.
-/

namespace JackCompiler

open Lowering

/-! ## Characters without code -/

def unsupported? (body : List Char) : Option Char := body.find? fun c => 65536 ≤ c.toNat

/-- The first character without code in the first string of a class that has such a one. -/
def ClassDeclaration.unsupported? (declaration : ClassDeclaration) : Option Char :=
  (declaration.tokens.filter Token.isText).findSome? (JackCompiler.unsupported? ·.unquoted.toList)

def CompileError.character? : CompileError → Option Char
  | .invariant (.unsupportedCharacter c) => some c
  | _ => none

section Characters

private theorem fault?_character (context : Context) (o : Occurrence) :
    (context.fault? o).bind CompileError.character? =
      o.text?.bind (JackCompiler.unsupported? ·.unquoted.toList) := by
  cases o with
  | «variable» name =>
    simp only [Context.fault?]
    split <;> rfl
  | text literal =>
    rw [Context.fault?, Option.bind_map]
    exact Option.bind_fun_some _
  | call arguments => rfl
  | leave hasValue =>
    simp only [Context.fault?]
    split <;> rfl

theorem ClassDeclaration.faults_characters (declaration : ClassDeclaration) :
    declaration.faults.filterMap CompileError.character? =
      (declaration.tokens.filter Token.isText).filterMap
        (JackCompiler.unsupported? ·.unquoted.toList) := by
  -- The faults that characters are to blame for name the characters without code, in order.
  have plain (declared : List Declared) :
      (SymbolTable.empty.duplicates declared).filterMap CompileError.character? = [] := by
    rw [List.filterMap_eq_nil_iff]
    intro e member
    obtain ⟨name, rfl, -⟩ := SymbolTable.mem_duplicates_empty member
    rfl
  rw [← declaration.texts_occur, faults, List.filterMap_append, plain, List.nil_append,
    List.filterMap_flatMap, List.filterMap_flatMap]
  refine List.flatMap_congr fun s _ => ?_
  rw [subroutineFaults, List.filterMap_append, plain, List.nil_append, Context.faults,
    List.filterMap_filterMap, List.filterMap_filterMap]
  exact List.filterMap_congr fun o _ => fault?_character _ o

end Characters

/-! ## Stops of the generator -/

section Stops

variable {setting : Setting} {trees : List Tree} {node tree : Tree} {scope there : Scope}
  {e : CompileError} {entry : EntryPoint} {token : Token}

theorem Visits.visitAll_error (visits : Visits setting trees scope node there)
    (fails : visit setting node there = .error e) (done : List Code) :
    visitAll setting trees scope done = .error e := by
  -- The generator does not go on after a node without code.
  induction visits generalizing done with
  | here =>
    rw [visitAll, fails]
    rfl
  | @inside tree _ _ _ _ _ enters _ ih =>
    obtain ⟨number, kind, token?, children⟩ := tree
    have inner : visitAll setting children _ [] = .error e := ih fails []
    rw [visitAll, visit, enters]
    change (visitAll setting children _ [] >>= _) >>= _ = _
    rw [inner]
    rfl
  | later visited _ ih =>
    rw [visitAll, visited]
    exact ih fails _

theorem visit_text (regular : ∀ part, Part part node → part.Regular entry)
    (text : node.text? = some token) :
    visit setting node there = inScope there (stringCode token.unquoted.toList) := by
  unfold Tree.text? at text
  split at text
  case h_1 number token? place other children =>
    cases text
    have leaf : Part (.node place .stringConstant (some token) children)
        (.node number .term token? [.node place .stringConstant (some token) children]) :=
      .inside (.head _) (.self _)
    have bare := (regular _ leaf).children
    obtain rfl : children = [] := by
      change Fits .nothing children at bare
      cases bare
      rfl
    rfl
  case h_2 => cases text

end Stops

/-! ## Spelled strings -/

/-- The lines that build a string: one with its length, and two for each character. -/
def spelling (body : List Char) : List String :=
  ("push constant " ++ toString body.length) :: "call String.new 1" ::
    body.flatMap fun c => ["push constant " ++ toString c.toNat, "call String.appendChar 2"]

def appended? : Code → Option (List Char)
  | [] => some []
  | .push .constant point :: .call "String.appendChar" 2 :: code =>
    (appended? code).map (Char.ofNat point.toNat :: ·)
  | _ => none

/-- The string that code builds, if it does nothing else and makes room for just that string. -/
def built? : Code → Option (List Char)
  | .push .constant length :: .call "String.new" 1 :: code =>
    (appended? code).filter (·.length == length.toNat)
  | _ => none

section Spelled

variable {body : List Char} {fragment : Code}

private theorem point_toNat {c : Char} (small : c.toNat ≤ 0xFFFF) :
    (UInt16.ofNat c.toNat).toNat = c.toNat := by
  rw [UInt16.toNat_ofNat', Nat.mod_eq_of_lt (by omega)]

private theorem push_text (index : UInt16) :
    (Instruction.push .constant index).text = "push constant " ++ toString index.toNat := rfl

theorem TextCode.lines (spelt : TextCode (· % 65536) body fragment) (short : body.length < 65536)
    (small : ∀ c ∈ body, c.toNat ≤ 0xFFFF) : fragment.map Instruction.text = spelling body := by
  obtain ⟨length, number, rfl⟩ := spelt
  have number : length.toNat = body.length := number.trans (Nat.mod_eq_of_lt short)
  have characters : (body.flatMap characterCode).map Instruction.text =
      body.flatMap fun c => ["push constant " ++ toString c.toNat, "call String.appendChar 2"] := by
    rw [List.map_flatMap]
    refine List.flatMap_congr fun c member => ?_
    rw [characterCode, List.map_cons, push_text, point_toNat (small c member)]
    rfl
  rw [List.map_cons, List.map_cons, characters, push_text, number]
  rfl

theorem appended?_characters (small : ∀ c ∈ body, c.toNat ≤ 0xFFFF) :
    appended? (body.flatMap characterCode) = some body := by
  induction body with
  | nil => rfl
  | cons c body ih =>
    rw [List.forall_mem_cons] at small
    rw [List.flatMap_cons, characterCode, List.cons_append, List.cons_append, List.nil_append,
      appended?, ih small.2, point_toNat small.1, Char.ofNat_toNat]
    rfl

theorem TextCode.built? (spelt : TextCode (· % 65536) body fragment) (short : body.length < 65536)
    (small : ∀ c ∈ body, c.toNat ≤ 0xFFFF) : built? fragment = some body := by
  obtain ⟨length, number, rfl⟩ := spelt
  have number : length.toNat = body.length := number.trans (Nat.mod_eq_of_lt short)
  rw [JackCompiler.built?, appended?_characters small]
  simp [number]

end Spelled

/-! ## Classes -/

section Classes

variable {source : String} {declaration : ClassDeclaration} {code : Code} {comments : Bool}
  {row : List Written} {body : List Char}

/-- What a class with a character that has no code is rejected for: that character, the first one,
or something else that is wrong, if it is met before any such character. -/
def ClassDeclaration.RejectedFor (declaration : ClassDeclaration) (comments : Bool) (c : Char)
    (e : CompileError) : Prop :=
  e = .invariant (.unsupportedCharacter c) ∨
    declaration.Fault e ∧ e.character? = none ∧
      ∀ node there token,
        Visits (declaration.setting comments) [(Phrase.classDeclaration declaration).toTree]
          outermost node there →
        node.text? = some token → JackCompiler.unsupported? token.unquoted.toList = none

theorem StringAfter.node {entry : EntryPoint} {phrase : Phrase} {source : List Char}
    (after : StringAfter source row body)
    (read : parse entry (JackCompiler.items source) = .ok phrase) :
    ∃ line node, StringNode phrase.toTree row.length (.quote line body) node := by
  obtain ⟨start, regular⟩ := parse_shaped read
  obtain ⟨line, token⟩ := after.token read
  have carried := congrArg (·[row.length]?) phrase.toTree.map_token?_carriers
  simp only [List.getElem?_map, phrase.toTree_terminals, token, Option.map_some,
    Option.map_eq_some_iff] at carried
  obtain ⟨leaf, carrier, carries⟩ := carried
  exact ⟨line, stringNode_of_carrier start regular carrier carries rfl⟩

theorem fits_of_unsupported? (none : unsupported? body = none) : ∀ c ∈ body, c.toNat ≤ 0xFFFF := by
  intro c member
  have small := List.find?_eq_none.mp none c member
  rw [decide_eq_true_eq] at small
  omega

theorem fits_of_faultless (faultless : declaration.faults = []) {line : Nat}
    (token : .quote line body ∈ declaration.tokens) : ∀ c ∈ body, c.toNat ≤ 0xFFFF := by
  have none := declaration.faults_characters
  rw [faultless] at none
  have own := List.filterMap_eq_nil_iff.mp none.symm (.quote line body)
    (List.mem_filter.mpr ⟨token, rfl⟩)
  rw [Token.unquoted_quote, String.toList_ofList] at own
  exact fits_of_unsupported? own

theorem compile_of_visits {node : Tree} {there : Scope} {token : Token} {c : Char}
    (read : parse .classDeclaration (items source.toList) = .ok (.classDeclaration declaration))
    (visits : Visits (declaration.setting comments) [(Phrase.classDeclaration declaration).toTree]
      outermost node there)
    (text : node.text? = some token) (found : unsupported? token.unquoted.toList = some c) :
    compile comments source = .error (.invariant (.unsupportedCharacter c)) := by
  -- The generator stops at a string with a character that has no code.
  obtain ⟨other, same, formed, result⟩ := compile_unit comments read
  cases same
  obtain ⟨tree, member, part⟩ := visits.part
  obtain rfl := List.mem_singleton.mp member
  have regular := (parse_shaped read).2
  have fails : visit (declaration.setting comments) node there =
      .error (.invariant (.unsupportedCharacter c)) := by
    rw [visit_text (fun inner inside => regular inner (inside.trans part)) text, stringCode]
    rw [unsupported?] at found
    rw [found]
    rfl
  have stops := visits.visitAll_error fails []
  rw [visitAll_cons (visit_unit formed comments) visitAll_nil, List.append_nil] at stops
  rw [settle_eq_error] at stops
  rw [result, settle_eq_error, stops]

theorem rejectedFor_of_unsupported {c : Char}
    (read : parse .classDeclaration (items source.toList) = .ok (.classDeclaration declaration))
    (found : declaration.unsupported? = some c) :
    ∃ e, compile comments source = .error e ∧ declaration.RejectedFor comments c e := by
  obtain ⟨other, same, formed, result⟩ := compile_unit comments read
  cases same
  rw [ClassDeclaration.unsupported?, ← List.head?_filterMap,
    ← declaration.faults_characters] at found
  cases faults : declaration.faults with
  | nil =>
    rw [faults] at found
    cases found
  | cons e faults' =>
    have fails : compile comments source = .error e := by rw [result, faults]; rfl
    refine ⟨e, fails, ?_⟩
    rw [faults, List.filterMap_cons] at found
    cases character : e.character? with
    | some d =>
      rw [character] at found
      cases found
      unfold CompileError.character? at character
      split at character
      case h_1 =>
        cases character
        exact .inl rfl
      case h_2 => cases character
    | none =>
      refine .inr ⟨declaration.fault_of_mem formed (faults ▸ .head _), character, ?_⟩
      intro node there token visits text
      cases unsupported : JackCompiler.unsupported? token.unquoted.toList with
      | none => rfl
      | some d =>
        have stops := compile_of_visits read visits text unsupported
        rw [fails] at stops
        cases stops
        cases character

/-- A string that stands in the text of a class is one token of it, which a term stands for. In a
class that has code, the code of the term spells the string out, and nothing else. A character that
does not fit into sixteen bits gets the class rejected: for the first such character of the first
such string that the generator reaches, or for what is wrong before it. -/
theorem strings_survive (comments : Bool)
    (read : parse .classDeclaration (items source.toList) = .ok (.classDeclaration declaration))
    (after : StringAfter source.toList row body) :
    ∃ token node,
      StringNode (Phrase.classDeclaration declaration).toTree row.length token node ∧
      token.unquoted.toList = body ∧
      (∀ code, compile comments source = .ok code →
        (∀ c ∈ body, c.toNat ≤ 0xFFFF) ∧
        (body.length < 65536 → declaration.Shows comments code node fun _ _ fragment =>
          fragment.map Instruction.text = spelling body ∧ built? fragment = some body)) ∧
      (∀ there c,
        Visits (declaration.setting comments) [(Phrase.classDeclaration declaration).toTree]
          outermost node there →
        unsupported? body = some c →
        compile comments source = .error (.invariant (.unsupportedCharacter c))) ∧
      ((∃ c ∈ body, 0xFFFF < c.toNat) → ∃ c e, declaration.unsupported? = some c ∧
        compile comments source = .error e ∧ declaration.RejectedFor comments c e) := by
  obtain ⟨line, node, stands⟩ := after.node read
  obtain ⟨line', token⟩ := after.token read
  have unquoted (line : Nat) : (Token.quote line body).unquoted.toList = body := by simp
  refine ⟨.quote line body, node, stands, unquoted line, fun code compiles => ?_,
    fun there c visits found => ?_, fun ⟨c, member, large⟩ => ?_⟩
  · obtain ⟨-, faultless, -⟩ := unit_compiled read compiles
    have small := fits_of_faultless faultless (List.mem_of_getElem? token)
    obtain ⟨met, all⟩ := (counts_kept read compiles).texts node _ stands.part stands.text
    refine ⟨small, fun short => ⟨met, fun there visits => ?_⟩⟩
    obtain ⟨s, fragment, emits, spelt⟩ := all there visits
    rw [unquoted] at spelt
    exact ⟨s, fragment, emits, spelt.lines short small, spelt.built? short small⟩
  · exact compile_of_visits read visits stands.text (by rwa [unquoted])
  · have some : (JackCompiler.unsupported? body).isSome = true :=
      List.find?_isSome.mpr ⟨c, member, decide_eq_true (by omega)⟩
    have some : declaration.unsupported?.isSome = true := by
      rw [ClassDeclaration.unsupported?, List.findSome?_isSome_iff]
      refine ⟨.quote line' body, List.mem_filter.mpr ⟨List.mem_of_getElem? token, rfl⟩, ?_⟩
      rwa [unquoted]
    obtain ⟨first, found⟩ := Option.isSome_iff_exists.mp some
    obtain ⟨e, fails, rejected⟩ :
        ∃ e, compile comments source = .error e ∧ declaration.RejectedFor comments first e :=
      rejectedFor_of_unsupported read found
    exact ⟨first, e, found, fails, rejected⟩

end Classes

private theorem sound_spaced {tokens : List Token} {lead rest : List Char}
    (printable : ∀ t ∈ tokens, t.Printable ∧ t.line = 1) (blank : ∀ c ∈ lead, c = ' ') :
    Layout.Sound ⟨lead, tokens.map (⟨·, [' ']⟩), rest⟩ 1 := by
  have spaces (after : List Char) {gap : List Char} (blank : ∀ c ∈ gap, c = ' ') :
      Gap after gap := .of_blanks fun c member => blank c member ▸ by decide
  induction tokens generalizing lead with
  | nil => exact Layout.sound_nil.mpr (spaces _ blank)
  | cons token tokens ih =>
    obtain ⟨own, line⟩ := printable token (.head _)
    have sameLine : lead.count '\n' = 0 := List.count_eq_zero.mpr fun member =>
      absurd (blank _ member) (by decide)
    have apart : Apart (' ' :: (textOf (tokens.map (⟨·, [' ']⟩)) ++ rest)) := by
      intro c same
      cases same
      decide
    refine Layout.sound_cons.mpr ⟨spaces _ blank, ⟨own, by rw [line, sameLine],
      fun _ => apart.maximal, fun _ => apart.division⟩, ?_⟩
    rw [sameLine, own.sameLine]
    exact ih (fun t member => printable t (.tail _ member)) (by simp)

private def noteTokens : List Token :=
  [⟨1, .keyword, "class"⟩, ⟨1, .identifier, "Note"⟩, ⟨1, .symbol, "\x7b"⟩,
    ⟨1, .keyword, "function"⟩, ⟨1, .keyword, "void"⟩, ⟨1, .identifier, "show"⟩, ⟨1, .symbol, "("⟩,
    ⟨1, .symbol, ")"⟩, ⟨1, .symbol, "\x7b"⟩, ⟨1, .keyword, "do"⟩, ⟨1, .identifier, "print"⟩,
    ⟨1, .symbol, "("⟩]

private def noteText : String :=
  "class Note \x7b function void show ( ) \x7b do print ( \"// /*€ let\"); return; \x7d \x7d"

private theorem note_after :
    StringAfter noteText.toList (noteTokens.map (⟨·, [' ']⟩)) "// /*€ let".toList where
  inner := by simp
  stands := by
    have printable : ∀ t ∈ noteTokens, t.Printable ∧ t.line = 1 := by
      have words : ∀ t ∈ noteTokens, t.WellFormed ∧ t.kind ≠ .eof ∧ t.kind ≠ .stringConstant ∧
          t.line = 1 := by decide
      intro t member
      obtain ⟨formed, inside, bare, line⟩ := words t member
      exact ⟨formed.printable inside bare, line⟩
    exact ⟨[], "); return; \x7d \x7d".toList, by decide, sound_spaced printable nofun⟩

theorem strings_survive_note : ∃ declaration code token node there fragment,
    parse .classDeclaration (items noteText.toList) = .ok (.classDeclaration declaration) ∧
      compile false noteText = .ok code ∧
      StringNode (Phrase.classDeclaration declaration).toTree 12 token node ∧
      token.unquoted.toList = "// /*€ let".toList ∧
      visit (declaration.setting false) node there = .ok (fragment, there) ∧
      fragment <:+: code ∧
      fragment.map Instruction.text = ["push constant 10", "call String.new 1",
        "push constant 47", "call String.appendChar 2", "push constant 47",
        "call String.appendChar 2", "push constant 32", "call String.appendChar 2",
        "push constant 47", "call String.appendChar 2", "push constant 42",
        "call String.appendChar 2", "push constant 8364", "call String.appendChar 2",
        "push constant 32", "call String.appendChar 2", "push constant 108",
        "call String.appendChar 2", "push constant 101", "call String.appendChar 2",
        "push constant 116", "call String.appendChar 2"] := by
  have accepted : (faultlessUnit? noteText).isSome = true := by decide +kernel
  obtain ⟨declaration, found⟩ := Option.isSome_iff_exists.mp accepted
  obtain ⟨read, compiles⟩ := compile_of_faultlessUnit? false found
  obtain ⟨token, node, stands, unquoted, accepts, -⟩ := strings_survive false read note_after
  obtain ⟨-, shows⟩ := accepts _ compiles
  obtain ⟨⟨there, visits⟩, all⟩ := shows (by decide)
  obtain ⟨s, fragment, emits, lines, -⟩ := all there visits
  exact ⟨declaration, _, token, node, there, fragment, read, compiles, stands, unquoted,
    emits.visited, emits.inside, lines⟩

end JackCompiler
