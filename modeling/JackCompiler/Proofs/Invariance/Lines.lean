import JackCompiler.Proofs.Invariance.Code
import JackCompiler.Proofs.Spacing

namespace JackCompiler

open Respelling

def CompileError.unlined : CompileError → CompileError := CompileError.relined fun _ => 0

def Item.unlined : Item → Item
  | .ok token => .ok (Respelling.unlined.token token)
  | .error e => .error e.unlined

def Cursor.unlined (cursor : Cursor) : Cursor :=
  ⟨Respelling.unlined.token cursor.token, cursor.rest.map Item.unlined⟩

instance : Lineless Token.startsTerm := ⟨fun _ _ => rfl⟩

instance : Lineless Token.startsType := ⟨fun _ _ => rfl⟩

namespace Parse

variable {α β γ δ : Type}

def unlinedOutcome (f : α → β) : Except CompileError (α × Cursor) → Except CompileError (β × Cursor)
  | .ok (x, after) => .ok (f x, after.unlined)
  | .error e => .error e.unlined

/-- A reader, and one that reads the same phrases without lines where the stream has none. -/
def Natural (f : α → β) (reader : Parse α) (reader' : Parse β) : Prop :=
  ∀ cursor, reader' cursor.unlined = unlinedOutcome f (reader cursor)

namespace Natural

variable {f : α → β} {g : γ → δ} {reader other : Parse α} {reader' other' : Parse β}

theorem pure (x : α) : Natural f (Pure.pure x) (Pure.pure (f x)) := fun _ => rfl

theorem fail (fault : SyntaxFault) : Natural f (Parse.fail fault) (Parse.fail fault) := fun _ => rfl

theorem bind {next : α → Parse γ} {next' : β → Parse δ} (first : Natural f reader reader')
    (second : ∀ x, Natural g (next x) (next' (f x))) :
    Natural g (reader >>= next) (reader' >>= next') := by
  intro cursor
  change (reader' cursor.unlined >>= fun pair => next' pair.1 pair.2) =
    unlinedOutcome g (reader cursor >>= fun pair => next pair.1 pair.2)
  rw [first cursor]
  cases reader cursor with
  | error e => rfl
  | ok pair => exact second pair.1 pair.2

theorem map {make : α → γ} {make' : β → δ} (natural : Natural f reader reader')
    (same : ∀ x, make' (f x) = g (make x)) : Natural g (make <$> reader) (make' <$> reader') := by
  intro cursor
  change (reader' cursor.unlined >>= fun pair => Pure.pure (make' pair.1, pair.2)) =
    unlinedOutcome g (reader cursor >>= fun pair => Pure.pure (make pair.1, pair.2))
  rw [natural cursor]
  cases reader cursor with
  | error e => rfl
  | ok pair => exact congrArg (fun y => Except.ok (y, pair.2.unlined)) (same pair.1)

theorem ite {test : Token → Bool} [Lineless test] {token : Token}
    (yes : Natural f reader reader') (no : Natural f other other') :
    Natural f (if test token then reader else other)
      (if test (Respelling.unlined.token token) then reader' else other') := by
  rw [show test (Respelling.unlined.token token) = test token from Lineless.anyLine _ _]
  split
  · exact yes
  · exact no

theorem current : Natural Respelling.unlined.token Parse.current Parse.current := fun _ => rfl

theorem advance : Natural id Parse.advance Parse.advance := by
  rintro ⟨token, rest⟩
  cases rest with
  | nil => rfl
  | cons item rest => cases item <;> rfl

theorem accept (test : Token → Bool) [Lineless test] :
    Natural (Option.map Respelling.unlined.leaf) (Parse.accept test) (Parse.accept test) := by
  refine current.bind fun token => ?_
  have same : test (Respelling.unlined.token token) = test token := Lineless.anyLine _ _
  by_cases passes : test token = true
  · rw [dif_pos passes, dif_pos (same.trans passes)]
    exact advance.bind fun _ => .pure _
  · rw [dif_neg passes, dif_neg (same ▸ passes)]
    exact .pure _

private theorem required {test : Token → Bool} [Lineless test]
    {next : Option (TokenWith test) → Parse (TokenWith test)}
    (found : ∀ word, next (some word) = Pure.pure word)
    (missing : Natural Respelling.unlined.leaf (next none) (next none)) :
    Natural Respelling.unlined.leaf (Parse.accept test >>= next) (Parse.accept test >>= next) := by
  refine (accept test).bind fun word? => ?_
  cases word? with
  | some word =>
    rw [Option.map_some, found, found]
    exact .pure word
  | none => exact missing

theorem expect (values : List String) :
    Natural Respelling.unlined.leaf (Parse.expect values) (Parse.expect values) :=
  required (fun _ => rfl) (current.bind fun _ => .fail _)

theorem name : Natural Respelling.unlined.leaf Parse.name Parse.name :=
  required (fun _ => rfl) (current.bind fun _ => .fail _)

theorem memberName : Natural Respelling.unlined.leaf Parse.memberName Parse.memberName :=
  required (fun _ => rfl) (current.bind fun _ => .fail _)

theorem rounds {test : Token → Bool} [Lineless test] (phrase : Natural f reader reader')
    (bound : List Item) (done : List α) :
    Natural (List.map f) (Parse.rounds test reader bound done)
      (Parse.rounds test reader' (bound.map Item.unlined) (done.map f)) := by
  induction bound generalizing done with
  | nil =>
    refine current.bind fun token => .ite ?_ ?_
    · refine phrase.bind fun x => ?_
      rw [← List.map_cons, ← List.map_reverse]
      exact .pure _
    · rw [← List.map_reverse]
      exact .pure _
  | cons item bound ih =>
    refine current.bind fun token => .ite ?_ ?_
    · exact phrase.bind fun x => ih (x :: done)
    · rw [← List.map_reverse]
      exact .pure _

theorem repeatWhile {test : Token → Bool} [Lineless test] (phrase : Natural f reader reader') :
    Natural (List.map f) (Parse.repeatWhile test reader) (Parse.repeatWhile test reader') :=
  fun cursor => rounds phrase cursor.rest [] cursor

theorem afterCommas {reader reader' : Parse α} {f : α → α} (phrase : Natural f reader reader') :
    Natural (respellMore Respelling.unlined f) (Parse.afterCommas reader)
      (Parse.afterCommas reader') :=
  .repeatWhile ((expect _).bind fun _ => phrase.bind fun _ => .pure _)

section Expressions

variable {inner : Parse Expression} {operand : Parse Term}

theorem argumentsOf (natural : Natural (Expression.respell .unlined) inner inner) :
    Natural (Arguments.respell .unlined) (Parse.argumentsOf inner) (Parse.argumentsOf inner) := by
  refine current.bind fun token => .ite ?_ (.pure _)
  refine natural.bind fun first => (afterCommas natural).bind fun more => ?_
  rw [← respellArguments_eq]
  exact .pure _

theorem callAfter (natural : Natural (Expression.respell .unlined) inner inner) (name : Name) :
    Natural (Call.respell .unlined) (Parse.callAfter inner name)
      (Parse.callAfter inner (Respelling.unlined.leaf name)) := by
  refine (accept _).bind fun dot? => ?_
  cases dot? with
  | some dot =>
    exact memberName.bind fun member => (expect _).bind fun opening =>
      (argumentsOf natural).bind fun arguments => (expect _).bind fun closing => .pure _
  | none =>
    exact (expect _).bind fun opening => (argumentsOf natural).bind fun arguments =>
      (expect _).bind fun closing => .pure _

theorem termAfter (natural : Natural (Expression.respell .unlined) inner inner) (name : Name) :
    Natural (Term.respell .unlined) (Parse.termAfter inner name)
      (Parse.termAfter inner (Respelling.unlined.leaf name)) := by
  refine current.bind fun token => .ite ?_ ?_
  · exact (callAfter natural name).bind fun call => .pure _
  · refine (accept _).bind fun opening? => ?_
    cases opening? with
    | some opening =>
      exact natural.bind fun index => (expect _).bind fun closing => .pure _
    | none => exact .pure _

theorem termOf (natural : Natural (Expression.respell .unlined) inner inner)
    (rest : Natural (Term.respell .unlined) operand operand) :
    Natural (Term.respell .unlined) (Parse.termOf inner operand) (Parse.termOf inner operand) := by
  refine (accept _).bind fun value? => ?_
  cases value? with
  | some value => exact .pure _
  | none =>
    refine (accept _).bind fun name? => ?_
    cases name? with
    | some name => exact termAfter natural name
    | none =>
      refine (accept _).bind fun opening? => ?_
      cases opening? with
      | some opening =>
        exact natural.bind fun inner => (expect _).bind fun closing => .pure _
      | none =>
        refine (accept _).bind fun operator? => ?_
        cases operator? with
        | some operator => exact rest.bind fun operand => .pure _
        | none => exact current.bind fun token => .fail _

theorem term_operators (room : Nat) :
    Natural (Term.respell .unlined) (Parse.term room) (Parse.term room) ∧
      ∀ left : Expression, Natural (Expression.respell .unlined) (Parse.operators room left)
        (Parse.operators room (left.respell .unlined)) := by
  induction room with
  | zero => exact ⟨.fail _, fun left => current.bind fun token => .ite (.fail _) (.pure left)⟩
  | succ room ih =>
    refine ⟨?_, fun left => current.bind fun token => .ite ?_ (.pure left)⟩
    · rw [Parse.term_succ]
      exact termOf (ih.1.bind fun t => ih.2 (.term t)) ih.1
    · exact (expect _).bind fun operator => ih.1.bind fun right =>
        ih.2 (.binary left operator right)

theorem expression (room : Nat) : Natural (Expression.respell .unlined) (Parse.expression room)
    (Parse.expression room) :=
  (term_operators room).1.bind fun t => (term_operators room).2 (.term t)

end Expressions

section Statements

variable {inner : Parse Expression} {block : Parse Block} {list : Parse (List Statement)}

theorem blockOf (natural : Natural (respellStatements .unlined) list list) :
    Natural (Block.respell .unlined) (Parse.blockOf list) (Parse.blockOf list) :=
  (expect _).bind fun _ => natural.bind fun _ => (expect _).bind fun _ => .pure _

theorem letStatement (natural : Natural (Expression.respell .unlined) inner inner) :
    Natural (Statement.respell .unlined) (Parse.letStatement inner) (Parse.letStatement inner) := by
  refine (expect _).bind fun keyword => name.bind fun target => (accept _).bind fun opening? => ?_
  cases opening? with
  | some opening =>
    exact natural.bind fun index => (expect _).bind fun closing => (expect _).bind fun equals =>
      natural.bind fun value => (expect _).bind fun semicolon => .pure _
  | none =>
    exact (expect _).bind fun equals => natural.bind fun value => (expect _).bind fun semicolon =>
      .pure _

theorem ifStatement (natural : Natural (Expression.respell .unlined) inner inner)
    (blocks : Natural (Block.respell .unlined) block block) :
    Natural (Statement.respell .unlined) (Parse.ifStatement inner block)
      (Parse.ifStatement inner block) := by
  refine (expect _).bind fun keyword => (expect _).bind fun opening => natural.bind fun condition =>
    (expect _).bind fun closing => blocks.bind fun body => (accept _).bind fun otherwise? => ?_
  cases otherwise? with
  | some otherwise =>
    exact blocks.bind fun alternative => .pure _
  | none => exact .pure _

theorem whileStatement (natural : Natural (Expression.respell .unlined) inner inner)
    (blocks : Natural (Block.respell .unlined) block block) :
    Natural (Statement.respell .unlined) (Parse.whileStatement inner block)
      (Parse.whileStatement inner block) :=
  (expect _).bind fun _ => (expect _).bind fun _ => natural.bind fun _ =>
    (expect _).bind fun _ => blocks.bind fun _ => .pure _

theorem doStatement (natural : Natural (Expression.respell .unlined) inner inner) :
    Natural (Statement.respell .unlined) (Parse.doStatement inner) (Parse.doStatement inner) :=
  (expect _).bind fun _ => name.bind fun callee => (callAfter natural callee).bind fun _ =>
    (expect _).bind fun _ => .pure _

theorem returnStatement (natural : Natural (Expression.respell .unlined) inner inner) :
    Natural (Statement.respell .unlined) (Parse.returnStatement inner)
      (Parse.returnStatement inner) := by
  refine (expect _).bind fun keyword => (accept _).bind fun semicolon? => ?_
  cases semicolon? with
  | some semicolon => exact .pure _
  | none =>
    exact natural.bind fun value => (expect _).bind fun semicolon => .pure _

theorem statementOf (natural : Natural (Expression.respell .unlined) inner inner)
    (blocks : Natural (Block.respell .unlined) block block) :
    Natural (Statement.respell .unlined) (Parse.statementOf inner block)
      (Parse.statementOf inner block) := by
  refine current.bind fun token => ?_
  have value : (Respelling.unlined.token token).value = token.value := rfl
  rw [value]
  split
  · exact letStatement natural
  · exact doStatement natural
  · exact ifStatement natural blocks
  · exact whileStatement natural blocks
  · exact returnStatement natural

theorem statements (room : Nat) :
    Natural (respellStatements .unlined) (Parse.statements room) (Parse.statements room) := by
  have list : respellStatements .unlined = List.map (Statement.respell .unlined) :=
    funext (respellStatements_eq .unlined)
  induction room with
  | zero => exact .fail _
  | succ room ih =>
    rw [list] at ih ⊢
    exact .repeatWhile (statementOf (expression room) (blockOf (list ▸ ih)))

end Statements

theorem typeName : Natural (TypeName.respell .unlined) Parse.typeName Parse.typeName := by
  refine (accept _).bind fun word? => ?_
  cases word? with
  | some word => exact .pure _
  | none => exact name.bind fun name => .pure _

theorem returnType : Natural (ReturnType.respell .unlined) Parse.returnType Parse.returnType := by
  refine (accept _).bind fun word? => ?_
  cases word? with
  | some word => exact .pure _
  | none => exact typeName.bind fun type => .pure _

theorem nameList : Natural (NameList.respell .unlined) Parse.nameList Parse.nameList :=
  name.bind fun _ => (afterCommas name).bind fun _ => .pure _

theorem parameter : Natural (Parameter.respell .unlined) Parse.parameter Parse.parameter :=
  typeName.bind fun _ => name.bind fun _ => .pure _

theorem parameters : Natural (Parameters.respell .unlined) Parse.parameters Parse.parameters := by
  refine current.bind fun token => .ite ?_ (.pure _)
  exact parameter.bind fun first => (afterCommas parameter).bind fun more => .pure _

theorem classVariables :
    Natural (ClassVariables.respell .unlined) Parse.classVariables Parse.classVariables :=
  (expect _).bind fun _ => typeName.bind fun _ => nameList.bind fun _ =>
    (expect _).bind fun _ => .pure _

theorem localVariables :
    Natural (LocalVariables.respell .unlined) Parse.localVariables Parse.localVariables :=
  (expect _).bind fun _ => typeName.bind fun _ => nameList.bind fun _ =>
    (expect _).bind fun _ => .pure _

theorem subroutineBody :
    Natural (SubroutineBody.respell .unlined) Parse.subroutineBody Parse.subroutineBody :=
  (expect _).bind fun _ => (repeatWhile localVariables).bind fun _ =>
    (statements maxNesting).bind fun _ => (expect _).bind fun _ => .pure _

theorem subroutineDeclaration : Natural (SubroutineDeclaration.respell .unlined)
    Parse.subroutineDeclaration Parse.subroutineDeclaration :=
  (expect _).bind fun _ => returnType.bind fun _ => name.bind fun _ =>
    (expect _).bind fun _ => parameters.bind fun _ =>
      (expect _).bind fun _ => subroutineBody.bind fun _ => .pure _

theorem classDeclarations : Natural (List.map (ClassVariables.respell .unlined))
    Parse.classDeclarations Parse.classDeclarations :=
  repeatWhile classVariables

theorem classDeclaration :
    Natural (ClassDeclaration.respell .unlined) Parse.classDeclaration Parse.classDeclaration :=
  (expect _).bind fun _ => name.bind fun _ => (expect _).bind fun _ =>
    classDeclarations.bind fun _ => (repeatWhile subroutineDeclaration).bind fun _ =>
      (expect _).bind fun _ => .pure _

theorem phrase (entry : EntryPoint) :
    Natural (Phrase.respell .unlined) (Parse.phrase entry) (Parse.phrase entry) := by
  cases entry with
  | classDeclaration => exact classDeclaration.map fun _ => rfl
  | classVariables => exact classDeclarations.map fun _ => rfl
  | subroutineDeclaration => exact subroutineDeclaration.map fun _ => rfl
  | parameters => exact parameters.map fun _ => rfl
  | subroutineBody => exact subroutineBody.map fun _ => rfl
  | statements => exact (statements maxNesting).map fun _ => rfl
  | statement =>
    exact (statementOf (expression maxNesting) (blockOf (statements maxNesting))).map fun _ => rfl
  | expression => exact (expression maxNesting).map fun _ => rfl
  | term => exact (term_operators maxNesting).1.map fun _ => rfl
  | arguments => exact (argumentsOf (expression maxNesting)).map fun _ => rfl

end Natural

end Parse

def unlinedReading : Except CompileError Phrase → Except CompileError Phrase
  | .ok phrase => .ok (phrase.respell .unlined)
  | .error e => .error e.unlined

private theorem parse_unlined (entry : EntryPoint) (item : Item) (items : List Item) :
    parse entry ((item :: items).map Item.unlined) =
      unlinedReading (parse entry (item :: items)) := by
  cases item with
  | error e => rfl
  | ok token =>
    have natural := Parse.Natural.phrase entry ⟨token, items⟩
    rw [List.map_cons, Item.unlined, parse, parse]
    change (Parse.phrase entry (Cursor.unlined ⟨token, items⟩) >>= _) = _
    rw [natural]
    cases Parse.phrase entry ⟨token, items⟩ with
    | error e => rfl
    | ok pair =>
      obtain ⟨phrase, after⟩ := pair
      change (if (Respelling.unlined.token after.token).kind = .eof then _ else _) =
        unlinedReading (if after.token.kind = .eof then _ else _)
      have kind : (Respelling.unlined.token after.token).kind = after.token.kind := rfl
      rw [kind]
      split <;> rfl

theorem parse_congr (entry : EntryPoint) {items items' : List Item}
    (same : items'.map Item.unlined = items.map Item.unlined) :
    unlinedReading (parse entry items') = unlinedReading (parse entry items) := by
  cases items with
  | nil => rw [List.map_eq_nil_iff.mp same]
  | cons item items =>
    cases items' with
    | nil => cases same
    | cons item' items' => rw [← parse_unlined, same, parse_unlined]

theorem settle_unlined {α : Type} (faults : List CompileError) (x : α) :
    (Lowering.settle faults x).mapError CompileError.unlined =
      Lowering.settle (faults.map CompileError.unlined) x := by
  cases faults <;> rfl

theorem compile_of_reading {source : String} {d : ClassDeclaration} (comments : Bool)
    (read : unlinedReading (parse .classDeclaration (items source.toList)) =
      .ok (.classDeclaration (d.respell .unlined))) :
    (compile comments source).mapError CompileError.unlined =
      Lowering.settle (d.faults.map CompileError.unlined) (d.code comments) := by
  cases own : parse .classDeclaration (items source.toList) with
  | error e => rw [own] at read; cases read
  | ok phrase =>
    obtain ⟨d', rfl, -, whole⟩ := compile_unit comments own
    rw [own] at read
    have spelled : d'.respell .unlined = d.respell .unlined :=
      Phrase.classDeclaration.inj (Except.ok.inj read)
    have faults := d.faults_unlined
    rw [← spelled, d'.faults_unlined] at faults
    rw [whole, settle_unlined, ← d.respelled_unlined.code_eq,
      ← d'.respelled_unlined.code_eq, spelled]
    exact congrArg (Lowering.settle · _) faults

theorem compile_congr {source source' : String} (comments : Bool)
    (same : (items source'.toList).map Item.unlined = (items source.toList).map Item.unlined) :
    (compile comments source').mapError CompileError.unlined =
      (compile comments source).mapError CompileError.unlined := by
  have reading := parse_congr .classDeclaration same
  cases read : parse .classDeclaration (items source.toList) with
  | error e =>
    rw [read] at reading
    cases read' : parse .classDeclaration (items source'.toList) with
    | ok phrase => rw [read'] at reading; cases reading
    | error e' =>
      rw [read'] at reading
      rw [compile, compile, read, read']
      exact congrArg Except.error (Except.error.inj reading)
  | ok phrase =>
    obtain ⟨d, rfl, -⟩ := compile_unit comments read
    have own : unlinedReading (parse .classDeclaration (items source.toList)) =
        .ok (.classDeclaration (d.respell .unlined)) := by
      rw [read]
      rfl
    rw [compile_of_reading comments own, compile_of_reading comments (reading.trans own)]

def unlinedStream (tokens : List Token) : List Item :=
  (tokens ++ [Token.endOfFile 0]).map fun token => .ok (Respelling.unlined.token token)

theorem unlinedStream_unlined (tokens : List Token) :
    unlinedStream (tokens.map Respelling.unlined.token) = unlinedStream tokens := by
  rw [unlinedStream, List.map_append, List.map_map, unlinedStream, List.map_append]
  rfl

theorem map_unlined (tokens : List Token) (line : Nat) :
    (tokens.map Except.ok ++ [Except.ok (Token.endOfFile line)]).map Item.unlined =
      unlinedStream tokens := by
  rw [unlinedStream, List.map_append, List.map_map, List.map_append]
  rfl

/-- The text is read as tokens of the given kinds and texts, in order, and then the end of file. -/
def ReadsAs (source : String) (tokens : List Token) : Prop :=
  (items source.toList).map Item.unlined = unlinedStream tokens

theorem unlinedStream_inj {tokens others : List Token}
    (same : unlinedStream tokens = unlinedStream others) :
    tokens.map Respelling.unlined.token = others.map Respelling.unlined.token := by
  have wrapped : Function.Injective (Except.ok : Token → Item) := fun _ _ => Except.ok.inj
  rw [unlinedStream, unlinedStream, List.map_append, List.map_append] at same
  apply List.map_injective_iff.mpr wrapped
  rw [List.map_map, List.map_map]
  exact List.append_cancel_right same

theorem readsAs_of_layout {source : String} {lead : List Char} {row : List Written}
    (laid : Layout.Sound ⟨lead, row, []⟩ 1) (text : lead ++ textOf row = source.toList) :
    ReadsAs source (row.map Written.token) := by
  have own := map_unlined (row.map Written.token) (1 + (lead ++ textOf row).count '\n')
  rw [List.map_map] at own
  rw [ReadsAs, items, ← text, laid.itemsFrom]
  exact own

theorem ReadsAs.printable {source : String} {tokens : List Token}
    (readsAs : ReadsAs source tokens) : ∀ token ∈ tokens, token.Printable := by
  have reads : ∀ e, .error e ∉ items source.toList := by
    intro e member
    have there : Item.unlined (.error e) ∈ (items source.toList).map Item.unlined :=
      List.mem_map_of_mem member
    rw [readsAs, unlinedStream] at there
    obtain ⟨token, -, same⟩ := List.mem_map.mp there
    cases same
  obtain ⟨lead, row, laid, text, -⟩ := layout_of_noError reads
  have stream : unlinedStream (row.map Written.token) = unlinedStream tokens :=
    (readsAs_of_layout laid text).symm.trans readsAs
  intro token member
  have there : Respelling.unlined.token token ∈ tokens.map Respelling.unlined.token :=
    List.mem_map_of_mem member
  rw [← unlinedStream_inj stream, List.map_map] at there
  obtain ⟨written, here, same⟩ := List.mem_map.mp there
  -- Whether a token can be printed does not depend on its line.
  have printable : (Respelling.unlined.token written.token).Printable := laid.printable written here
  change Respelling.unlined.token written.token = _ at same
  rw [same] at printable
  exact printable

theorem readsAs_joined {tokens : List Token} (printable : ∀ token ∈ tokens, token.Printable) :
    ReadsAs (String.ofList ([' '].intercalate (tokens.map (·.value.toList)))) tokens := by
  rw [ReadsAs, String.toList_ofList, items_joined printable, unlinedStream, List.map_append,
    List.map_map, List.map_append]
  rfl

theorem compile_of_readsAs {source : String} {d : ClassDeclaration} (comments : Bool)
    (fits : d.nesting ≤ maxNesting) (readsAs : ReadsAs source d.tokens) :
    (compile comments source).mapError CompileError.unlined =
      Lowering.settle (d.faults.map CompileError.unlined) (d.code comments) := by
  have own := @parse_of_phrase (.classDeclaration d) fits (.endOfFile 0) rfl []
  have reading := parse_congr .classDeclaration (readsAs.trans (map_unlined d.tokens 0).symm)
  exact compile_of_reading comments (reading.trans (congrArg unlinedReading own))

private theorem tokens_before_end {tokens others : List Token} {last : Token} {close : Item}
    {more : List Item} (ends : last.kind = .eof) (live : ∀ token ∈ others, token.kind ≠ .eof)
    (same : tokens.map Except.ok ++ .ok last :: more = others.map Except.ok ++ [close]) :
    others = tokens ∧ close = .ok last := by
  induction tokens generalizing others with
  | nil =>
    cases others with
    | nil =>
      cases same
      exact ⟨rfl, rfl⟩
    | cons other others =>
      cases same
      exact absurd ends (live last (.head _))
  | cons token tokens ih =>
    cases others with
    | nil => simp at same
    | cons other others =>
      rw [List.map_cons, List.map_cons, List.cons_append, List.cons_append, List.cons.injEq,
        Except.ok.injEq] at same
      obtain ⟨rfl, rfl⟩ := ih (fun token member => live token (.tail _ member)) same.2
      exact ⟨by rw [same.1], rfl⟩

theorem layout_of_parse {entry : EntryPoint} {source : List Char} {phrase : Phrase}
    (read : parse entry (items source) = .ok phrase) :
    ∃ lead row, Layout.Sound ⟨lead, row, []⟩ 1 ∧ lead ++ textOf row = source ∧
      row.map Written.token = phrase.tokens := by
  obtain ⟨last, more, stream, ends, -⟩ := parse_reads read
  obtain ⟨⟨lead, row, rest⟩, close, text, sound, closes, same⟩ := itemsFrom_layout 1 [] source
  have live : ∀ token ∈ row.map Written.token, token.kind ≠ .eof :=
    List.forall_mem_map.mpr fun written member => (sound.printable written member).2.1
  obtain ⟨tokens, rfl⟩ := tokens_before_end ends live (by
    rw [← stream, List.map_map]
    exact same)
  cases closes with
  | endOfFile done =>
    obtain rfl : rest = [] := done
    exact ⟨lead, row, sound, by simpa [Layout.text, Layout.read] using text, tokens⟩

theorem readsAs_of_parse {entry : EntryPoint} {source : String} {phrase : Phrase}
    (read : parse entry (items source.toList) = .ok phrase) : ReadsAs source phrase.tokens := by
  obtain ⟨lead, row, laid, text, tokens⟩ := layout_of_parse read
  rw [← tokens]
  exact readsAs_of_layout laid text

theorem compile_ok_iff_of_readsAs {source : String} {d : ClassDeclaration} {code : Code}
    (comments : Bool) (readsAs : ReadsAs source d.tokens) :
    compile comments source = .ok code ↔
      d.nesting ≤ maxNesting ∧ d.faults = [] ∧ d.code comments = code := by
  have live : ∀ token ∈ d.tokens, token.kind ≠ .eof := fun token member =>
    (readsAs.printable token member).2.1
  constructor
  · intro compiles
    -- The class that is read has the same tokens, so it is this one, and it was not too deep.
    have fits : d.nesting ≤ maxNesting := by
      obtain ⟨e, read⟩ := class_of_compile compiles
      have reading := parse_congr .classDeclaration (readsAs.trans (map_unlined d.tokens 0).symm)
      rw [read] at reading
      cases own : parse .classDeclaration (d.tokens.map .ok ++ [.ok (.endOfFile 0)]) with
      | error => rw [own] at reading; cases reading
      | ok phrase =>
        obtain ⟨last, more, stream, ends, entry, fits⟩ := parse_reads own
        cases phrase with
        | classDeclaration e =>
          obtain ⟨same, -⟩ := tokens_before_end ends live stream.symm
          rw [ClassDeclaration.eq_of_tokens_eq same]
          exact fits
        | _ => cases entry
    have result := compile_of_readsAs comments fits readsAs
    rw [compiles] at result
    obtain ⟨none, same⟩ := Lowering.settle_eq_ok.mp result.symm
    exact ⟨fits, List.map_eq_nil_iff.mp none, same⟩
  · rintro ⟨fits, faultless, rfl⟩
    have result := compile_of_readsAs comments fits readsAs
    rw [faultless] at result
    cases own : compile comments source with
    | error e => rw [own] at result; cases result
    | ok code =>
      rw [own] at result
      exact result

end JackCompiler
