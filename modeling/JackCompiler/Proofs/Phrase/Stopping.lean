import JackCompiler.Proofs.Phrase.Drawing
import JackCompiler.Proofs.Phrase.Lossless

namespace JackCompiler

namespace Parse

theorem accept_counts (test : Token → Bool) : Counts (accept test) := by
  refine .bind .current fun token => ?_
  by_cases passes : test token = true
  · rw [dif_pos passes]
    exact .bind .advance fun _ => .pure _
  · rw [dif_neg passes]
    exact .pure _

private theorem required_counts {test : Token → Bool}
    {next : Option (TokenWith test) → Parse (TokenWith test)}
    (found : ∀ word, next (some word) = pure word) (missing : Counts (next none)) :
    Counts (accept test >>= next) := by
  refine (accept_counts test).bind fun word? => ?_
  cases word? with
  | some word => exact found word ▸ .pure word
  | none => exact missing

theorem expect_counts (values : List String) : Counts (expect values) :=
  required_counts (fun _ => rfl) (.bind .current fun _ => .fail _)

theorem name_counts : Counts name :=
  required_counts (fun _ => rfl) (.bind .current fun _ => .fail _)

theorem memberName_counts : Counts memberName :=
  required_counts (fun _ => rfl) (.bind .current fun _ => .fail _)

theorem afterCommas_counts {α : Type} {phrase : Parse α} (counts : Counts phrase) :
    Counts (afterCommas phrase) :=
  have rest (comma : Comma) : Counts (do return (comma, ← phrase)) := counts.bind fun _ => .pure _
  .repeatWhile ((expect_counts _).bind rest) (((expect_reads _).takes nofun).bind rest)

section Expressions

variable {expression : Parse Expression} {operand : Parse Term}

theorem argumentsOf_counts (counts : Counts expression) : Counts (argumentsOf expression) := by
  refine .bind .current fun token => ?_
  split
  · exact counts.bind fun _ => (afterCommas_counts counts).bind fun _ => .pure _
  · exact .pure _

theorem callAfter_counts (counts : Counts expression) (name : Name) :
    Counts (callAfter expression name) := by
  refine (accept_counts _).bind fun dot? => ?_
  cases dot? with
  | some dot =>
    exact memberName_counts.bind fun _ => (expect_counts _).bind fun _ =>
      (argumentsOf_counts counts).bind fun _ => (expect_counts _).bind fun _ => .pure _
  | none =>
    exact (expect_counts _).bind fun _ => (argumentsOf_counts counts).bind fun _ =>
      (expect_counts _).bind fun _ => .pure _

theorem termAfter_counts (counts : Counts expression) (name : Name) :
    Counts (termAfter expression name) := by
  refine .bind .current fun token => ?_
  split
  · exact (callAfter_counts counts name).bind fun _ => .pure _
  · refine (accept_counts _).bind fun opening? => ?_
    cases opening? with
    | some opening => exact counts.bind fun _ => (expect_counts _).bind fun _ => .pure _
    | none => exact .pure _

theorem termOf_counts (counts : Counts expression) (countsOperand : Counts operand) :
    Counts (termOf expression operand) := by
  refine (accept_counts _).bind fun value? => ?_
  cases value? with
  | some value => exact .pure _
  | none =>
    refine (accept_counts _).bind fun name? => ?_
    cases name? with
    | some name => exact termAfter_counts counts name
    | none =>
      refine (accept_counts _).bind fun opening? => ?_
      cases opening? with
      | some opening => exact counts.bind fun _ => (expect_counts _).bind fun _ => .pure _
      | none =>
        refine (accept_counts _).bind fun operator? => ?_
        cases operator? with
        | some operator => exact countsOperand.bind fun _ => .pure _
        | none => exact .bind .current fun _ => .fail _

end Expressions

theorem term_operators_counts (room : Nat) :
    Counts (term room) ∧ ∀ left, Counts (operators room left) := by
  induction room with
  | zero =>
    refine ⟨.fail _, fun left => .bind .current fun token => ?_⟩
    split
    · exact .fail _
    · exact .pure _
  | succ room ih =>
    obtain ⟨terms, more⟩ := ih
    refine ⟨termOf_counts (terms.bind fun _ => more _) terms, fun left => ?_⟩
    refine .bind .current fun token => ?_
    split
    · exact (expect_counts _).bind fun _ => terms.bind fun _ => more _
    · exact .pure _

theorem term_counts (room : Nat) : Counts (term room) := (term_operators_counts room).1

theorem expression_counts (room : Nat) : Counts (expression room) :=
  (term_counts room).bind fun _ => (term_operators_counts room).2 _

section Statements

variable {expression : Parse Expression} {block : Parse Block} {list : Parse (List Statement)}

theorem blockOf_counts (counts : Counts list) : Counts (blockOf list) :=
  (expect_counts _).bind fun _ => counts.bind fun _ => (expect_counts _).bind fun _ => .pure _

theorem letStatement_counts (counts : Counts expression) : Counts (letStatement expression) := by
  refine (expect_counts _).bind fun _ => name_counts.bind fun _ =>
    (accept_counts _).bind fun opening? => ?_
  cases opening? with
  | some opening =>
    exact counts.bind fun _ => (expect_counts _).bind fun _ => (expect_counts _).bind fun _ =>
      counts.bind fun _ => (expect_counts _).bind fun _ => .pure _
  | none =>
    exact (expect_counts _).bind fun _ => counts.bind fun _ => (expect_counts _).bind fun _ =>
      .pure _

theorem ifStatement_counts (counts : Counts expression) (countsBlock : Counts block) :
    Counts (ifStatement expression block) := by
  refine (expect_counts _).bind fun _ => (expect_counts _).bind fun _ => counts.bind fun _ =>
    (expect_counts _).bind fun _ => countsBlock.bind fun _ =>
    (accept_counts _).bind fun otherwise? => ?_
  cases otherwise? with
  | some otherwise => exact countsBlock.bind fun _ => .pure _
  | none => exact .pure _

theorem whileStatement_counts (counts : Counts expression) (countsBlock : Counts block) :
    Counts (whileStatement expression block) :=
  (expect_counts _).bind fun _ => (expect_counts _).bind fun _ => counts.bind fun _ =>
    (expect_counts _).bind fun _ => countsBlock.bind fun _ => .pure _

theorem doStatement_counts (counts : Counts expression) : Counts (doStatement expression) :=
  (expect_counts _).bind fun _ => name_counts.bind fun _ =>
    (callAfter_counts counts _).bind fun _ => (expect_counts _).bind fun _ => .pure _

theorem returnStatement_counts (counts : Counts expression) :
    Counts (returnStatement expression) := by
  refine (expect_counts _).bind fun _ => (accept_counts _).bind fun semicolon? => ?_
  cases semicolon? with
  | some semicolon => exact .pure _
  | none => exact counts.bind fun _ => (expect_counts _).bind fun _ => .pure _

theorem statementOf_counts (counts : Counts expression) (countsBlock : Counts block) :
    Counts (statementOf expression block) := by
  refine .bind .current fun token => ?_
  split
  · exact letStatement_counts counts
  · exact doStatement_counts counts
  · exact ifStatement_counts counts countsBlock
  · exact whileStatement_counts counts countsBlock
  · exact returnStatement_counts counts

end Statements

theorem statements_counts (room : Nat) : Counts (statements room) := by
  induction room with
  | zero => exact .fail _
  | succ room ih =>
    exact .repeatWhile (statementOf_counts (expression_counts room) (blockOf_counts ih))
      ((statement_reads room).takes fun s ⟨nothing, _⟩ => by
        obtain ⟨word, rest, same, -⟩ := s.tokens_starts
        rw [same] at nothing
        cases nothing)

theorem statement_counts (room : Nat) : Counts (statement room) :=
  statementOf_counts (expression_counts room) (blockOf_counts (statements_counts room))

theorem typeName_counts : Counts typeName := by
  refine (accept_counts _).bind fun word? => ?_
  cases word? with
  | some word => exact .pure _
  | none => exact name_counts.bind fun _ => .pure _

theorem returnType_counts : Counts returnType := by
  refine (accept_counts _).bind fun word? => ?_
  cases word? with
  | some word => exact .pure _
  | none => exact typeName_counts.bind fun _ => .pure _

theorem nameList_counts : Counts nameList :=
  name_counts.bind fun _ => (afterCommas_counts name_counts).bind fun _ => .pure _

theorem parameter_counts : Counts parameter :=
  typeName_counts.bind fun _ => name_counts.bind fun _ => .pure _

theorem parameters_counts : Counts parameters := by
  refine .bind .current fun token => ?_
  split
  · exact parameter_counts.bind fun _ => (afterCommas_counts parameter_counts).bind fun _ => .pure _
  · exact .pure _

theorem classVariables_counts : Counts classVariables :=
  (expect_counts _).bind fun _ => typeName_counts.bind fun _ => nameList_counts.bind fun _ =>
    (expect_counts _).bind fun _ => .pure _

theorem classVariables_takes : Takes classVariables :=
  classVariables_reads.takes fun declaration nothing => by simp [ClassVariables.tokens] at nothing

theorem localVariables_counts : Counts localVariables :=
  (expect_counts _).bind fun _ => typeName_counts.bind fun _ => nameList_counts.bind fun _ =>
    (expect_counts _).bind fun _ => .pure _

theorem localVariables_takes : Takes localVariables :=
  localVariables_reads.takes fun declaration nothing => by simp [LocalVariables.tokens] at nothing

theorem subroutineBody_counts : Counts subroutineBody :=
  (expect_counts _).bind fun _ =>
    (Counts.repeatWhile localVariables_counts localVariables_takes).bind fun _ =>
    (statements_counts _).bind fun _ => (expect_counts _).bind fun _ => .pure _

theorem subroutineDeclaration_counts : Counts subroutineDeclaration :=
  (expect_counts _).bind fun _ => returnType_counts.bind fun _ => name_counts.bind fun _ =>
    (expect_counts _).bind fun _ => parameters_counts.bind fun _ => (expect_counts _).bind fun _ =>
    subroutineBody_counts.bind fun _ => .pure _

theorem subroutineDeclaration_takes : Takes subroutineDeclaration :=
  subroutineDeclaration_reads.takes fun s ⟨nothing, _⟩ => by
    simp [SubroutineDeclaration.tokens] at nothing

theorem classDeclarations_counts : Counts classDeclarations :=
  .repeatWhile classVariables_counts classVariables_takes

theorem classDeclaration_counts : Counts classDeclaration :=
  (expect_counts _).bind fun _ => name_counts.bind fun _ => (expect_counts _).bind fun _ =>
    classDeclarations_counts.bind fun _ =>
    (Counts.repeatWhile subroutineDeclaration_counts subroutineDeclaration_takes).bind fun _ =>
    (expect_counts _).bind fun _ => .pure _

theorem phrase_counts (entry : EntryPoint) : Counts (phrase entry) := by
  cases entry with
  | classDeclaration => exact classDeclaration_counts.map _
  | classVariables => exact classDeclarations_counts.map _
  | subroutineDeclaration => exact subroutineDeclaration_counts.map _
  | parameters => exact parameters_counts.map _
  | subroutineBody => exact subroutineBody_counts.map _
  | statements => exact (statements_counts _).map _
  | statement => exact (statement_counts _).map _
  | expression => exact (expression_counts _).map _
  | term => exact (term_counts _).map _
  | arguments => exact (argumentsOf_counts (expression_counts _)).map _

end Parse

inductive EntryPoint.Draws (entry : EntryPoint) : List Item → Nat → Prop
  | nothing : entry.Draws [] 1
  | refused (e : CompileError) (rest : List Item) : entry.Draws (.error e :: rest) 1
  | read {token : Token} {rest : List Item} {n : Nat} :
      Parse.Draws (Parse.phrase entry) ⟨token, rest⟩ n → entry.Draws (.ok token :: rest) (n + 1)

def lastLine (stream : List Item) : Nat :=
  ((stream.filterMap Except.toOption).getLast?.map Token.line).getD 1

def Ending.answer {α : Type} (line : Nat) : Ending α → Except CompileError α
  | .ok x => .ok x
  | .error stop => .error (stop.error line)

/-- Reading draws some tokens and comes to an ending, whatever it leaves. -/
structure EntryPoint.Ends (entry : EntryPoint) (tokens : List Token) (ending : Ending Phrase) :
    Prop where
  draws : ∀ rest, ending.Leaves rest →
    entry.Draws (tokens.map .ok ++ (ending.items ++ rest)) (tokens.length + ending.asked)
  outcome : ∀ rest, ending.Leaves rest →
    parse entry (tokens.map .ok ++ (ending.items ++ rest)) =
      ending.answer (lastLine (tokens.map .ok))
  closes : ∀ phrase, ending = .ok phrase → ∃ front close, tokens = front ++ [close] ∧
    close.kind = .eof ∧ ∀ t ∈ front, t.kind ≠ .eof

variable {entry : EntryPoint} {token : Token} {tokens : List Token} {stream : List Item} {n : Nat}

theorem lastLine_cons (token : Token) (tokens : List Token) :
    lastLine ((token :: tokens).map .ok) = (tokens.getLastD token).line := by
  have whole : ((token :: tokens).map Except.ok : List Item).filterMap Except.toOption =
      token :: tokens := by
    rw [List.filterMap_map]
    exact List.filterMap_some
  rw [lastLine, whole, List.getLast?_cons, Option.map_some, Option.getD_some,
    List.getLastD_eq_getLast?]

theorem parse_cons (entry : EntryPoint) (token : Token) (rest : List Item) :
    parse entry (.ok token :: rest) = Parse.phrase entry ⟨token, rest⟩ >>= fun pair =>
      if pair.2.token.kind = .eof then .ok pair.1
      else .error (.syntactic pair.2.token.line (.trailing pair.2.token.value)) :=
  rfl

theorem ends_of_stop {stop : Stop}
    (ends : Parse.Ends (Parse.phrase entry) token tokens (.error stop)) :
    entry.Ends (token :: tokens) (.error stop) where
  draws rest leaves := by
    rw [List.length_cons, Nat.succ_add]
    exact .read (ends.draws rest leaves)
  outcome rest leaves := by
    rw [List.map_cons, List.cons_append, parse_cons, ends.outcome rest leaves, ← List.map_cons,
      lastLine_cons]
    rfl
  closes _ same := nomatch same

theorem ends_of_trailing {phrase : Phrase}
    (ends : Parse.Ends (Parse.phrase entry) token tokens (.ok phrase))
    (more : (tokens.getLastD token).kind ≠ .eof) :
    entry.Ends (token :: tokens) (.error (.fault (.trailing (tokens.getLastD token).value))) where
  draws rest _ := .read (ends.draws rest trivial)
  outcome rest _ := by
    have read := ends.outcome rest trivial
    rw [List.map_cons, List.cons_append, parse_cons, ← List.map_cons, lastLine_cons]
    simp only [Ending.items, Stop.items] at read ⊢
    rw [read]
    exact if_neg more
  closes _ same := nomatch same

theorem ends_of_close {phrase : Phrase}
    (ends : Parse.Ends (Parse.phrase entry) token tokens (.ok phrase))
    (close : (tokens.getLastD token).kind = .eof) :
    entry.Ends (token :: tokens) (.ok phrase) where
  draws rest _ := .read (ends.draws rest trivial)
  outcome rest _ := by
    rw [List.map_cons, List.cons_append, parse_cons, ends.outcome rest trivial]
    exact if_pos close
  closes found same := by
    cases same
    obtain ⟨front, ⟨-, spelt, -⟩, place⟩ :=
      Parse.phrase_reads entry _ _ _ (ends.outcome [] trivial)
    refine ⟨front, _, ?_, close, spelt ▸ phrase.kind_ne_eof⟩
    have taken := Cursor.items_before ⟨tokens.getLastD token, []⟩ front
    rw [← place, Cursor.items, Cursor.items, Ending.items, List.nil_append,
      List.append_nil] at taken
    refine Parse.map_ok_inj.mp ?_
    rw [List.map_append]
    exact taken

theorem EntryPoint.Draws.ends (draws : entry.Draws stream n) :
    ∃ tokens, ∃ ending : Ending Phrase, ∃ rest, ending.Leaves rest ∧
      stream = tokens.map .ok ++ (ending.items ++ rest) ∧ n = tokens.length + ending.asked ∧
      entry.Ends tokens ending := by
  cases draws with
  | nothing =>
    refine ⟨[], .error .exhausted, [], fun _ => rfl, rfl, rfl, ?_, ?_,
      fun _ same => nomatch same⟩
    · intro rest leaves
      obtain rfl := leaves rfl
      exact .nothing
    · intro rest leaves
      obtain rfl := leaves rfl
      rfl
  | refused e rest =>
    exact ⟨[], .error (.refused e), rest, nofun, rfl, rfl, fun _ _ => .refused e _,
      fun _ _ => rfl, fun _ same => nomatch same⟩
  | @read token rest n draws =>
    obtain ⟨tokens, ending, left, leaves, rfl, rfl, ends⟩ := draws.ends
    cases ending with
    | error stop =>
      exact ⟨token :: tokens, .error stop, left, leaves, rfl, (Nat.succ_add _ _).symm,
        ends_of_stop ends⟩
    | ok phrase =>
      by_cases close : (tokens.getLastD token).kind = .eof
      · exact ⟨token :: tokens, .ok phrase, left, trivial, rfl, rfl, ends_of_close ends close⟩
      · exact ⟨token :: tokens, .error (.fault _), left, nofun, rfl, rfl,
          ends_of_trailing ends close⟩

theorem EntryPoint.Draws.unique {m : Nat} (first : entry.Draws stream m)
    (second : entry.Draws stream n) : m = n := by
  cases first with
  | nothing =>
    cases second
    rfl
  | refused e rest =>
    cases second
    rfl
  | read draws =>
    cases second with
    | read draws' => rw [draws.unique draws']

theorem EntryPoint.exists_draws (entry : EntryPoint) (stream : List Item) :
    ∃ n, entry.Draws stream n := by
  match stream with
  | [] => exact ⟨1, .nothing⟩
  | .error e :: rest => exact ⟨1, .refused e rest⟩
  | .ok token :: rest =>
    obtain ⟨n, draws⟩ := Parse.phrase_counts entry ⟨token, rest⟩
    exact ⟨n + 1, .read draws⟩

section Drawn

variable {ending : Ending Phrase} {rest : List Item}

theorem Ending.leaves_of_ne (more : ending ≠ .error .exhausted) (rest : List Item) :
    ending.Leaves rest := by
  cases ending with
  | ok phrase => trivial
  | error stop => exact fun same => absurd (congrArg Except.error same) more

theorem Ending.length_items (more : ending ≠ .error .exhausted) :
    ending.items.length = ending.asked := by
  rcases ending with (_ | _ | _) | _
  case error.exhausted => exact absurd rfl more
  all_goals rfl

theorem take_drawn (tokens : List Token) (leaves : ending.Leaves rest) :
    (tokens.map Except.ok ++ (ending.items ++ rest)).take (tokens.length + ending.asked) =
      tokens.map .ok ++ ending.items := by
  by_cases exhausted : ending = .error .exhausted
  · subst exhausted
    obtain rfl := leaves rfl
    exact List.take_of_length_le (by simp [Ending.items, Stop.items])
  · rw [← List.append_assoc, ← Ending.length_items exhausted]
    exact List.take_left' (by simp)

theorem length_lt_iff (leaves : ending.Leaves rest) :
    (tokens.map Except.ok ++ (ending.items ++ rest)).length < tokens.length + ending.asked ↔
      ending = .error .exhausted := by
  constructor
  · intro short
    refine Classical.byContradiction fun more => ?_
    have drawn := Ending.length_items more
    simp only [List.length_append, List.length_map] at short
    omega
  · rintro rfl
    obtain rfl := leaves rfl
    simp [Ending.items, Stop.items, Ending.asked, Stop.asked]

theorem error_mem_drawn {e : CompileError}
    (member : .error e ∈ tokens.map Except.ok ++ ending.items) :
    ending = .error (.refused e) := by
  rcases List.mem_append.mp member with drawn | refused
  · obtain ⟨_, -, same⟩ := List.mem_map.mp drawn
    cases same
  · rcases ending with (_ | _ | _) | _
    case error.refused =>
      cases List.mem_singleton.mp refused
      rfl
    all_goals cases refused

theorem Ending.line_of_answer {last line : Nat} {fault : SyntaxFault}
    (failed : ending.answer last = .error (.syntactic line fault)) :
    ending = .error (.refused (.syntactic line fault)) ∨ ending.items = [] ∧ line = last := by
  rcases ending with (cause | e | _) | phrase
  case error.refused =>
    cases failed
    exact .inl rfl
  all_goals cases failed
  all_goals exact .inr ⟨rfl, rfl⟩

theorem EntryPoint.Ends.sufficient (ends : entry.Ends tokens ending) (leaves : ending.Leaves rest)
    (enough : tokens.length + ending.asked ≤
      (tokens.map Except.ok ++ (ending.items ++ rest)).length) {other : List Item}
    (same : other.take (tokens.length + ending.asked) = tokens.map .ok ++ ending.items) :
    parse entry other = ending.answer (lastLine (tokens.map .ok)) ∧
      entry.Draws other (tokens.length + ending.asked) := by
  have more : ending ≠ .error .exhausted := fun is =>
    Nat.not_lt.mpr enough ((length_lt_iff leaves).mpr is)
  have whole := (List.take_append_drop (tokens.length + ending.asked) other).symm
  rw [same, List.append_assoc] at whole
  rw [whole]
  exact ⟨ends.outcome _ (Ending.leaves_of_ne more _), ends.draws _ (Ending.leaves_of_ne more _)⟩

end Drawn

/-- Reading a stream asks for so many items, and what it returns is determined by those that it
gets: it is an error among them, or an error in the line of the last token, or a phrase that they
are the tokens of up to the end of file. -/
structure EntryPoint.StopsAfter (entry : EntryPoint) (stream : List Item) (n : Nat) : Prop where
  draws : entry.Draws stream n
  unique : ∀ m, entry.Draws stream m → m = n
  exhausted : stream.length < n → n = stream.length + 1 ∧
    parse entry stream = .error (.syntactic (lastLine stream) .endOfFile)
  sufficient : n ≤ stream.length → ∀ other, other.take n = stream.take n →
    parse entry other = parse entry stream ∧ entry.Draws other n
  refused : ∀ e, .error e ∈ stream.take n → parse entry stream = .error e
  line : ∀ line fault, parse entry stream = .error (.syntactic line fault) →
    .error (.syntactic line fault) ∉ stream.take n → line = lastLine (stream.take n)
  closes : ∀ phrase, parse entry stream = .ok phrase → ∃ front close,
    stream.take n = (front ++ [close]).map .ok ∧ close.kind = .eof ∧ ∀ t ∈ front, t.kind ≠ .eof

theorem exists_stopsAfter (entry : EntryPoint) (stream : List Item) :
    ∃ n, entry.StopsAfter stream n := by
  obtain ⟨n, draws⟩ := entry.exists_draws stream
  obtain ⟨tokens, ending, rest, leaves, rfl, rfl, ends⟩ := draws.ends
  have outcome := ends.outcome rest leaves
  have drawn := take_drawn tokens leaves
  refine ⟨_, draws, fun m other => other.unique draws, fun short => ?_, fun enough other same => ?_,
    fun e member => ?_, fun line fault failed apart => ?_, fun phrase read => ?_⟩
  · obtain rfl := (length_lt_iff leaves).mp short
    obtain rfl := leaves rfl
    rw [outcome]
    simp [Ending.items, Stop.items, Ending.asked, Stop.asked, Ending.answer, Stop.error]
  · rw [outcome]
    exact ends.sufficient leaves enough (same.trans drawn)
  · rw [drawn] at member
    rw [outcome, error_mem_drawn member]
    rfl
  · rw [outcome] at failed
    rw [drawn] at apart ⊢
    rcases Ending.line_of_answer failed with rfl | ⟨none, same⟩
    · exact absurd (List.mem_append_right _ (.head _)) apart
    · rw [none, List.append_nil, same]
  · rw [outcome] at read
    cases ending with
    | error stop => cases read
    | ok found =>
      cases read
      obtain ⟨front, close, rfl, last⟩ := ends.closes phrase rfl
      exact ⟨front, close, drawn.trans (List.append_nil _), last⟩

-- What is behind the fault has not been drawn, so it does not matter that it is an error too.
example : parse .term [.ok ⟨4, .symbol, "("⟩, .ok ⟨5, .symbol, ","⟩,
    .error (.lexical 6 .unterminatedComment)] = .error (.syntactic 5 (.noTerm ",")) := by
  rfl

end JackCompiler
