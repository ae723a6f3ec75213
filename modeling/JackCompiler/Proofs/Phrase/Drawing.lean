import JackCompiler.Proofs.Phrase.Acceptance

namespace JackCompiler

namespace Parse

/-- A reader asks so many times for the next item. The count follows the steps of the reader, of
which only `advance` asks. A step that looks at the items without asking for them has none. -/
inductive Draws : {α : Type} → Parse α → Cursor → Nat → Prop
  | pure {α : Type} (x : α) (cursor : Cursor) : Draws (Pure.pure x) cursor 0
  | current (cursor : Cursor) : Draws Parse.current cursor 0
  | fail {α : Type} (fault : SyntaxFault) (cursor : Cursor) :
      Draws (Parse.fail fault : Parse α) cursor 0
  | advance (cursor : Cursor) : Draws Parse.advance cursor 1
  | bind_ok {α β : Type} {reader : Parse α} {next : α → Parse β} {cursor after : Cursor} {x : α}
      {m n : Nat} : Draws reader cursor m → reader cursor = .ok (x, after) →
      Draws (next x) after n → Draws (reader >>= next) cursor (m + n)
  | bind_error {α β : Type} {reader : Parse α} {next : α → Parse β} {cursor : Cursor}
      {e : CompileError} {m : Nat} : Draws reader cursor m → reader cursor = .error e →
      Draws (reader >>= next) cursor m

end Parse

theorem Cursor.length_rest_before (after : Cursor) (ts : List Token) :
    (after.before ts).rest.length = after.rest.length + ts.length := by
  induction ts with
  | nil => rfl
  | cons token ts ih => rw [Cursor.before, List.length_cons, ih, List.length_cons, Nat.add_assoc]

inductive Stop
  | fault (fault : SyntaxFault)
  | refused (e : CompileError)
  | exhausted

namespace Stop

def error (line : Nat) : Stop → CompileError
  | .fault cause => .syntactic line cause
  | .refused e => e
  | .exhausted => .syntactic line .endOfFile

def items : Stop → List Item
  | .refused e => [.error e]
  | .fault _ | .exhausted => []

def asked : Stop → Nat
  | .refused _ | .exhausted => 1
  | .fault _ => 0

def Leaves (stop : Stop) (rest : List Item) : Prop := stop = .exhausted → rest = []

end Stop

/-- What a reader comes to after the tokens that it has drawn. -/
abbrev Ending (α : Type) := Except Stop α

namespace Ending

variable {α : Type}

def items : Ending α → List Item
  | .ok _ => []
  | .error stop => stop.items

def asked : Ending α → Nat
  | .ok _ => 0
  | .error stop => stop.asked

def Leaves : Ending α → List Item → Prop
  | .ok _, _ => True
  | .error stop, rest => stop.Leaves rest

def outcome (last : Token) (rest : List Item) : Ending α → Except CompileError (α × Cursor)
  | .ok x => .ok (x, ⟨last, rest⟩)
  | .error stop => .error (stop.error last.line)

theorem asked_le (ending : Ending α) : ending.asked ≤ 1 := by
  rcases ending with (_ | _ | _) | _
  all_goals simp [asked, Stop.asked]

end Ending

namespace Parse

/-- From a token on, a reader draws some tokens and comes to an ending, whatever it leaves. An error
in place of an item that it asks for would be what it returns. -/
structure Ends {α : Type} (reader : Parse α) (token : Token) (tokens : List Token)
    (ending : Ending α) : Prop where
  draws : ∀ rest, ending.Leaves rest →
    Draws reader ⟨token, tokens.map .ok ++ (ending.items ++ rest)⟩ (tokens.length + ending.asked)
  outcome : ∀ rest, ending.Leaves rest →
    reader ⟨token, tokens.map .ok ++ (ending.items ++ rest)⟩ =
      ending.outcome (tokens.getLastD token) rest
  refuses : ∀ k < tokens.length + ending.asked, ∀ e rest,
    reader ⟨token, (tokens.take k).map .ok ++ .error e :: rest⟩ = .error e

variable {α β : Type} {reader : Parse α} {next : α → Parse β} {cursor : Cursor} {token : Token}
  {tokens more : List Token}

theorem getLastD_append (tokens more : List Token) (token : Token) :
    (tokens ++ more).getLastD token = more.getLastD (tokens.getLastD token) := by
  simp only [List.getLastD_eq_getLast?, List.getLast?_append, Option.getD_or]

theorem bind_of_error {e : CompileError} (failed : reader cursor = .error e) :
    (reader >>= next) cursor = .error e := by
  change (reader cursor >>= fun pair => next pair.1 pair.2) = _
  rw [failed]
  rfl

namespace Ends

theorem pure (x : α) (token : Token) : Ends (Pure.pure x) token [] (.ok x) where
  draws _ _ := .pure x _
  outcome _ _ := rfl
  refuses _ few := absurd few (Nat.not_lt_zero _)

theorem current (token : Token) : Ends Parse.current token [] (.ok token) where
  draws _ _ := .current _
  outcome _ _ := rfl
  refuses _ few := absurd few (Nat.not_lt_zero _)

theorem fail (fault : SyntaxFault) (token : Token) :
    Ends (Parse.fail fault : Parse α) token [] (.error (.fault fault)) where
  draws _ _ := .fail fault _
  outcome _ _ := rfl
  refuses _ few := absurd few (Nat.not_lt_zero _)

theorem advance_token (token next : Token) : Ends Parse.advance token [next] (.ok ()) where
  draws _ _ := .advance _
  outcome _ _ := rfl
  refuses k few e rest := by
    obtain rfl : k = 0 := Nat.lt_one_iff.mp few
    rfl

theorem advance_refused (token : Token) (e : CompileError) :
    Ends Parse.advance token [] (.error (.refused e)) where
  draws _ _ := .advance _
  outcome _ _ := rfl
  refuses k few e rest := by
    obtain rfl : k = 0 := Nat.lt_one_iff.mp few
    rfl

theorem advance_exhausted (token : Token) :
    Ends Parse.advance token [] (.error .exhausted) where
  draws _ _ := .advance _
  outcome rest leaves := by
    obtain rfl := leaves rfl
    rfl
  refuses k few e rest := by
    obtain rfl : k = 0 := Nat.lt_one_iff.mp few
    rfl

theorem bind_ok {x : α} {ending : Ending β} (first : Ends reader token tokens (.ok x))
    (second : Ends (next x) (tokens.getLastD token) more ending) :
    Ends (reader >>= next) token (tokens ++ more) ending := by
  -- What the first reader leaves begins with what the second one draws.
  have read (rest : List Item) :
      reader ⟨token, tokens.map .ok ++ rest⟩ = .ok (x, ⟨tokens.getLastD token, rest⟩) :=
    first.outcome rest trivial
  constructor
  · intro rest leaves
    rw [List.map_append, List.append_assoc, List.length_append, Nat.add_assoc]
    exact .bind_ok (first.draws _ trivial) (read _) (second.draws rest leaves)
  · intro rest leaves
    rw [List.map_append, List.append_assoc, bind_of (read _), second.outcome rest leaves,
      getLastD_append]
  · intro k few e rest
    rw [List.length_append, Nat.add_assoc] at few
    by_cases early : k < tokens.length
    · rw [List.take_append_of_le_length (Nat.le_of_lt early)]
      exact bind_of_error (first.refuses k early e rest)
    · rw [List.take_append, List.take_of_length_le (Nat.le_of_not_lt early), List.map_append,
        List.append_assoc, bind_of (read _)]
      exact second.refuses _ (by omega) e rest

theorem bind_error {stop : Stop} (ends : Ends reader token tokens (.error stop)) :
    Ends (reader >>= next) token tokens (.error stop) where
  draws rest leaves := .bind_error (ends.draws rest leaves) (ends.outcome rest leaves)
  outcome rest leaves := bind_of_error (ends.outcome rest leaves)
  refuses k few e rest := bind_of_error (ends.refuses k few e rest)

end Ends

theorem Draws.ends {n : Nat} (draws : Draws reader cursor n) :
    ∃ tokens, ∃ ending : Ending α, ∃ rest, ending.Leaves rest ∧
      cursor.rest = tokens.map .ok ++ (ending.items ++ rest) ∧
      n = tokens.length + ending.asked ∧ Ends reader cursor.token tokens ending := by
  induction draws with
  | pure x cursor => exact ⟨[], .ok x, cursor.rest, trivial, rfl, rfl, .pure x _⟩
  | current cursor => exact ⟨[], .ok _, cursor.rest, trivial, rfl, rfl, .current _⟩
  | fail cause cursor =>
    exact ⟨[], .error (.fault cause), cursor.rest, nofun, rfl, rfl, .fail cause _⟩
  | advance cursor =>
    obtain ⟨token, rest⟩ := cursor
    match rest with
    | [] => exact ⟨[], .error .exhausted, [], fun _ => rfl, rfl, rfl, .advance_exhausted token⟩
    | .error e :: rest =>
      exact ⟨[], .error (.refused e), rest, nofun, rfl, rfl, .advance_refused token e⟩
    | .ok next :: rest => exact ⟨[next], .ok (), rest, trivial, rfl, rfl, .advance_token token next⟩
  | @bind_ok _ _ reader next cursor after x m n _ read _ first second =>
    obtain ⟨tokens, ending, left, leaves, stream, rfl, ends⟩ := first
    obtain ⟨more, last, rest, leaves', stream', rfl, ends'⟩ := second
    have outcome := ends.outcome left leaves
    rw [← stream, read] at outcome
    cases ending with
    | error stop => cases outcome
    | ok y =>
      cases outcome
      refine ⟨tokens ++ more, last, rest, leaves', ?_, ?_, ends.bind_ok ends'⟩
      · rw [stream, List.map_append, List.append_assoc, ← stream']
        rfl
      · rw [List.length_append, Ending.asked]
        omega
  | @bind_error _ _ reader next cursor e m _ read first =>
    obtain ⟨tokens, ending, rest, leaves, stream, rfl, ends⟩ := first
    have outcome := ends.outcome rest leaves
    rw [← stream, read] at outcome
    cases ending with
    | ok x => cases outcome
    | error stop => exact ⟨tokens, .error stop, rest, leaves, stream, rfl, ends.bind_error⟩

theorem map_ok_inj {tokens more : List Token} :
    tokens.map (Except.ok : Token → Item) = more.map .ok ↔ tokens = more :=
  List.map_inj_right fun _ _ => Except.ok.inj

private theorem eq_take_of_append {tokens more : List Token} {rest rest' : List Item}
    (same : tokens.map Except.ok ++ rest = more.map Except.ok ++ rest')
    (short : tokens.length ≤ more.length) : more.take tokens.length = tokens := by
  have taken := congrArg (List.take tokens.length) same
  rw [List.take_append_of_le_length (by simp), List.take_append_of_le_length (by simpa using short),
    List.take_of_length_le (by simp), ← List.map_take] at taken
  exact map_ok_inj.mp taken.symm

private theorem length_le_of_refused {tokens more : List Token} {e : CompileError}
    {rest rest' : List Item}
    (same : tokens.map Except.ok ++ .error e :: rest = more.map Except.ok ++ rest') :
    more.length ≤ tokens.length := by
  refine Nat.not_lt.mp fun longer => ?_
  have item := congrArg (·[tokens.length]?) same
  simp [List.getElem?_append, longer] at item

private theorem Draws.le {m n : Nat} (first : Draws reader cursor m)
    (second : Draws reader cursor n) : n ≤ m := by
  obtain ⟨tokens, ending, rest, leaves, stream, rfl, ends⟩ := first.ends
  obtain ⟨more, last, rest', leaves', stream', rfl, ends'⟩ := second.ends
  rw [stream] at stream'
  refine Nat.not_lt.mp fun less => ?_
  -- By the second count an error after what the first one counts is returned.
  have refused := ends'.refuses _ less (.duplicateSymbol "") []
  have reach : tokens.length + ending.asked ≤ more.length := by
    have few := last.asked_le
    omega
  match ending with
  | .ok x =>
    change reader ⟨_, (more.take tokens.length).map .ok ++ _⟩ = _ at refused
    rw [eq_take_of_append stream' reach] at refused
    cases (ends.outcome _ trivial).symm.trans refused
  | .error (.fault cause) =>
    change reader ⟨_, (more.take tokens.length).map .ok ++ _⟩ = _ at refused
    rw [eq_take_of_append stream' reach] at refused
    cases (ends.outcome _ nofun).symm.trans refused
  | .error (.refused e) => exact Nat.not_lt.mpr (length_le_of_refused stream') reach
  | .error .exhausted =>
    obtain rfl := leaves rfl
    have whole : tokens.map Except.ok = more.map Except.ok ++ _ :=
      (List.append_nil _).symm.trans stream'
    have short := congrArg List.length whole
    rw [List.length_append, List.length_map, List.length_map] at short
    exact Nat.not_lt.mpr (short ▸ Nat.le_add_right _ _) reach

theorem Draws.unique {m n : Nat} (first : Draws reader cursor m) (second : Draws reader cursor n) :
    m = n :=
  Nat.le_antisymm (second.le first) (first.le second)

def Counts {α : Type} (reader : Parse α) : Prop := ∀ cursor, ∃ n, Draws reader cursor n

def Takes {α : Type} (reader : Parse α) : Prop :=
  ∀ cursor x after, reader cursor = .ok (x, after) → after.rest.length < cursor.rest.length

theorem exists_draws_bind (first : ∃ m, Draws reader cursor m)
    (second : ∀ x after, reader cursor = .ok (x, after) → ∃ n, Draws (next x) after n) :
    ∃ n, Draws (reader >>= next) cursor n := by
  obtain ⟨m, draws⟩ := first
  cases read : reader cursor with
  | error e => exact ⟨m, draws.bind_error read⟩
  | ok pair =>
    obtain ⟨n, draws'⟩ := second pair.1 pair.2 read
    exact ⟨m + n, draws.bind_ok read draws'⟩

namespace Counts

theorem pure (x : α) : Counts (Pure.pure x) := fun _ => ⟨0, .pure x _⟩

theorem current : Counts Parse.current := fun _ => ⟨0, .current _⟩

theorem fail (fault : SyntaxFault) : Counts (Parse.fail fault : Parse α) :=
  fun _ => ⟨0, .fail fault _⟩

theorem advance : Counts Parse.advance := fun _ => ⟨1, .advance _⟩

theorem bind (first : Counts reader) (second : ∀ x, Counts (next x)) :
    Counts (reader >>= next) :=
  fun cursor => exists_draws_bind (first cursor) fun x after _ => second x after

theorem map (make : α → β) (counts : Counts reader) : Counts (make <$> reader) := by
  rw [map_eq_pure_bind]
  exact counts.bind fun x => .pure _

theorem length_le {x : α} {after : Cursor} (counts : Counts reader)
    (read : reader cursor = .ok (x, after)) : after.rest.length ≤ cursor.rest.length := by
  obtain ⟨n, draws⟩ := counts cursor
  obtain ⟨tokens, ending, rest, leaves, stream, -, ends⟩ := draws.ends
  have outcome := ends.outcome rest leaves
  rw [← stream, read] at outcome
  cases ending with
  | error stop => cases outcome
  | ok y =>
    cases outcome
    rw [stream, ← List.append_assoc]
    exact List.length_append ▸ Nat.le_add_left _ _

end Counts

theorem Reads.takes {goes : α → List Token → Prop} (reads : Reads reader goes)
    (some : ∀ x, ¬goes x []) : Takes reader := by
  intro cursor x after action
  obtain ⟨ts, here, rfl⟩ := reads _ _ _ action
  cases ts with
  | nil => exact absurd here (some x)
  | cons token ts =>
    rw [Cursor.length_rest_before, List.length_cons]
    omega

theorem Takes.bind (first : Takes reader) (second : ∀ x, Counts (next x)) :
    Takes (reader >>= next) := by
  intro cursor y after action
  obtain ⟨x, middle, read, rest⟩ := bind_eq_ok.mp action
  exact Nat.lt_of_le_of_lt ((second x).length_le rest) (first _ _ _ read)

section Repetition

variable {test : Token → Bool} {phrase : Parse α}

private theorem rounds_other (other : test cursor.token = false) (bound : List Item)
    (done : List α) : rounds test phrase bound done cursor = .ok (done.reverse, cursor) := by
  cases bound
  all_goals
    rw [rounds, bind_of (current_of _), other]
    rfl

private theorem rounds_error {e : CompileError} (passes : test cursor.token = true)
    (failed : phrase cursor = .error e) (bound : List Item) (done : List α) :
    rounds test phrase bound done cursor = .error e := by
  cases bound
  all_goals
    rw [rounds, bind_of (current_of _), if_pos passes]
    exact bind_of_error failed

private theorem rounds_cons {x : α} {after : Cursor} (passes : test cursor.token = true)
    (read : phrase cursor = .ok (x, after)) (item : Item) (bound : List Item) (done : List α) :
    rounds test phrase (item :: bound) done cursor =
      rounds test phrase bound (x :: done) after := by
  rw [rounds, bind_of (current_of _), if_pos passes, bind_of read]

/-- What was read before only comes first, and a bound that leaves a round for each item is no
bound. -/
private theorem rounds_eq (takes : Takes phrase) (done : List α) (bound : List Item)
    (enough : cursor.rest.length ≤ bound.length) :
    rounds test phrase bound done cursor =
      (repeatWhile test phrase cursor).map fun pair => (done.reverse ++ pair.1, pair.2) := by
  change _ = (rounds test phrase cursor.rest [] cursor).map _
  induction size : cursor.rest.length using Nat.strongRecOn generalizing cursor done bound with
  | _ size ih =>
  subst size
  cases passes : test cursor.token with
  | false =>
    rw [rounds_other passes, rounds_other passes]
    simp [Except.map]
  | true =>
    cases read : phrase cursor with
    | error e =>
      rw [rounds_error passes read, rounds_error passes read]
      rfl
    | ok pair =>
      obtain ⟨x, after⟩ := pair
      have less := takes _ _ _ read
      obtain ⟨token, rest⟩ := cursor
      match rest, bound with
      | [], _ => exact absurd less (Nat.not_lt_zero _)
      | _ :: _, [] => exact absurd enough (Nat.not_succ_le_zero _)
      | _ :: rest, _ :: bound =>
        have short : after.rest.length ≤ rest.length := Nat.le_of_lt_succ less
        rw [rounds_cons passes read, rounds_cons passes read,
          ih _ less (x :: done) bound (Nat.le_trans short (Nat.le_of_succ_le_succ enough)) rfl,
          ih _ less [x] rest short rfl]
        cases rounds test phrase after.rest [] after with
        | error e => rfl
        | ok pair => simp [Except.map]

theorem repeatWhile_eq (takes : Takes phrase) :
    repeatWhile test phrase = do
      if test (← current) then
        let first ← phrase
        return first :: (← repeatWhile test phrase)
      else
        return [] := by
  funext cursor
  rw [bind_of (current_of _)]
  change rounds test phrase cursor.rest [] cursor = _
  cases passes : test cursor.token with
  | false => exact rounds_other passes _ _
  | true =>
    rw [if_pos rfl]
    cases read : phrase cursor with
    | error e => rw [rounds_error passes read, bind_of_error read]
    | ok pair =>
      obtain ⟨x, after⟩ := pair
      have less := takes _ _ _ read
      obtain ⟨token, rest⟩ := cursor
      match rest with
      | [] => exact absurd less (Nat.not_lt_zero _)
      | _ :: rest =>
        rw [rounds_cons passes read, bind_of read,
          rounds_eq takes [x] rest (Nat.le_of_lt_succ less)]
        change _ = (repeatWhile test phrase after >>= fun pair => _)
        cases repeatWhile test phrase after with
        | error e => rfl
        | ok pair => rfl

theorem Counts.repeatWhile (counts : Counts phrase) (takes : Takes phrase) :
    Counts (repeatWhile test phrase) := by
  intro cursor
  induction size : cursor.rest.length using Nat.strongRecOn generalizing cursor with
  | _ size ih =>
  subst size
  rw [repeatWhile_eq takes]
  refine exists_draws_bind ⟨0, .current _⟩ fun token after same => ?_
  cases same
  split
  · -- The rounds after the first one start with fewer items left.
    refine exists_draws_bind (counts _) fun x after read => ?_
    exact exists_draws_bind (ih _ (takes _ _ _ read) after rfl) fun more after _ => ⟨0, .pure _ _⟩
  · exact ⟨0, .pure _ _⟩

end Repetition

end Parse

end JackCompiler
