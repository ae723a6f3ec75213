import JackCompiler.Proofs.Growth.Planting
import JackCompiler.Proofs.Growth.Reader
import JackCompiler.Proofs.Phrase.Drawing

/-!
# Productions that mirror readers

A production mirrors a reader of phrases if it fails where that one fails, and else moves as far in
the stream, leaves the depth as it was and plants the trees of what that one returns. The rules here
put productions together in the way in which readers are put together.
-/

namespace JackCompiler

variable {α β γ δ : Type}

/-! ## Rows of trees -/

namespace Numbering

def single (tree : Numbering Tree) : Numbering (List Tree) := do
  return [← tree]

def both (first second : Numbering (List Tree)) : Numbering (List Tree) := do
  let first ← first
  return first ++ (← second)

def many (trees : α → Numbering (List Tree)) : List α → Numbering (List Tree)
  | [] => return []
  | x :: xs => both (trees x) (many trees xs)

def under (kind : NodeKind) (children : Numbering (List Tree)) : Numbering Tree := do
  let number ← nextNumber
  return .node number kind none (← children)

def taking (kind : NodeKind) (first : Numbering Tree) (rest : Numbering (List Tree)) :
    Numbering Tree := do
  let first ← first
  let number ← nextNumber
  return .node number kind none (first :: (← rest))

theorem both_assoc (first second third : Numbering (List Tree)) :
    both (both first second) third = both first (both second third) := by
  funext number
  simp [both]

theorem both_none (trees : Numbering (List Tree)) : both trees (return []) = trees := by
  funext number
  simp [both]

theorem none_both (trees : Numbering (List Tree)) : both (return []) trees = trees := rfl

theorem many_concat (trees : α → Numbering (List Tree)) (xs : List α) (x : α) :
    many trees (xs ++ [x]) = both (many trees xs) (trees x) := by
  induction xs with
  | nil => exact both_none _
  | cons first xs ih => rw [List.cons_append, many, ih, many, both_assoc]

theorem collects {loop : List α → List Tree → Numbering (List Tree)}
    {trees : α → Numbering (List Tree)} (nil : ∀ done, loop [] done = return done.reverse)
    (cons : ∀ x xs done, loop (x :: xs) done = do
      let row ← trees x
      loop xs (row.reverse ++ done))
    (xs : List α) (done : List Tree) :
    loop xs done = both (return done.reverse) (many trees xs) := by
  induction xs generalizing done with
  | nil => rw [nil, many, both_none]
  | cons x xs ih =>
    rw [cons]
    funext number
    simp [ih, both, many]

end Numbering

open JackCompiler.Numbering (single both many under taking)

/-! ## Planting rows -/

def Plants (trees : Numbering (List Tree)) (before after : Forest) (parent : Nat) : Prop :=
  before.Planted after parent (trees before.size).1 ∧ after.size = (trees before.size).2

namespace Plants

variable {before middle after forest : Forest} {parent node : Nat} {kind : NodeKind}
  {trees more rest : Numbering (List Tree)} {first : Numbering Tree}

theorem parent_lt (plants : Plants trees before after parent) : parent < after.size :=
  plants.1.parent_lt.trans_le plants.1.adds.size_le

theorem none (there : parent < forest.size) : Plants (return []) forest forest parent :=
  ⟨.nil there, rfl⟩

theorem both (one : Plants trees before middle parent) (two : Plants more middle after parent) :
    Plants (both trees more) before after parent := by
  obtain ⟨planted, size⟩ := one
  obtain ⟨planted', size'⟩ := two
  rw [size] at planted' size'
  exact ⟨planted.append planted', size'⟩

theorem leaf (there : parent < forest.size) (kind : NodeKind) (token : Token) :
    Plants (single (leaf kind token)) forest (forest.add (some parent) kind (some token)) parent :=
  ⟨.leaf there kind (some token), Forest.size_add ..⟩

theorem under (there : parent < forest.size)
    (inner : Plants trees (forest.add (some parent) kind .none) after forest.size) :
    Plants (single (under kind trees)) forest after parent := by
  obtain ⟨planted, size⟩ := inner
  rw [Forest.size_add] at planted size
  have whole : Forest.Planted forest _ parent ([] ++ [.node forest.size kind .none []]) :=
    .leaf there kind .none
  exact ⟨whole.deepen planted, size⟩

theorem behind (bare : before.children parent = [])
    (done : Plants (Numbering.both trees (single first)) before middle parent)
    (inner : Plants rest ((middle.add (some parent) kind .none).adopt middle.size
      (first (trees before.size).2).1.number) after middle.size) :
    Plants (Numbering.both trees (single (taking kind first rest))) before after parent := by
  have there := done.parent_lt
  obtain ⟨planted, size⟩ := done
  obtain ⟨planted', size'⟩ := inner
  rw [Forest.size_adopt, Forest.size_add] at planted' size'
  have beside := planted.append (.leaf there kind .none)
  have above : before.Planted _ parent ((trees before.size).1 ++
      [.node middle.size kind .none [(first (trees before.size).2).1]]) :=
    .adopt (by simpa [Numbering.both, single] using beside) bare rfl
  have whole := above.deepen planted'
  rw [size] at whole size'
  exact ⟨whole, size'⟩

end Plants

/-! ## Taking a token -/

namespace Parse

variable {test : Token → Bool} {cursor : Cursor}

theorem accept_bind (passes : test cursor.token = true) (next : Option (TokenWith test) → Parse γ) :
    (accept test >>= next) cursor = (advance >>= fun _ => next (some ⟨_, passes⟩)) cursor := by
  have first : accept test cursor = (advance >>= fun _ => pure (some ⟨_, passes⟩)) cursor := by
    change (if passes : test cursor.token = true then _ else _ : Parse _) cursor = _
    rw [dif_pos passes]
  cases drawn : advance cursor with
  | error e =>
    rw [bind_of_error drawn]
    exact bind_of_error (first.trans (bind_of_error drawn))
  | ok pair =>
    rw [bind_of drawn]
    exact bind_of (first.trans (bind_of drawn))

theorem expect_bind {values : List String} (passes : cursor.token.isOneOf values = true)
    (next : Word values → Parse γ) :
    (expect values >>= next) cursor = (advance >>= fun _ => next ⟨_, passes⟩) cursor := by
  rw [expect, bind_assoc, accept_bind passes]
  rfl

theorem accept_bind_none (fails : test cursor.token = false)
    (next : Option (TokenWith test) → Parse γ) :
    (accept test >>= next) cursor = next none cursor :=
  bind_of (accept_none fails)

end Parse

/-! ## Mirroring -/

/-- A run that grows a forest against a run that reads: it fails with the same error, or stops at
the same place with a result that suits. -/
def Mirrors (grown : Except CompileError (β × Growth)) (read : Except CompileError (α × Cursor))
    (suits : α → β → Growth → Prop) : Prop :=
  match read with
  | .error e => grown = .error e
  | .ok (x, cursor) => ∃ y after, grown = .ok (y, after) ∧ after.cursor = cursor ∧ suits x y after

namespace Mirrors

variable {work : Growing β} {onward : β → Growing δ} {reader : Parse α} {next : α → Parse γ}
  {state : Growth} {cursor : Cursor} {suits : α → β → Growth → Prop}

theorem bind {suits' : γ → δ → Growth → Prop}
    (first : Mirrors (work state) (reader cursor) suits)
    (second : ∀ x y after, suits x y after →
      Mirrors (onward y after) (next x after.cursor) suits') :
    Mirrors ((work >>= onward) state) ((reader >>= next) cursor) suits' := by
  change Mirrors (work state >>= fun pair => onward pair.1 pair.2)
    (reader cursor >>= fun pair => next pair.1 pair.2) suits'
  cases read : reader cursor with
  | error e =>
    rw [read] at first
    rw [show work state = .error e from first]
    rfl
  | ok pair =>
    obtain ⟨x, cursor⟩ := pair
    rw [read] at first
    obtain ⟨y, after, grown, rfl, suits⟩ := first
    rw [grown]
    exact second x y after suits

theorem ok {x : α} {y : β} (here : suits x y state) :
    Mirrors (.ok (y, state)) (.ok (x, state.cursor)) suits :=
  ⟨y, state, rfl, rfl, here⟩

theorem mono {grown : Except CompileError (β × Growth)} {read : Except CompileError (α × Cursor)}
    {weaker : α → β → Growth → Prop} (mirrors : Mirrors grown read suits)
    (imp : ∀ x y after, suits x y after → weaker x y after) : Mirrors grown read weaker := by
  cases read with
  | error e => exact mirrors
  | ok pair =>
    obtain ⟨y, after, grown, same, suits⟩ := mirrors
    exact ⟨y, after, grown, same, imp _ _ _ suits⟩

theorem andThen {suits' : α → δ → Growth → Prop}
    (first : Mirrors (work state) (reader cursor) suits)
    (second : ∀ x y after, suits x y after → ∃ z last, onward y after = .ok (z, last) ∧
      last.cursor = after.cursor ∧ suits' x z last) :
    Mirrors ((work >>= onward) state) (reader cursor) suits' := by
  rw [← bind_pure reader]
  refine first.bind fun x y after suits => ?_
  obtain ⟨z, last, grown, same, suits⟩ := second x y after suits
  exact ⟨z, last, grown, same, suits⟩

theorem returning {suits' : γ → β → Growth → Prop} {f : α → γ}
    (mirrors : Mirrors (work state) (reader cursor) suits)
    (imp : ∀ x y after, suits x y after → suits' (f x) y after) :
    Mirrors (work state) ((reader >>= fun x => pure (f x)) cursor) suits' := by
  rw [← bind_pure work]
  exact mirrors.bind fun x y after suits => .ok (imp x y after suits)

theorem alternative {test : Token → Bool} {yes no : Growing β}
    {next : Option (TokenWith test) → Parse α}
    (one : test state.cursor.token = true →
      Mirrors (yes state) ((Parse.accept test >>= next) state.cursor) suits)
    (other : test state.cursor.token = false → Mirrors (no state) (next none state.cursor) suits) :
    Mirrors ((if test state.cursor.token then yes else no : Growing β) state)
      ((Parse.accept test >>= next) state.cursor) suits := by
  split
  · next passes => exact one passes
  · next fails =>
    rw [Parse.accept_bind_none (Bool.eq_false_iff.mpr fails)]
    exact other (Bool.eq_false_iff.mpr fails)

theorem terminal (state : Growth) (real : state.cursor.token.kind ≠ .eof) (parent : Nat)
    (kind : NodeKind) :
    Mirrors (Growing.terminal parent kind state) (Parse.advance state.cursor) fun _ node after =>
      node = state.forest.size ∧ after.depth = state.depth ∧
        after.forest = state.forest.add (some parent) kind (some state.cursor.token) := by
  obtain ⟨⟨token, rest⟩, forest, depth⟩ := state
  have run : Growing.terminal parent kind ⟨⟨token, rest⟩, forest, depth⟩ = (do
      let advanced ← Growing.advance
        ⟨⟨token, rest⟩, forest.add (some parent) kind (some token), depth⟩
      return (forest.size, advanced.2)) := by
    change (if token.kind = .eof then Growing.fail .endOfFile else _ : Growing Nat) _ = _
    rw [if_neg real]
    rfl
  rw [run]
  cases rest with
  | nil => rfl
  | cons item rest =>
    cases item with
    | error e => rfl
    | ok next => exact ⟨_, _, rfl, rfl, rfl, rfl, rfl⟩

end Mirrors

/-! ## Productions -/

/-- A production that plants the trees of what a reader reads. -/
def Grows (depth : Nat) (work : Nat → Growing β) (reader : Parse α)
    (trees : α → Numbering (List Tree)) : Prop :=
  ∀ parent state, parent < state.forest.size → state.depth = depth →
    Mirrors (work parent state) (reader state.cursor) fun x _ after =>
      after.depth = depth ∧ Plants (trees x) state.forest after.forest parent

structure Made (depth : Nat) (tree : Numbering Tree) (before : Forest) (parent node : Nat)
    (after : Growth) : Prop where
  first : node = before.size
  root : (tree before.size).1.number = before.size
  level : after.depth = depth
  plants : Plants (single tree) before after.forest parent

def Makes (depth : Nat) (work : Nat → Growing Nat) (reader : Parse α)
    (tree : α → Numbering Tree) : Prop :=
  ∀ parent state, parent < state.forest.size → state.depth = depth →
    Mirrors (work parent state) (reader state.cursor) fun x =>
      Made depth (tree x) state.forest parent

/-- The rest of a production, with some trees planted under the node already. -/
def Continues (depth node : Nat) (base : Forest) (done : Numbering (List Tree)) (work : Growing β)
    (reader : Parse α) (suits : α → Numbering (List Tree) → Prop) : Prop :=
  ∀ state, state.depth = depth → Plants done base state.forest node →
    Mirrors (work state) (reader state.cursor) fun x _ after =>
      after.depth = depth ∧ ∃ trees, suits x trees ∧ Plants trees base after.forest node

theorem Makes.grows {depth : Nat} {work : Nat → Growing Nat} {reader : Parse α}
    {tree : α → Numbering Tree} (makes : Makes depth work reader tree) :
    Grows depth work reader fun x => single (tree x) := fun parent state there level =>
  (makes parent state there level).mono fun _ _ _ made => ⟨made.level, made.plants⟩

theorem Grows.of_continues {depth : Nat} {work : Nat → Growing β} {reader : Parse α}
    {trees : α → Numbering (List Tree)}
    (continues : ∀ node base, Continues depth node base (return []) (work node) reader
      fun x row => row = trees x) : Grows depth work reader trees := by
  intro parent state there level
  refine (continues parent state.forest state level (.none there)).mono fun x _ after => ?_
  rintro ⟨same, row, rfl, plants⟩
  exact ⟨same, plants⟩

theorem Makes.within {depth : Nat} {kind : NodeKind} {fill : Nat → Growing β} {reader : Parse α}
    {tree : α → Numbering Tree}
    (continues : ∀ node base, base.children node = [] →
      Continues depth node base (return []) (fill node) reader
        fun x row => under kind row = tree x) :
    Makes depth (Growing.within kind fill) reader tree := by
  intro parent state there level
  let forest := state.forest.add (some parent) kind none
  have bare : forest.children state.forest.size = [] :=
    Forest.children_of_node? (Forest.node?_add_size there kind none)
  have started := continues state.forest.size forest bare { state with forest } level
    (.none (by simp [forest, Forest.size_add]))
  change Mirrors ((fill state.forest.size >>= fun _ => pure state.forest.size)
    { state with forest }) _ _
  refine started.andThen fun x y after => ?_
  rintro ⟨same, row, suits, plants⟩
  rw [← suits]
  exact ⟨_, after, rfl, rfl, rfl, rfl, same, .under there plants⟩

/-! ## Single tokens -/

theorem Token.kind_of_isOneOf {values : List String} {token : Token}
    (one : token.isOneOf values = true) : token.kind = .keyword ∨ token.kind = .symbol := by
  rw [Token.isOneOf, Bool.and_eq_true, Bool.or_eq_true, beq_iff_eq, beq_iff_eq] at one
  exact one.1

theorem Token.ne_eof_of_isOneOf {values : List String} {token : Token}
    (one : token.isOneOf values = true) : token.kind ≠ .eof := by
  rcases Token.kind_of_isOneOf one with kind | kind <;> simp [kind]

theorem Token.kind_of_isName {token : Token} (name : token.isName = true) :
    token.kind = .identifier :=
  eq_of_beq name

theorem Token.isMemberName_iff {token : Token} :
    token.isMemberName = true ↔ token.kind = .identifier ∨ token.kind = .keyword := by
  simp [Token.isMemberName]

namespace Growing

variable {state : Growth}

theorem bind_at {work work' : Growing β} (same : work state = work' state)
    (onward : β → Growing δ) : (work >>= onward) state = (work' >>= onward) state := by
  change (work state >>= fun pair => onward pair.1 pair.2) = _
  rw [same]
  rfl

theorem current_bind (next : Token → Growing β) (state : Growth) :
    (current >>= next) state = next state.cursor.token state := rfl

theorem nest_bind (room : state.depth < maxNesting) (phrase : NestedPhrase)
    (next : Unit → Growing β) :
    (nest phrase >>= next) state = next () { state with depth := state.depth + 1 } := by
  have enters : nest phrase state = .ok ((), { state with depth := state.depth + 1 }) :=
    if_neg (by omega)
  change (nest phrase state >>= fun pair => next pair.1 pair.2) = _
  rw [enters]
  rfl

theorem nest_bind_of_full (full : maxNesting ≤ state.depth) (phrase : NestedPhrase)
    (next : Unit → Growing β) : (nest phrase >>= next) state =
      .error (.syntactic state.cursor.token.line (.nestedTooDeeply phrase)) := by
  have stops : nest phrase state =
      .error (.syntactic state.cursor.token.line (.nestedTooDeeply phrase)) :=
    if_pos (by omega)
  change (nest phrase state >>= fun pair => next pair.1 pair.2) = _
  rw [stops]
  rfl

theorem consume_of_isOneOf {values : List String}
    (one : state.cursor.token.isOneOf values = true) (parent : Nat) :
    consume parent state =
      terminal parent (if state.cursor.token.kind = .keyword then .keyword else .symbol) state := by
  rw [consume, current_bind]
  rcases Token.kind_of_isOneOf one with kind | kind <;> rw [kind] <;> rfl

end Growing

theorem Makes.leaf {depth : Nat} {test : Token → Bool} (kind : Token → NodeKind)
    {work : Nat → Growing Nat} {next : Option (TokenWith test) → Parse (TokenWith test)}
    (real : ∀ token, test token = true → token.kind ≠ .eof)
    (taken : ∀ parent state, test state.cursor.token = true →
      work parent state = Growing.terminal parent (kind state.cursor.token) state)
    (found : ∀ word, next (some word) = pure word)
    (missing : ∀ parent state, test state.cursor.token = false →
      ∃ e, work parent state = .error e ∧ next none state.cursor = .error e) :
    Makes depth work (Parse.accept test >>= next) fun word => leaf (kind word.val) word.val := by
  intro parent state there level
  by_cases passes : test state.cursor.token = true
  · rw [Parse.accept_bind passes, found, taken parent state passes]
    refine (Mirrors.terminal state (real _ passes) parent _).returning fun _ node after => ?_
    rintro ⟨rfl, same, grown⟩
    exact ⟨rfl, rfl, same.trans level, grown ▸ .leaf there _ _⟩
  · obtain ⟨e, grown, read⟩ := missing parent state (Bool.not_eq_true _ ▸ passes)
    rw [Parse.accept_bind_none (Bool.not_eq_true _ ▸ passes), grown, read]
    rfl

theorem Grows.behind {depth : Nat} {fill : Nat → Growing β} {reader : Parse α}
    {trees : α → Numbering (List Tree)} (body : Grows depth fill reader trees) (kind : NodeKind)
    (moved parent : Nat) (state : Growth) (level : state.depth = depth) :
    Mirrors (Growing.behind kind fill parent moved state) (reader state.cursor) fun x node after =>
      node = state.forest.size ∧ after.depth = depth ∧
        Plants (trees x) ((state.forest.add (some parent) kind none).adopt state.forest.size moved)
          after.forest state.forest.size := by
  let forest := (state.forest.add (some parent) kind none).adopt state.forest.size moved
  change Mirrors ((fill state.forest.size >>= fun _ => pure state.forest.size)
    { state with forest }) _ _
  have bound : state.forest.size < forest.size := by
    simp [forest, Forest.size_adopt, Forest.size_add]
  refine (body state.forest.size { state with forest } bound level).andThen fun x y after => ?_
  rintro ⟨same, plants⟩
  exact ⟨_, after, rfl, rfl, rfl, same, plants⟩

theorem expect_makes (depth : Nat) (values : List String) :
    Makes depth (Growing.expect values) (Parse.expect values) fun word => wordLeaf word.val := by
  refine .leaf (fun token => if token.kind = .keyword then .keyword else .symbol)
    (fun token one => Token.ne_eof_of_isOneOf one) (fun parent state one => ?_) (fun _ => rfl)
    fun parent state none => ?_
  · rw [Growing.expect, Growing.current_bind, if_pos one, Growing.consume_of_isOneOf one]
  · refine ⟨_, ?_, rfl⟩
    rw [Growing.expect, Growing.current_bind, none, if_neg Bool.false_ne_true]
    rfl

theorem identifier_makes (depth : Nat) :
    Makes depth Growing.identifier Parse.name fun word => nameLeaf word.val := by
  refine .leaf (fun _ => .identifier) (fun token name => ?_) (fun parent state name => ?_)
    (fun _ => rfl) fun parent state none => ?_
  · simp [Token.kind_of_isName name]
  · rw [Growing.identifier, Growing.current_bind, if_pos name]
  · refine ⟨_, ?_, rfl⟩
    rw [Growing.identifier, Growing.current_bind, none, if_neg Bool.false_ne_true]
    rfl

theorem memberName_makes (depth : Nat) :
    Makes depth Growing.memberName Parse.memberName fun word => nameLeaf word.val := by
  refine .leaf (fun _ => .identifier) (fun token name => ?_) (fun parent state name => ?_)
    (fun _ => rfl) fun parent state none => ?_
  · rcases Token.isMemberName_iff.mp name with kind | kind <;> simp [kind]
  · rw [Growing.memberName, Growing.current_bind]
    split
    · rfl
    · next other =>
      have kind := (Token.isMemberName_iff.mp name).resolve_right other
      rw [Growing.identifier, Growing.current_bind, if_pos (by simp [Token.isName, kind])]
  · have none := mt Token.isMemberName_iff.mpr (Bool.eq_false_iff.mp none)
    rw [not_or] at none
    refine ⟨_, ?_, rfl⟩
    rw [Growing.memberName, Growing.current_bind, if_neg none.2, Growing.identifier,
      Growing.current_bind, if_neg (by simp [Token.isName, none.1])]
    rfl

/-! ## Sequences -/

namespace Continues

variable {depth node : Nat} {base : Forest} {done : Numbering (List Tree)}
  {reader : Parse α} {next : α → Parse γ} {trees : α → Numbering (List Tree)}
  {suits : α → Numbering (List Tree) → Prop} {suits' : γ → Numbering (List Tree) → Prop}

theorem step {work : Nat → Growing β} {onward : β → Growing δ}
    (first : Grows depth work reader trees)
    (rest : ∀ x y, Continues depth node base (both done (trees x)) (onward y) (next x) suits') :
    Continues depth node base done (work node >>= onward) (reader >>= next) suits' := by
  intro state level plants
  refine (first node state plants.parent_lt level).bind fun x y after => ?_
  rintro ⟨same, more⟩
  exact rest x y after same (plants.both more)

theorem finish {x : α} {y : β} (here : suits x done) :
    Continues depth node base done (pure y) (pure x) suits := fun _ level plants =>
  .ok ⟨level, done, here, plants⟩

theorem last {work : Nat → Growing β} {f : α → γ} (first : Grows depth work reader trees)
    (here : ∀ x, suits' (f x) (both done (trees x))) :
    Continues depth node base done (work node) (reader >>= fun x => pure (f x)) suits' := by
  rw [← bind_pure (work node)]
  exact step first fun x _ => finish (here x)

theorem whole {work : Nat → Growing β} (first : Grows depth work reader trees)
    (here : ∀ x, suits x (both done (trees x))) :
    Continues depth node base done (work node) reader suits := by
  rw [← bind_pure reader]
  exact last first here

theorem discard {work : Growing β} (continues : Continues depth node base done work reader suits) :
    Continues depth node base done (discard work) reader suits := fun state level plants =>
  (continues state level plants).andThen fun _ _ after here => ⟨(), after, rfl, rfl, here⟩

theorem branch {test : Token → Bool} {yes no : Growing β} {reader' : Parse α}
    (one : Continues depth node base done yes reader suits)
    (other : Continues depth node base done no reader' suits) :
    Continues depth node base done
      (Growing.current >>= fun token => if test token then yes else no)
      (Parse.current >>= fun token => if test token then reader else reader') suits := by
  intro state level plants
  change Mirrors ((if test state.cursor.token then yes else no : Growing β) state)
    ((if test state.cursor.token then reader else reader' : Parse α) state.cursor) _
  split
  · exact one state level plants
  · exact other state level plants

/-! ### Taking tokens -/

theorem taken {test : Token → Bool} {kind : NodeKind} {onward : Nat → Growing β}
    {next : Option (TokenWith test) → Parse γ} {state : Growth}
    (level : state.depth = depth) (plants : Plants done base state.forest node)
    (passes : test state.cursor.token = true) (real : state.cursor.token.kind ≠ .eof)
    (rest : Continues depth node base (both done (single (leaf kind state.cursor.token)))
      (onward state.forest.size) (next (some ⟨_, passes⟩)) suits') :
    Mirrors ((Growing.terminal node kind >>= onward) state)
      ((Parse.accept test >>= next) state.cursor) fun x _ after =>
        after.depth = depth ∧ ∃ trees, suits' x trees ∧ Plants trees base after.forest node := by
  rw [Parse.accept_bind passes]
  refine (Mirrors.terminal state real node kind).bind fun _ y after => ?_
  rintro ⟨rfl, same, grown⟩
  refine rest after (same.trans level) ?_
  rw [grown]
  exact plants.both (.leaf plants.parent_lt kind _)

theorem accept {values : List String} {yes no : Growing β}
    {next : Option (Word values) → Parse γ}
    (one : ∀ word : Word values, Continues depth node base (both done (single (wordLeaf word.val)))
      yes (next (some word)) suits')
    (other : Continues depth node base done no (next none) suits') :
    Continues depth node base done
      (Growing.accept values node >>= fun taken => if taken then yes else no)
      (Parse.accept (Token.isOneOf values) >>= next) suits' := by
  intro state level plants
  by_cases passes : state.cursor.token.isOneOf values = true
  · have run : (Growing.accept values node >>= fun taken => if taken then yes else no) state =
        (Growing.consume node >>= fun _ => yes) state := by
      have first : Growing.accept values node state =
          (Growing.consume node >>= fun _ => pure true) state := by
        rw [Growing.accept, Growing.current_bind, if_pos passes]
      rw [Growing.bind_at first, bind_assoc]
      rfl
    rw [run, Growing.bind_at (Growing.consume_of_isOneOf passes node)]
    exact taken level plants passes (Token.ne_eof_of_isOneOf passes) (one ⟨_, passes⟩)
  · have run : (Growing.accept values node >>= fun taken => if taken then yes else no) state =
        no state := by
      refine (Growing.bind_at ?_ _).trans (congrFun (pure_bind false _) state)
      rw [Growing.accept, Growing.current_bind, if_neg passes]
    rw [run, Parse.accept_bind_none (Bool.eq_false_iff.mpr passes)]
    exact other state level plants

theorem ahead {values : List String} {yes no : Growing β} {next : Option (Word values) → Parse γ}
    (one : Continues depth node base done yes
      (Parse.expect values >>= fun word => next (some word)) suits')
    (other : Continues depth node base done no (next none) suits') :
    Continues depth node base done
      (Growing.current >>= fun token => if token.isOneOf values then yes else no)
      (Parse.accept (Token.isOneOf values) >>= next) suits' := by
  refine fun state level plants => .alternative (fun passes => ?_) fun _ => other state level plants
  have read := one state level plants
  rwa [Parse.expect_bind passes, ← Parse.accept_bind passes] at read

theorem named {onward : Nat → Growing δ} {next : Name → Parse γ}
    (rest : ∀ name : Name, Continues depth node base (both done (single (nameLeaf name.val)))
      (onward (done base.size).2) (next name) suits') :
    Continues depth node base done (Growing.identifier node >>= onward) (Parse.name >>= next)
      suits' := by
  intro state level plants
  refine (identifier_makes depth node state plants.parent_lt level).bind
    fun name number after made => ?_
  have numbered := rest name after made.level (plants.both made.plants)
  rwa [← plants.2, ← made.first] at numbered

theorem behind {kind : NodeKind} {name : Token} {fill : Nat → Growing β} {onward : Nat → Growing δ}
    (bare : base.children node = []) (body : Grows depth fill reader trees)
    (rest : ∀ x y, Continues depth node base
      (both done (single (taking kind (nameLeaf name) (trees x)))) (onward y) (next x) suits') :
    Continues depth node base (both done (single (nameLeaf name)))
      (Growing.behind kind fill node (done base.size).2 >>= onward) (reader >>= next) suits' := by
  intro state level plants
  refine (body.behind kind (done base.size).2 node state level).bind fun x y after => ?_
  rintro ⟨-, same, more⟩
  exact rest x y after same (.behind bare plants more)

/-! ### Repetition -/

theorem rounds {work : Nat → Growing β} (each : Grows depth work reader trees)
    (test : Token → Bool) (done : Numbering (List Tree)) (bound : List Item) (xs : List α) :
    Continues depth node base (both done (many trees xs.reverse))
      (Growing.rounds test (work node) bound) (Parse.rounds test reader bound xs)
      fun all row => row = both done (many trees all) := by
  have longer (xs : List α) (x : α) : both (both done (many trees xs.reverse)) (trees x) =
      both done (many trees (x :: xs).reverse) := by
    rw [List.reverse_cons, Numbering.many_concat, Numbering.both_assoc]
  -- Both loops run by the same bound, so that no count of rounds is needed.
  induction bound generalizing xs with
  | nil => exact branch (discard (last each (longer xs))) (finish rfl)
  | cons item bound ih =>
    refine branch (step each fun x y => ?_) (finish rfl)
    rw [longer xs x]
    exact ih (x :: xs)

end Continues

section

variable {depth : Nat} {work : Nat → Growing β} {reader : Parse α}
  {trees : α → Numbering (List Tree)}

theorem Grows.repeatWhile (each : Grows depth work reader trees) (test : Token → Bool) :
    Grows depth (Growing.repeatWhile test work) (Parse.repeatWhile test reader) (many trees) :=
  .of_continues fun _ _ state level plants =>
    Continues.rounds each test (return []) state.cursor.rest [] state level plants

theorem Grows.afterCommas (each : Grows depth work reader trees) :
    Grows depth (Growing.afterCommas work) (Parse.afterCommas reader)
      (many fun pair => both (single (wordLeaf pair.1.val)) (trees pair.2)) := by
  refine .repeatWhile (.of_continues fun node base => ?_) _
  exact .step (expect_makes depth [","]).grows fun comma _ => .last each fun _ => rfl

theorem Makes.nested {tree : α → Numbering Tree} {work : Nat → Growing Nat}
    (makes : Makes (depth + 1) work reader tree) (room : depth < maxNesting)
    (phrase : NestedPhrase) : Makes depth (Growing.nested phrase work) reader tree := by
  intro parent state there level
  rw [Growing.nested, Growing.nest_bind (by omega)]
  refine (makes parent { state with depth := state.depth + 1 } there (by simp [level])).andThen
    fun x node after made => ?_
  exact ⟨node, { after with depth := after.depth - 1 }, rfl, rfl, made.first, made.root,
    by simp [made.level], made.plants⟩

end

end JackCompiler
