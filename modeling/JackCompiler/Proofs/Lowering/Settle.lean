import JackCompiler.Lowering.Visit

namespace JackCompiler.Lowering

def settle {α : Type} (faults : List CompileError) (x : α) : Lower α :=
  match faults with
  | [] => .ok x
  | e :: _ => .error e

section Settle

variable {α β : Type} {faults more : List CompileError} {x : α} {y : β}

@[simp]
theorem settle_nil : settle [] x = .ok x := rfl

theorem settle_bind {next : α → Lower β} (rest : next x = settle more y) :
    settle faults x >>= next = settle (faults ++ more) y := by
  cases faults with
  | nil => exact rest
  | cons e faults => rfl

theorem settle_bind_ok {next : α → Lower β} (rest : next x = .ok y) :
    settle faults x >>= next = settle faults y := by
  rw [settle_bind (rest.trans settle_nil.symm), List.append_nil]

theorem settle_bind_pure (f : α → β) :
    (settle faults x >>= fun x => pure (f x)) = settle faults (f x) :=
  settle_bind_ok rfl

theorem settle_eq_ok {other : α} : settle faults x = .ok other ↔ faults = [] ∧ x = other := by
  cases faults with
  | nil => simp
  | cons e faults => simp [settle]

theorem exists_settle_eq_ok : (∃ y, settle faults x = .ok y) ↔ faults = [] := by
  simp only [settle_eq_ok, exists_and_left, exists_eq', and_true]

theorem settle_eq_error {e : CompileError} :
    settle faults x = .error e ↔ faults.head? = some e := by
  cases faults with
  | nil => simp
  | cons e faults => simp [settle]

end Settle

section Nodes

variable {setting : Setting} {scope after : Scope} {faults more : List CompileError}

def keepsScope (kind : NodeKind) : Bool := kind != .classDec && kind != .subroutineDec

theorem visitAll_done (trees : List Tree) (scope : Scope) (done : List Code) :
    visitAll setting trees scope done =
      (visitAll setting trees scope []).map fun result => (done.reverse ++ result.1, result.2) := by
  induction trees generalizing scope done with
  | nil => simp [visitAll, Except.map]
  | cons tree trees ih =>
    rw [visitAll, visitAll]
    cases visit setting tree scope with
    | error e => rfl
    | ok result =>
      obtain ⟨code, scope⟩ := result
      change visitAll setting trees scope (code :: done) =
        (visitAll setting trees scope [code]).map _
      rw [ih scope (code :: done), ih scope [code]]
      cases visitAll setting trees scope [] with
      | error e => rfl
      | ok result => simp [Except.map]

theorem visitAll_nil : visitAll setting [] scope [] = settle [] ([], scope) := rfl

theorem visitAll_cons {tree : Tree} {trees : List Tree} {middle : Scope} {code : Code}
    {codes : List Code} (first : visit setting tree scope = settle faults (code, middle))
    (rest : visitAll setting trees middle [] = settle more (codes, after)) :
    visitAll setting (tree :: trees) scope [] = settle (faults ++ more) (code :: codes, after) := by
  rw [visitAll, first]
  apply settle_bind
  change visitAll setting trees middle [code] = _
  rw [visitAll_done, rest]
  cases more with
  | nil => rfl
  | cons e more => rfl

theorem visitAll_append_eq (trees others : List Tree) (scope : Scope) (done : List Code) :
    visitAll setting (trees ++ others) scope done =
      visitAll setting trees scope done >>= fun result =>
        visitAll setting others result.2 result.1.reverse := by
  induction trees generalizing scope done with
  | nil => exact congrArg _ done.reverse_reverse.symm
  | cons tree trees ih =>
    rw [List.cons_append, visitAll, visitAll]
    cases visit setting tree scope with
    | error e => rfl
    | ok result => exact ih result.2 (result.1 :: done)

theorem visitAll_append {trees others : List Tree} {middle : Scope} {codes codes' : List Code}
    (first : visitAll setting trees scope [] = settle faults (codes, middle))
    (rest : visitAll setting others middle [] = settle more (codes', after)) :
    visitAll setting (trees ++ others) scope [] =
      settle (faults ++ more) (codes ++ codes', after) := by
  rw [visitAll_append_eq, first]
  apply settle_bind
  rw [visitAll_done, rest, List.reverse_reverse]
  cases more with
  | nil => rfl
  | cons e more => rfl

theorem visit_entered {number : Nat} {kind : NodeKind} {token? : Option Token}
    {children : List Tree} {fragments : List Code} {code : Code} {inner middle : Scope}
    (enters : enter (.node number kind token? children) scope = .ok inner)
    (visits : visitAll setting children inner [] = settle faults (fragments, middle))
    (leaves : leave setting (.node number kind token? children) middle fragments =
      settle more (code, after)) :
    visit setting (.node number kind token? children) scope =
      settle (faults ++ more) (code, after) := by
  rw [visit, enters]
  change visitAll setting children inner [] >>= _ = _
  rw [visits]
  exact settle_bind leaves

theorem visit_node (setting : Setting) (number : Nat) (kind : NodeKind) (token? : Option Token)
    {children : List Tree} {fragments : List Code} {code : Code} {middle : Scope}
    (keeps : keepsScope kind = true)
    (visits : visitAll setting children scope [] = settle faults (fragments, middle))
    (leaves : leave setting (.node number kind token? children) middle fragments =
      settle more (code, after)) :
    visit setting (.node number kind token? children) scope =
      settle (faults ++ more) (code, after) := by
  refine visit_entered ?_ visits leaves
  cases kind <;> first | rfl | cases keeps

theorem visit_plain (setting : Setting) (number : Nat) (kind : NodeKind) (token? : Option Token)
    {children : List Tree} {fragments : List Code} {code : Code} {middle : Scope}
    (keeps : keepsScope kind = true)
    (visits : visitAll setting children scope [] = settle faults (fragments, middle))
    (leaves : leave setting (.node number kind token? children) middle fragments =
      .ok (code, after)) :
    visit setting (.node number kind token? children) scope = settle faults (code, after) := by
  rw [visit_node setting number kind token? keeps visits (leaves.trans settle_nil.symm),
    List.append_nil]

end Nodes

end JackCompiler.Lowering
