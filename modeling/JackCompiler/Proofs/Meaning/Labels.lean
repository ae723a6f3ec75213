import JackCompiler.Proofs.Lowering.Class
import JackCompiler.Proofs.Lowering.Straight
import JackCompiler.Proofs.Meaning.Machine
import Mathlib.Data.List.Basic

namespace JackCompiler

open Lowering Machine

def Instruction.label? : Instruction → Option String
  | .label name => some name
  | _ => none

def labels (code : Code) : List String := code.filterMap Instruction.label?

@[simp]
theorem labels_append (first second : Code) :
    labels (first ++ second) = labels first ++ labels second :=
  List.filterMap_append

theorem mem_labels {program : Code} {position : Nat} {name : String}
    (there : program[position]? = some (.label name)) : name ∈ labels program :=
  List.mem_filterMap.mpr ⟨_, List.mem_of_getElem? there, rfl⟩

theorem target_eq {program : Code} {position : Nat} {name : String}
    (distinct : (labels program).Nodup) (there : program[position]? = some (.label name)) :
    target program name = some position := by
  induction program generalizing position with
  | nil => cases there
  | cons instruction program ih =>
    rw [target, List.findIdx?_cons]
    cases position with
    | zero =>
      cases there
      rw [if_pos (beq_self_eq_true _)]
    | succ position =>
      -- The label stands further on, so it cannot stand here too.
      have differs : instruction ≠ .label name := by
        rintro rfl
        exact (List.nodup_cons.mp distinct).1 (mem_labels there)
      have rest : (labels program).Nodup :=
        distinct.sublist (List.Sublist.filterMap _ (List.sublist_cons_self _ _))
      rw [if_neg (by simpa using differs)]
      exact congrArg (Option.map (· + 1)) (ih rest there)

def numbered (className tag : String) (number : Nat) : String :=
  className ++ "." ++ tag ++ "$" ++ toString number

theorem toDigits_inj {m n : Nat} (same : Nat.toDigits 10 m = Nat.toDigits 10 n) : m = n := by
  rw [← Nat.ofDigitChars_ten_toDigits (n := m), same, Nat.ofDigitChars_ten_toDigits]

theorem dollar_not_mem_toDigits (n : Nat) : '$' ∉ Nat.toDigits 10 n := by
  intro member
  have digit := Nat.isDigit_of_mem_toDigits (by decide) (by decide) member
  exact absurd digit (by decide)

theorem numbered_inj {className tag tag' : String} {m n : Nat} (clear : '$' ∉ tag.toList)
    (same : numbered className tag m = numbered className tag' n) : tag = tag' ∧ m = n := by
  have chars := congrArg String.toList same
  simp only [numbered, String.toList_append, List.append_assoc, List.append_cancel_left_eq,
    Nat.toString_eq_repr, Nat.toList_repr] at chars
  obtain ⟨equal, -, digits⟩ :=
    (List.append_cons_inj_of_notMem clear (dollar_not_mem_toDigits m)).mp chars
  exact ⟨String.toList_inj.mp equal, toDigits_inj digits⟩

def tags : List String := ["IF_FALSE", "IF_END", "WHILE_START", "WHILE_END"]

theorem clear_of_mem_tags {tag : String} (member : tag ∈ tags) : '$' ∉ tag.toList := by
  simp only [tags, List.mem_cons, List.not_mem_nil, or_false] at member
  rcases member with rfl | rfl | rfl | rfl <;> decide

structure Between (className : String) (low high : Nat) (names : List String) : Prop where
  distinct : names.Nodup
  inside : ∀ name ∈ names, ∃ tag ∈ tags, ∃ number, low ≤ number ∧ number < high ∧
    name = numbered className tag number

namespace Between

variable {className : String} {low middle high : Nat} {names more : List String}

theorem none : Between className low high [] := ⟨.nil, nofun⟩

theorem mono {low' high' : Nat} (between : Between className low high names) (less : low' ≤ low)
    (more : high ≤ high') : Between className low' high' names := by
  refine ⟨between.distinct, fun name member => ?_⟩
  obtain ⟨tag, known, number, least, most, same⟩ := between.inside name member
  exact ⟨tag, known, number, Nat.le_trans less least, Nat.lt_of_lt_of_le most more, same⟩

theorem append (first : Between className low middle names)
    (second : Between className middle high more) (ordered : low ≤ middle)
    (ordered' : middle ≤ high) : Between className low high (names ++ more) := by
  constructor
  · apply List.nodup_append.mpr ⟨first.distinct, second.distinct, ?_⟩
    rintro name member other member' rfl
    obtain ⟨tag, known, number, least, most, same⟩ := first.inside name member
    obtain ⟨tag', -, number', least', most', same'⟩ := second.inside name member'
    have equal := (numbered_inj (clear_of_mem_tags known) (same.symm.trans same')).2
    omega
  · intro name member
    rcases List.mem_append.mp member with member | member
    · exact (first.mono (Nat.le_refl _) ordered').inside name member
    · exact (second.mono ordered (Nat.le_refl _)).inside name member

theorem pair {tag tag' : String} (known : tag ∈ tags) (known' : tag' ∈ tags) (differ : tag ≠ tag')
    (number : Nat) : Between className number (number + 1)
      [numbered className tag number, numbered className tag' number] := by
  constructor
  · rw [List.nodup_cons, List.mem_singleton]
    refine ⟨fun same => ?_, by simp⟩
    exact differ (numbered_inj (clear_of_mem_tags known) same).1
  · intro name member
    simp only [List.mem_cons, List.not_mem_nil, or_false] at member
    rcases member with rfl | rfl
    · exact ⟨tag, known, number, Nat.le_refl _, Nat.lt_succ_self _, rfl⟩
    · exact ⟨tag', known', number, Nat.le_refl _, Nat.lt_succ_self _, rfl⟩

theorem around {number last : Nat} (inner : Between className low high names) (tag tag' : String)
    (known : tag ∈ tags) (known' : tag' ∈ tags) (differ : tag ≠ tag') (less : number < low)
    (ordered : low ≤ high) (most : high ≤ last)
    (same : more.Perm (numbered className tag number :: numbered className tag' number :: names)) :
    Between className number last more := by
  -- The two labels of a statement stand around or behind those of its blocks.
  have own : Between className number (number + 1)
      [numbered className tag number, numbered className tag' number] :=
    pair known known' differ number
  have both := own.append (inner.mono (Nat.succ_le_of_lt less) most) (Nat.le_succ _) (by omega)
  refine ⟨same.nodup_iff.mpr both.distinct, fun name member => ?_⟩
  exact both.inside name (same.mem_iff.mp member)

end Between

section Phrases

variable {context : Context}

private theorem labels_of_straight {code : Code} (straight : Straight code) : labels code = [] := by
  apply List.filterMap_eq_nil_iff.mpr
  intro instruction member
  have one := straight instruction member
  cases instruction with
  | label name => cases one
  | _ => rfl

@[simp]
theorem Expression.labels_code (e : Expression) : labels (e.code context) = [] :=
  labels_of_straight e.straight_code

@[simp]
theorem Call.labels_code (c : Call) : labels (c.code context) = [] :=
  labels_of_straight c.straight_code

@[simp]
private theorem labels_marker (comments : Bool) (text : String) :
    labels (marker comments text) = [] := by
  cases comments <;> rfl

private abbrev Own (context : Context) (s : Statement) : Prop :=
  ∀ number, Between context.className number (number + s.nodes) (labels (s.code context number))

private abbrev OwnBlock (context : Context) (b : Block) : Prop :=
  ∀ number, Between context.className number (number + b.nodes) (labels (b.code context number))

private theorem own_none {s : Statement} (clear : ∀ number, labels (s.code context number) = []) :
    Own context s := by
  intro number
  rw [clear]
  exact .none

private theorem own_statements {statements : List Statement}
    (each : ∀ s ∈ statements, Own context s) (number : Nat) :
    Between context.className number (number + statementNodes statements)
      (labels (statementCode context number statements)) := by
  induction statements generalizing number with
  | nil => exact .none
  | cons s statements ih =>
    have rest := ih (fun s member => each s (.tail _ member)) (number + s.nodes)
    rw [statementCode, labels_append, statementNodes, ← Nat.add_assoc]
    exact (each s (.head _) number).append rest (by omega) (by omega)

private theorem own_ifThen {keyword : Word ["if"]} {opening : Word ["("]} {condition : Expression}
    {closing : Word [")"]} {body : Block} (ih : OwnBlock context body) :
    Own context (.ifThen keyword opening condition closing body) := by
  intro number
  have inner := ih (number + 4 + condition.nodes)
  have same : labels ((Statement.ifThen keyword opening condition closing body).code context number) =
      labels (body.code context (number + 4 + condition.nodes)) ++
        [context.label "IF_FALSE" number, context.label "IF_END" number] := by
    rw [Statement.code]
    simp only [labels_append, labels_marker, Expression.labels_code, List.append_assoc]
    rfl
  rw [same, Statement.nodes]
  apply inner.around "IF_FALSE" "IF_END" (by decide) (by decide) (by decide)
  · omega
  · omega
  · omega
  · exact List.perm_append_comm

private theorem own_ifElse {keyword : Word ["if"]} {opening : Word ["("]} {condition : Expression}
    {closing : Word [")"]} {body alternative : Block} {otherwise : Word ["else"]}
    (first : OwnBlock context body) (second : OwnBlock context alternative) :
    Own context (.ifElse keyword opening condition closing body otherwise alternative) := by
  intro number
  have inner := (first (number + 4 + condition.nodes)).append
    ((second (number + 5 + condition.nodes + body.nodes)).mono (by omega) (Nat.le_refl _))
    (Nat.le_add_right _ _) (by omega)
  have same : labels ((Statement.ifElse keyword opening condition closing body otherwise
      alternative).code context number) =
      labels (body.code context (number + 4 + condition.nodes)) ++
        context.label "IF_FALSE" number ::
          (labels (alternative.code context (number + 5 + condition.nodes + body.nodes)) ++
            [context.label "IF_END" number]) := by
    rw [Statement.code]
    simp only [labels_append, labels_marker, Expression.labels_code, List.append_assoc]
    rfl
  rw [same, Statement.nodes]
  apply inner.around "IF_FALSE" "IF_END" (by decide) (by decide) (by decide)
  · omega
  · omega
  · omega
  · refine List.perm_middle.trans (.cons _ ?_)
    rw [← List.append_assoc]
    exact List.perm_append_singleton _ _

private theorem own_loop {keyword : Word ["while"]} {opening : Word ["("]} {condition : Expression}
    {closing : Word [")"]} {body : Block} (ih : OwnBlock context body) :
    Own context (.loop keyword opening condition closing body) := by
  intro number
  have inner := ih (number + 4 + condition.nodes)
  have same : labels ((Statement.loop keyword opening condition closing body).code context number) =
      context.label "WHILE_START" number ::
        (labels (body.code context (number + 4 + condition.nodes)) ++
          [context.label "WHILE_END" number]) := by
    rw [Statement.code]
    simp only [labels_append, labels_marker, Expression.labels_code, List.append_assoc]
    rfl
  rw [same, Statement.nodes]
  apply inner.around "WHILE_START" "WHILE_END" (by decide) (by decide) (by decide)
  · omega
  · omega
  · omega
  · exact .cons _ (List.perm_append_singleton _ _)

private theorem labels_assignElement {keyword : Word ["let"]} {array : Name}
    {opening : Word ["["]} {index : Expression} {closing : Word ["]"]} {equals : Word ["="]}
    {value : Expression} {semicolon : Word [";"]} (number : Nat) :
    labels ((Statement.assignElement keyword array opening index closing equals value
      semicolon).code context number) = [] := by
  rw [Statement.code, labels_append, labels_marker,
    labels_of_straight (straight_assignElement array index value)]
  rfl

private theorem own_all :
    (∀ s : Statement, Own context s) ∧ (∀ b : Block, OwnBlock context b) := by
  apply Statement.induction
  case assign =>
    intro keyword target equals value semicolon
    apply own_none
    intro number
    rw [Statement.code, labels_append, labels_append, labels_marker, Expression.labels_code]
    exact labels_of_straight (straight_store _)
  case assignElement => exact fun _ _ _ _ _ _ _ _ => own_none labels_assignElement
  case ifThen => exact fun _ _ _ _ _ ih => own_ifThen ih
  case ifElse => exact fun _ _ _ _ _ _ _ first second => own_ifElse first second
  case loop => exact fun _ _ _ _ _ ih => own_loop ih
  case perform =>
    intro keyword call semicolon
    apply own_none
    intro number
    rw [Statement.code, labels_append, labels_append, labels_marker, Call.labels_code]
    rfl
  case returnNothing =>
    intro keyword semicolon
    apply own_none
    intro number
    rw [Statement.code, labels_append, labels_append, labels_marker]
    rfl
  case returnValue =>
    intro keyword value semicolon
    apply own_none
    intro number
    rw [Statement.code, labels_append, labels_append, labels_marker, Expression.labels_code]
    rfl
  case braced =>
    intro opening statements closing each number
    have inner := own_statements each (number + 2)
    rw [Block.code, Block.nodes]
    exact inner.mono (by omega) (by omega)

theorem labels_statementCode (context : Context) (number : Nat) (statements : List Statement) :
    Between context.className number (number + statementNodes statements)
      (labels (statementCode context number statements)) :=
  own_statements (fun s _ => own_all.1 s) number

end Phrases

section Unit

variable {declaration : ClassDeclaration}

private theorem labels_prologue (scope : Scope) (kind : SubroutineKind) :
    labels (prologue scope kind) = [] := by
  cases kind <;> rfl

theorem SubroutineBody.labels_code (context : Context) (number : Nat) (body : SubroutineBody) :
    Between context.className number (number + body.nodes) (labels (body.code context number)) := by
  have inner := labels_statementCode context
    (number + 3 + nodesOf LocalVariables.nodes body.locals) body.statements
  have last (void : Bool) : labels (if void = true then [.push .constant 0, .ret] else []) = [] := by
    cases void <;> rfl
  rw [code, nodes]
  simp only [labels_append, labels_marker, labels_prologue, last, List.append_nil, List.nil_append]
  exact inner.mono (by omega) (by omega)

theorem labels_subroutineCode (comments : Bool) (number : Nat)
    (subroutines : List SubroutineDeclaration) :
    Between declaration.className number
      (number + nodesOf SubroutineDeclaration.nodes subroutines)
      (labels (declaration.subroutineCode comments number subroutines)) := by
  induction subroutines generalizing number with
  | nil => exact .none
  | cons s subroutines ih =>
    have own := s.body.labels_code (declaration.context comments s) (number + 6 + s.parameters.nodes)
    have first : Between declaration.className number (number + s.nodes)
        (labels (declaration.bodyCode comments s number)) := by
      rw [SubroutineDeclaration.nodes]
      exact own.mono (by omega) (by omega)
    rw [ClassDeclaration.subroutineCode, labels_append, nodesOf, ← Nat.add_assoc]
    exact first.append (ih _) (by omega) (by omega)

theorem ClassDeclaration.labels_code (comments : Bool) (declaration : ClassDeclaration) :
    Between declaration.className declaration.firstNumber
      (declaration.firstNumber + nodesOf SubroutineDeclaration.nodes declaration.subroutines)
      (labels (declaration.code comments)) := by
  rw [ClassDeclaration.code, labels_append, labels_append, labels_marker, labels_marker,
    List.append_nil]
  exact labels_subroutineCode comments _ _

/-- The labels in the code of a unit are distinct. -/
theorem labels_unit (comments : Bool) (declaration : ClassDeclaration) :
    (labels (declaration.code comments)).Nodup :=
  (declaration.labels_code comments).distinct

end Unit

end JackCompiler
