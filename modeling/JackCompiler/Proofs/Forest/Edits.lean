import JackCompiler.Proofs.Forest.Links
import Mathlib.Data.List.Dedup

namespace JackCompiler

inductive Edit
  | add (under : Option Nat) (kind : NodeKind) (token : Option Token)
  | adopt (parent child : Nat)
  | pivot (operator : Nat) (operands : List Nat)

namespace Forest

variable {forest before after : Forest} {parent child operator : Nat} {operands : List Nat}

def edit (forest : Forest) : Edit → Forest
  | .add under kind token => forest.add under kind token
  | .adopt parent child => forest.adopt parent child
  | .pivot operator operands => forest.pivot operator operands

/-- Each of some nodes may be moved under another one, after those before it were. -/
def MayPivot (forest : Forest) (operator : Nat) : List Nat → Prop
  | [] => True
  | operand :: operands => forest.MayAdopt operator operand ∧
      (forest.adopt operator operand).MayPivot operator operands

def May (forest : Forest) : Edit → Prop
  | .add under _ _ => ∀ parent ∈ under, parent < forest.size
  | .adopt parent child => forest.MayAdopt parent child
  | .pivot operator operands => forest.MayPivot operator operands

/-- The forests that edits lead to. -/
inductive Made : Forest → Prop
  | empty : Made .empty
  | edit {forest : Forest} (made : Made forest) (edit : Edit) (may : forest.May edit) :
      Made (forest.edit edit)

theorem Linked.pivot (linked : forest.Linked) (may : forest.MayPivot operator operands) :
    (forest.pivot operator operands).Linked := by
  induction operands generalizing forest with
  | nil => exact linked
  | cons operand operands ih => exact ih (linked.adopt may.1) may.2

theorem Made.linked (made : forest.Made) : forest.Linked := by
  induction made with
  | empty => exact linked_empty
  | @edit forest _ edit may ih =>
    cases edit with
    | add under kind token => exact ih.add may
    | adopt parent child => exact ih.adopt may
    | pivot operator operands => exact ih.pivot may

/-- What moving nodes under another one does: they stand behind its other children in the order in
which each was moved last, and nothing else is changed. -/
structure Moved (before after : Forest) (parent : Nat) (moved : List Nat) : Prop where
  size : after.size = before.size
  label : ∀ number, after.label? number = before.label? number
  link : ∀ number, after.parent? number =
    if number ∈ moved then some parent else before.parent? number
  children : ∀ number, after.children number =
    (before.children number).filter (· ∉ moved) ++ if number = parent then moved.dedup else []

theorem Linked.moved_adopt (linked : forest.Linked) (may : forest.MayAdopt parent child) :
    Moved forest (forest.adopt parent child) parent [child] where
  size := size_adopt ..
  label := linked.label?_adopt parent child
  link number := by simpa using linked.parent?_adopt may.child_lt parent number
  children number := by
    have same (others : List Nat) :
        others.filter (· ∉ [child]) = others.filter (· != child) :=
      List.filter_congr fun other _ => by by_cases moved : other = child <;> simp [moved]
    rw [linked.children_adopt may.parent_lt, same, List.dedup_cons_of_notMem List.not_mem_nil]
    rfl

theorem Moved.cons {middle : Forest} {moved : List Nat} (one : Moved before middle parent [child])
    (more : Moved middle after parent moved) : Moved before after parent (child :: moved) where
  size := more.size.trans one.size
  label number := (more.label number).trans (one.label number)
  link number := by
    rw [more.link, one.link]
    by_cases late : number ∈ moved <;> simp [late]
  children number := by
    -- If the first node is moved again, its first place is given up.
    have again : [child].filter (· ∉ moved) ++ moved.dedup = (child :: moved).dedup := by
      by_cases late : child ∈ moved <;> simp [late]
    rw [more.children, one.children, List.filter_append, List.filter_filter, List.append_assoc]
    congr 1
    · refine List.filter_congr fun other _ => ?_
      by_cases late : other ∈ moved <;> simp [late]
    · split
      · exact again
      · rfl

theorem Linked.moved_pivot (linked : forest.Linked) (may : forest.MayPivot operator operands) :
    Moved forest (forest.pivot operator operands) operator operands := by
  induction operands generalizing forest with
  | nil =>
    refine ⟨rfl, fun _ => rfl, fun _ => rfl, fun number => ?_⟩
    simp only [List.not_mem_nil, not_false_eq_true, decide_true, List.filter_true,
      List.dedup_nil, ite_self, List.append_nil]
    rfl
  | cons operand operands ih =>
    exact (linked.moved_adopt may.1).cons (ih (linked.adopt may.1) may.2)

theorem Linked.node?_adopt_of_apart (linked : forest.Linked) {number : Nat}
    (stays : number ≠ child) (apart : number ≠ parent)
    (before : forest.parent? child ≠ some number) :
    (forest.adopt parent child).node? number = forest.node? number := by
  have same := linked.filter_children before
  rw [linked.node?_adopt]
  cases found : forest.node? number with
  | none => rfl
  | some node =>
    rw [children_of_node? found] at same
    simp [stays, apart, same]

/-- In every forest that edits lead to, a node is in the child list of its parent, once, and in no
other one, every way up ends, and the root of a node is where its way up ends. To move a node puts
it behind the other children of its new parent, also if it was one of them, and changes nothing
else. -/
theorem edits_keep_forest (made : forest.Made) :
    (∀ number parent, forest.parent? number = some parent →
      (forest.children parent).count number = 1 ∧
        ∀ other, other ≠ parent → number ∉ forest.children other) ∧
    (∀ number, forest.parent? number = none → ∀ other, number ∉ forest.children other) ∧
    (∀ number, ∃ steps, forest.above? steps number = none) ∧
    (∀ number upper, forest.Above upper number ∧ forest.parent? upper = none ↔
      upper = forest.root number) ∧
    (∀ parent child, forest.MayAdopt parent child →
      Moved forest (forest.adopt parent child) parent [child] ∧
      (forest.adopt parent child).subtree child = forest.subtree child ∧
      ∀ number, number ≠ child → number ≠ parent → forest.parent? child ≠ some number →
        (forest.adopt parent child).node? number = forest.node? number) ∧
    (∀ operator operands, forest.MayPivot operator operands →
      Moved forest (forest.pivot operator operands) operator operands) := by
  have linked := made.linked
  refine ⟨fun number parent link => ⟨?_, fun other apart member => apart ?_⟩,
    fun number top other member => ?_, linked.ends, fun number upper => linked.root_iff,
    fun parent child may => ⟨linked.moved_adopt may, linked.subtree_adopt may,
      fun number stays apart before => linked.node?_adopt_of_apart stays apart before⟩,
    fun operator operands may => linked.moved_pivot may⟩
  · rw [linked.count, if_pos link]
  · exact Option.some.inj ((linked.mem_children.mp member).symm.trans link)
  · cases top.symm.trans (linked.mem_children.mp member)

private def flatSum : Forest :=
  (((empty.add none .expression none).add (some 0) .identifier (some ⟨1, .identifier, "a"⟩)).add
    (some 0) .binaryOp (some ⟨1, .symbol, "+"⟩)).add
    (some 0) .identifier (some ⟨1, .identifier, "b"⟩)

private theorem flatSum_made : flatSum.Made := by
  have root := Made.empty.edit (.add none .expression none) nofun
  have first := root.edit (.add (some 0) .identifier (some ⟨1, .identifier, "a"⟩))
    (by simp [May]; decide)
  have sign := first.edit (.add (some 0) .binaryOp (some ⟨1, .symbol, "+"⟩))
    (by simp [May]; decide)
  exact sign.edit (.add (some 0) .identifier (some ⟨1, .identifier, "b"⟩)) (by simp [May]; decide)

theorem edits_keep_forest_sum : ∃ forest : Forest, forest.Made ∧
    flatSum.pivot 2 [1, 3, 1] = forest ∧
    forest.children 2 = [3, 1] ∧ forest.children 0 = [2] ∧ forest.root 1 = 0 ∧
    forest.MayAdopt 2 3 ∧ (forest.adopt 2 3).children 2 = [1, 3] ∧
    (∀ other, other ≠ 2 → 1 ∉ forest.children other) := by
  have may (forest : Forest) (child : Nat) (size : forest.size = 4) (less : child < 4)
      (link : forest.parent? 2 = some 0) (top : forest.parent? 0 = none)
      (apart : child ≠ 2 ∧ child ≠ 0) : forest.MayAdopt 2 child :=
    ⟨by omega, by omega, not_above_of_parent link apart.1 (not_above_of_root top apart.2)⟩
  have made : (flatSum.pivot 2 [1, 3, 1]).Made := by
    refine flatSum_made.edit (.pivot 2 [1, 3, 1]) ⟨?_, ?_, ?_, trivial⟩
    all_goals exact may _ _ (by decide) (by decide) (by decide) (by decide) (by decide)
  obtain ⟨once, -, -, root, moves, -⟩ := edits_keep_forest made
  have again := may (flatSum.pivot 2 [1, 3, 1]) 3 (by decide) (by decide) (by decide) (by decide)
    (by decide)
  refine ⟨_, made, rfl, by decide, by decide, ?_, again, ?_, (once 1 2 (by decide)).2⟩
  · refine ((root 1 0).mp ⟨⟨2, by decide⟩, by decide⟩).symm
  · rw [(moves 2 3 again).1.children]
    decide

end Forest

end JackCompiler
