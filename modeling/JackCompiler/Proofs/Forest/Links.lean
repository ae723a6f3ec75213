import JackCompiler.Forest
import Mathlib.Data.Finset.Card

namespace JackCompiler.Forest

variable {forest : Forest} {number parent child upper lower : Nat}

/-- The node so many steps above a node, if the way up is that long. -/
def above? (forest : Forest) : Nat → Nat → Option Nat
  | 0, number => some number
  | steps + 1, number => (forest.parent? number).bind (forest.above? steps)

/-- One node is another one or stands over it. -/
def Above (forest : Forest) (upper lower : Nat) : Prop :=
  ∃ steps, forest.above? steps lower = some upper

theorem above_self (forest : Forest) (number : Nat) : forest.Above number number := ⟨0, rfl⟩

theorem above?_succ_of (link : forest.parent? number = some parent) (steps : Nat) :
    forest.above? (steps + 1) number = forest.above? steps parent := by
  rw [above?, link, Option.bind_some]

theorem above?_succ_of_none (top : forest.parent? number = none) (steps : Nat) :
    forest.above? (steps + 1) number = none := by
  rw [above?, top, Option.bind_none]

theorem Above.of_parent (link : forest.parent? lower = some parent)
    (above : forest.Above upper parent) : forest.Above upper lower := by
  obtain ⟨steps, reached⟩ := above
  exact ⟨steps + 1, (above?_succ_of link steps).trans reached⟩

theorem Above.cases (above : forest.Above upper lower) :
    upper = lower ∨ ∃ parent, forest.parent? lower = some parent ∧ forest.Above upper parent := by
  obtain ⟨steps, reached⟩ := above
  cases steps with
  | zero => exact .inl (Option.some.inj reached).symm
  | succ steps =>
    obtain ⟨parent, link, reached⟩ := Option.bind_eq_some_iff.mp reached
    exact .inr ⟨parent, link, steps, reached⟩

theorem not_above_of_root (top : forest.parent? lower = none) (apart : upper ≠ lower) :
    ¬ forest.Above upper lower := fun above => by
  rcases above.cases with same | ⟨parent, link, -⟩
  · exact apart same
  · cases top.symm.trans link

theorem not_above_of_parent (link : forest.parent? lower = some parent) (apart : upper ≠ lower)
    (higher : ¬ forest.Above upper parent) : ¬ forest.Above upper lower := fun above => by
  rcases above.cases with same | ⟨other, next, above⟩
  · exact apart same
  · obtain rfl := Option.some.inj (link.symm.trans next)
    exact higher above

theorem Above.trans {middle : Nat} (above : forest.Above upper middle) :
    forest.Above middle lower → forest.Above upper lower := by
  rintro ⟨steps, reached⟩
  induction steps generalizing lower with
  | zero => exact Option.some.inj reached ▸ above
  | succ steps ih =>
    obtain ⟨parent, link, reached⟩ := Option.bind_eq_some_iff.mp reached
    exact .of_parent link (ih reached)

theorem above?_split (first rest number : Nat) :
    forest.above? (first + rest) number =
      (forest.above? first number).bind (forest.above? rest) := by
  induction first generalizing number with
  | zero => rw [Nat.zero_add, above?, Option.bind_some]
  | succ first ih =>
    rw [Nat.succ_add, above?, above?, Option.bind_assoc]
    exact congrArg _ (funext ih)

def Tops (forest : Forest) (steps number root : Nat) : Prop :=
  forest.above? steps number = some root ∧ forest.parent? root = none

theorem Tops.unique {first second root other : Nat} (one : forest.Tops first number root)
    (two : forest.Tops second number other) : first = second ∧ root = other := by
  induction first generalizing second number with
  | zero =>
    obtain rfl := Option.some.inj one.1
    cases second with
    | zero => exact ⟨rfl, Option.some.inj two.1⟩
    | succ second => cases (above?_succ_of_none one.2 second).symm.trans two.1
  | succ first ih =>
    obtain ⟨parent, link, reached⟩ := Option.bind_eq_some_iff.mp one.1
    cases second with
    | zero =>
      obtain rfl := Option.some.inj two.1
      cases two.2.symm.trans link
    | succ second =>
      have rest := (above?_succ_of link second).symm.trans two.1
      obtain ⟨same, equal⟩ := ih ⟨reached, one.2⟩ ⟨rest, two.2⟩
      exact ⟨congrArg _ same, equal⟩

theorem Tops.drop {steps rest root upper : Nat} (tops : forest.Tops (steps + rest) number root)
    (reached : forest.above? steps number = some upper) : forest.Tops rest upper root := by
  refine ⟨?_, tops.2⟩
  rw [← tops.1, above?_split, reached, Option.bind_some]

theorem exists_tops {steps : Nat} (ended : forest.above? steps number = none) :
    ∃ steps root, forest.Tops steps number root := by
  induction steps generalizing number with
  | zero => cases ended
  | succ steps ih =>
    cases link : forest.parent? number with
    | none => exact ⟨0, number, rfl, link⟩
    | some parent =>
      obtain ⟨steps, root, reached, top⟩ := ih ((above?_succ_of link steps).symm.trans ended)
      exact ⟨steps + 1, root, (above?_succ_of link steps).trans reached, top⟩

theorem lt_size_of_parent? (link : forest.parent? number = some parent) : number < forest.size := by
  obtain ⟨node, found, -⟩ := Option.bind_eq_some_iff.mp link
  exact (Array.getElem?_eq_some_iff.mp found).1

theorem Tops.steps_le {steps root : Nat} (tops : forest.Tops steps number root) :
    steps ≤ forest.size := by
  -- A way up meets no node twice, so that it has no more steps than there are nodes.
  have met {i : Nat} (less : i < steps) :
      ∃ upper, forest.above? i number = some upper ∧ upper < forest.size := by
    obtain ⟨rest, rfl⟩ : ∃ rest, steps = i + (rest + 1) := ⟨steps - i - 1, by omega⟩
    obtain ⟨upper, reached, further⟩ := Option.bind_eq_some_iff.mp
      ((above?_split i (rest + 1) number).symm.trans tops.1)
    obtain ⟨parent, link, -⟩ := Option.bind_eq_some_iff.mp further
    exact ⟨upper, reached, lt_size_of_parent? link⟩
  have bound := Finset.card_le_card_of_injOn (fun i => (forest.above? i number).getD 0)
    (s := Finset.range steps) (t := Finset.range forest.size) ?_ ?_
  · simpa using bound
  · intro i member
    obtain ⟨upper, reached, bound⟩ := met (Finset.mem_range.mp member)
    simpa [reached] using bound
  · intro i first j second same
    have less := Finset.mem_range.mp first
    have less' := Finset.mem_range.mp second
    obtain ⟨upper, reached, -⟩ := met less
    obtain ⟨upper', reached', -⟩ := met less'
    obtain rfl : upper = upper' := by simpa [reached, reached'] using same
    have rest : forest.Tops (steps - i) upper root :=
      .drop (by rwa [Nat.add_sub_cancel' less.le]) reached
    have rest' : forest.Tops (steps - j) upper root :=
      .drop (by rwa [Nat.add_sub_cancel' less'.le]) reached'
    have equal := (rest.unique rest').1
    omega

theorem ascend_of_tops {steps most root : Nat} (tops : forest.Tops steps number root)
    (enough : steps ≤ most) : forest.ascend most number = root := by
  induction most generalizing steps number with
  | zero =>
    obtain rfl := Nat.le_zero.mp enough
    exact Option.some.inj tops.1
  | succ most ih =>
    cases steps with
    | zero =>
      obtain rfl := Option.some.inj tops.1
      rw [ascend, tops.2]
    | succ steps =>
      obtain ⟨parent, link, reached⟩ := Option.bind_eq_some_iff.mp tops.1
      rw [ascend, link]
      exact ih ⟨reached, tops.2⟩ (Nat.le_of_succ_le_succ enough)

theorem Tops.root_eq {steps root : Nat} (tops : forest.Tops steps number root) :
    forest.root number = root :=
  ascend_of_tops tops tops.steps_le

theorem children_of_node? {node : ForestNode} (found : forest.node? number = some node) :
    forest.children number = node.children := by
  rw [children, found]
  rfl

/-- A node is in the child list of its parent, once, and in no other list; and every way up
ends. -/
structure Linked (forest : Forest) : Prop where
  count : ∀ number parent, (forest.children parent).count number =
    if forest.parent? number = some parent then 1 else 0
  ends : ∀ number, ∃ steps, forest.above? steps number = none

namespace Linked

theorem mem_children (linked : forest.Linked) :
    number ∈ forest.children parent ↔ forest.parent? number = some parent := by
  rw [← List.count_pos_iff, linked.count]
  split <;> simp [*]

theorem parent_lt (linked : forest.Linked) (link : forest.parent? number = some parent) :
    parent < forest.size := by
  by_contra beyond
  have member := linked.mem_children.mpr link
  have missing : forest.node? parent = none := Array.getElem?_eq_none (Nat.not_lt.mp beyond)
  rw [children, missing] at member
  cases member

theorem filter_children (linked : forest.Linked) (apart : forest.parent? child ≠ some number) :
    (forest.children number).filter (· != child) = forest.children number := by
  refine List.filter_eq_self.mpr fun other member => ?_
  have differs : other ≠ child := fun same => apart (linked.mem_children.mp (same ▸ member))
  simpa using differs

theorem root_iff (linked : forest.Linked) :
    forest.Above upper number ∧ forest.parent? upper = none ↔ upper = forest.root number := by
  obtain ⟨steps, ended⟩ := linked.ends number
  obtain ⟨steps, root, tops⟩ := exists_tops ended
  rw [tops.root_eq]
  constructor
  · rintro ⟨⟨other, reached⟩, top⟩
    exact (Tops.unique ⟨reached, top⟩ tops).2
  · rintro rfl
    exact ⟨⟨steps, tops.1⟩, tops.2⟩

theorem not_above_parent (linked : forest.Linked) (link : forest.parent? number = some parent) :
    ¬ forest.Above number parent := by
  -- No node stands over its parent.
  rintro ⟨cycle, reached⟩
  obtain ⟨steps, ended⟩ := linked.ends number
  obtain ⟨steps, root, tops⟩ := exists_tops ended
  have around : forest.above? (cycle + 1) number = some number :=
    (above?_succ_of link cycle).trans reached
  have again : forest.Tops (cycle + 1 + steps) number root :=
    ⟨by rw [above?_split, around, Option.bind_some, tops.1], tops.2⟩
  have same := (again.unique tops).1
  omega

end Linked

theorem linked_empty : empty.Linked where
  count _ _ := rfl
  ends _ := ⟨1, rfl⟩

section Add

variable {under : Option Nat} {kind : NodeKind} {token : Option Token}

theorem node?_modifyChildren (changed number : Nat) (change : List Nat → List Nat) :
    (forest.modifyChildren changed change).node? number =
      if changed = number then
        (forest.node? number).map fun node => { node with children := change node.children }
      else forest.node? number :=
  Array.getElem?_modify

theorem node?_setParent (changed number parent : Nat) :
    (forest.setParent changed parent).node? number =
      if changed = number then
        (forest.node? number).map fun node => { node with parent := some parent }
      else forest.node? number :=
  Array.getElem?_modify

theorem node?_add (there : ∀ parent ∈ under, parent < forest.size) (number : Nat) :
    (forest.add under kind token).node? number =
      if number = forest.size then some ⟨under, kind, token, []⟩
      else (forest.node? number).map fun node => { node with
        children := node.children ++ if under = some number then [forest.size] else [] } := by
  have pushed : (Forest.mk (forest.nodes.push ⟨under, kind, token, []⟩)).node? number =
      if number = forest.size then some ⟨under, kind, token, []⟩ else forest.node? number :=
    Array.getElem?_push
  cases under with
  | none => simpa [add] using pushed
  | some parent =>
    have apart : parent ≠ forest.size := (there parent rfl).ne
    rw [add, node?_modifyChildren, pushed]
    by_cases same : parent = number
    · subst same
      simp [apart]
    · simp [same]

theorem parent?_add (there : ∀ parent ∈ under, parent < forest.size) (number : Nat) :
    (forest.add under kind token).parent? number =
      if number = forest.size then under else forest.parent? number := by
  rw [parent?, node?_add there]
  split
  · rfl
  · rw [Option.bind_map]
    rfl

theorem children_add (there : ∀ parent ∈ under, parent < forest.size) (number : Nat) :
    (forest.add under kind token).children number =
      forest.children number ++ if under = some number then [forest.size] else [] := by
  rw [children, children, node?_add there]
  by_cases last : number = forest.size
  · have missing : forest.node? number = none := Array.getElem?_eq_none last.ge
    have apart : under ≠ some number := fun same => (there number same).ne last
    rw [if_pos last, missing, if_neg apart]
    rfl
  · cases found : forest.node? number with
    | some node => simp [last]
    | none =>
      have apart : under ≠ some number := fun same =>
        absurd (there number same) (Nat.not_lt.mpr (Array.getElem?_eq_none_iff.mp found))
      simp [last, apart]

theorem Linked.above?_add (linked : forest.Linked)
    (there : ∀ parent ∈ under, parent < forest.size) {number : Nat} (old : number ≠ forest.size)
    (steps : Nat) :
    (forest.add under kind token).above? steps number = forest.above? steps number := by
  -- Old ways up do not meet a new node: it is nobody's parent.
  induction steps generalizing number with
  | zero => rfl
  | succ steps ih =>
    rw [above?, above?, parent?_add there, if_neg old]
    exact Option.bind_congr fun parent link => ih (linked.parent_lt link).ne

theorem parent?_size (forest : Forest) : forest.parent? forest.size = none := by
  cases link : forest.parent? forest.size with
  | none => rfl
  | some parent => cases (lt_size_of_parent? link).ne rfl

theorem Linked.add (linked : forest.Linked) (there : ∀ parent ∈ under, parent < forest.size) :
    (forest.add under kind token).Linked := by
  constructor
  · intro number parent
    rw [children_add there, parent?_add there, List.count_append, linked.count]
    by_cases last : number = forest.size
    · subst last
      by_cases below : under = some parent <;> simp [parent?_size, below]
    · by_cases below : under = some parent <;> simp [below, last, Ne.symm last]
  · intro number
    by_cases last : number = forest.size
    · subst last
      have link : (forest.add under kind token).parent? forest.size = under :=
        (parent?_add there _).trans (if_pos rfl)
      cases under with
      | none => exact ⟨1, above?_succ_of_none link 0⟩
      | some parent =>
        obtain ⟨steps, ended⟩ := linked.ends parent
        refine ⟨steps + 1, ?_⟩
        rw [above?_succ_of link, linked.above?_add there (there parent rfl).ne, ended]
    · obtain ⟨steps, ended⟩ := linked.ends number
      exact ⟨steps, (linked.above?_add there last steps).trans ended⟩

end Add

section Adopt

/-- A node may be moved under another one if both are there and it does not stand over that. -/
structure MayAdopt (forest : Forest) (parent child : Nat) : Prop where
  parent_lt : parent < forest.size
  child_lt : child < forest.size
  not_above : ¬ forest.Above child parent

def free (forest : Forest) (child : Nat) : Forest :=
  match forest.parent? child with
  | some old => forest.modifyChildren old (·.filter (· != child))
  | none => forest

theorem adopt_eq (forest : Forest) (parent child : Nat) : forest.adopt parent child =
    ((forest.free child).setParent child parent).modifyChildren parent (· ++ [child]) := rfl

theorem Linked.node?_free (linked : forest.Linked) (child number : Nat) :
    (forest.free child).node? number =
      (forest.node? number).map fun node => { node with
        children := node.children.filter (· != child) } := by
  have outside (apart : forest.parent? child ≠ some number) : forest.node? number =
      (forest.node? number).map fun node => { node with
        children := node.children.filter (· != child) } := by
    have same := linked.filter_children apart
    cases found : forest.node? number with
    | none => rfl
    | some node =>
      rw [children_of_node? found] at same
      rw [Option.map_some, same]
  rw [free]
  split
  case h_1 old link =>
    rw [node?_modifyChildren]
    split
    · rfl
    · next apart => exact outside (by simpa [link] using apart)
  case h_2 link => exact outside (by simp [link])

theorem Linked.node?_adopt (linked : forest.Linked) (parent child number : Nat) :
    (forest.adopt parent child).node? number =
      (forest.node? number).map fun node => { node with
        parent := if number = child then some parent else node.parent
        children := node.children.filter (· != child) ++
          if number = parent then [child] else [] } := by
  -- The nodes after one is moved: it is taken out of its place and put behind the other children of
  -- its new parent, and it names that parent; nothing else is changed.
  rw [adopt_eq, node?_modifyChildren, node?_setParent, linked.node?_free]
  cases forest.node? number with
  | none => simp
  | some node =>
    by_cases under : parent = number <;> by_cases moved : child = number <;>
      simp [under, moved, Ne.symm]

theorem size_adopt (forest : Forest) (parent child : Nat) :
    (forest.adopt parent child).size = forest.size := by
  rw [adopt_eq, free]
  split <;> simp [size, modifyChildren, setParent]

theorem Linked.parent?_adopt (linked : forest.Linked) (there : child < forest.size)
    (parent number : Nat) : (forest.adopt parent child).parent? number =
      if number = child then some parent else forest.parent? number := by
  rw [parent?, linked.node?_adopt, Option.bind_map]
  split
  case isTrue moved =>
    obtain ⟨node, found⟩ : ∃ node, forest.node? number = some node :=
      ⟨_, Array.getElem?_eq_getElem (moved ▸ there)⟩
    simp only [found, Option.bind_some, Function.comp_apply]
  case isFalse moved => simp [parent?]

theorem Linked.children_adopt (linked : forest.Linked) (there : parent < forest.size)
    (child number : Nat) : (forest.adopt parent child).children number =
      (forest.children number).filter (· != child) ++ if number = parent then [child] else [] := by
  rw [children, linked.node?_adopt, children]
  cases found : forest.node? number with
  | some node => rfl
  | none =>
    have apart : number ≠ parent := fun same =>
      absurd there (Nat.not_lt.mpr (same ▸ Array.getElem?_eq_none_iff.mp found))
    simp [apart]

def label? (forest : Forest) (number : Nat) : Option (NodeKind × Option Token) :=
  (forest.node? number).map fun node => (node.kind, node.token)

theorem Linked.label?_adopt (linked : forest.Linked) (parent child number : Nat) :
    (forest.adopt parent child).label? number = forest.label? number := by
  rw [label?, linked.node?_adopt, Option.map_map]
  rfl

theorem Linked.above?_adopt (linked : forest.Linked) (there : child < forest.size) {number : Nat}
    (below : ¬ forest.Above child number) (steps : Nat) :
    (forest.adopt parent child).above? steps number = forest.above? steps number := by
  -- A way up that does not meet a moved node is what it was before.
  induction steps generalizing number with
  | zero => rfl
  | succ steps ih =>
    have other : number ≠ child := fun same => below (same ▸ above_self forest number)
    rw [above?, above?, linked.parent?_adopt there, if_neg other]
    exact Option.bind_congr fun upper next => ih fun above => below (.of_parent next above)

theorem Linked.ends_adopt (linked : forest.Linked) (may : forest.MayAdopt parent child)
    (number : Nat) : ∃ steps, (forest.adopt parent child).above? steps number = none := by
  have link := linked.parent?_adopt may.child_lt parent
  have moved : ∃ steps, (forest.adopt parent child).above? steps child = none := by
    obtain ⟨steps, ended⟩ := linked.ends parent
    refine ⟨steps + 1, ?_⟩
    rw [above?_succ_of ((link child).trans (if_pos rfl)),
      linked.above?_adopt may.child_lt may.not_above, ended]
  by_cases below : forest.Above child number
  · obtain ⟨length, reached⟩ := below
    induction length generalizing number with
    | zero => exact Option.some.inj reached ▸ moved
    | succ length ih =>
      by_cases same : number = child
      · exact same ▸ moved
      · obtain ⟨upper, next, reached⟩ := Option.bind_eq_some_iff.mp reached
        obtain ⟨steps, ended⟩ := ih upper reached
        refine ⟨steps + 1, ?_⟩
        rw [above?_succ_of ((link number).trans ((if_neg same).trans next)), ended]
  · obtain ⟨steps, ended⟩ := linked.ends number
    exact ⟨steps, (linked.above?_adopt may.child_lt below steps).trans ended⟩

theorem Linked.adopt (linked : forest.Linked) (may : forest.MayAdopt parent child) :
    (forest.adopt parent child).Linked := by
  have link := linked.parent?_adopt may.child_lt parent
  refine ⟨?_, linked.ends_adopt may⟩
  intro number other
  rw [linked.children_adopt may.parent_lt, link, List.count_append]
  by_cases same : number = child
  · subst same
    have none : ((forest.children other).filter (· != number)).count number = 0 :=
      List.count_eq_zero.mpr (by simp)
    rw [none, Nat.zero_add, if_pos rfl]
    by_cases under : other = parent <;> simp [under, Ne.symm]
  · rw [List.count_filter (by simpa using same), linked.count, if_neg same]
    by_cases under : other = parent <;> simp [under, Ne.symm same]

private theorem subtreeWithin_label (forest : Forest) (depth number : Nat) :
    forest.subtreeWithin depth number =
      .node number ((forest.label? number).map Prod.fst |>.getD .start)
        ((forest.label? number).bind Prod.snd)
        (match depth with
          | 0 => []
          | depth + 1 => (forest.children number).map (forest.subtreeWithin depth)) := by
  cases depth <;> rw [subtreeWithin, label?] <;> cases forest.node? number <;> rfl

theorem Linked.subtree_adopt (linked : forest.Linked) (may : forest.MayAdopt parent child) :
    (forest.adopt parent child).subtree child = forest.subtree child := by
  have label (number : Nat) := linked.label?_adopt parent child number
  -- The old and the new parent stand outside of the tree below the moved node.
  have children (number : Nat) (below : forest.Above child number) :
      (forest.adopt parent child).children number = forest.children number := by
    have under : number ≠ parent := fun same => may.not_above (same ▸ below)
    rw [linked.children_adopt may.parent_lt, if_neg under, List.append_nil]
    exact linked.filter_children fun link => linked.not_above_parent link below
  have same (depth number : Nat) (below : forest.Above child number) :
      (forest.adopt parent child).subtreeWithin depth number =
        forest.subtreeWithin depth number := by
    induction depth generalizing number with
    | zero => rw [subtreeWithin_label, subtreeWithin_label forest, label]
    | succ depth ih =>
      rw [subtreeWithin_label, subtreeWithin_label forest, label, children number below]
      refine congrArg _ (List.map_congr_left fun kid member => ih kid ?_)
      exact .of_parent (linked.mem_children.mp member) below
  rw [subtree, size_adopt]
  exact same _ _ (above_self forest child)

end Adopt

end JackCompiler.Forest
