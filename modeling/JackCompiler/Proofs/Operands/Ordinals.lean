import JackCompiler.Proofs.Operands.Cells
import Mathlib.Data.List.Induction
import Mathlib.Data.List.Nodup
import Mathlib.Logic.Function.Basic

namespace JackCompiler

inductive TableEdit
  | declare (d : Declared)
  | clear

inductive Level
  | classScope
  | subroutine
  deriving DecidableEq

def SymbolTable.edit (table : SymbolTable) : TableEdit → SymbolTable
  | .declare d => (table.add d.kind d.typeName d.name).2
  | .clear => table.clear

/-- Both tables, empty at first, after some edits. -/
def tablesAfter (history : List (Level × TableEdit)) : Level → SymbolTable :=
  history.foldl (fun tables step =>
    Function.update tables step.1 ((tables step.1).edit step.2)) fun _ => .empty

def TableEdit.leaves (edit : TableEdit) (there : List Declared) : List Declared :=
  match edit with
  | .declare d => if d.name ∈ there.map (·.name) then there else there ++ [d]
  | .clear => []

/-- The variables of a level that have been declared since it was last cleared. -/
def presentAt (level : Level) (history : List (Level × TableEdit)) : List Declared :=
  history.foldl (fun there step => if step.1 = level then step.2.leaves there else there) []

section Histories

variable {level : Level} {history later : List (Level × TableEdit)} {name : String}
  {seen first second : List Declared} {d : Declared}

theorem presentAt_snoc (step : Level × TableEdit) : presentAt level (history ++ [step]) =
    if step.1 = level then step.2.leaves (presentAt level history)
    else presentAt level history := by
  rw [presentAt, List.foldl_append]
  rfl

theorem tablesAfter_snoc (step : Level × TableEdit) : tablesAfter (history ++ [step]) =
    Function.update (tablesAfter history) step.1 ((tablesAfter history step.1).edit step.2) := by
  rw [tablesAfter, List.foldl_append]
  rfl

theorem presentAt_nodup (level : Level) (history : List (Level × TableEdit)) :
    ((presentAt level history).map (·.name)).Nodup := by
  induction history using List.reverseRecOn with
  | nil => exact List.nodup_nil
  | append_singleton history step ih =>
    obtain ⟨own, edit⟩ := step
    rw [presentAt_snoc]
    split
    · cases edit with
      | clear => exact List.nodup_nil
      | declare d =>
        rw [TableEdit.leaves]
        split
        · exact ih
        · next fresh =>
          rw [List.map_append]
          exact ih.append (List.nodup_singleton _) (by simpa using fresh)
    · exact ih

theorem names_extend_empty (declared : List Declared) (name : String) :
    name ∈ (SymbolTable.empty.extend declared).names ↔ name ∈ declared.map (·.name) := by
  rw [SymbolTable.names_extend]
  simp [SymbolTable.names, SymbolTable.empty]

theorem declare_present (declared : List Declared) (old : d.name ∈ declared.map (·.name)) :
    (SymbolTable.empty.extend declared).declare d.kind d.typeName d.name =
      .error (.duplicateSymbol d.name) := by
  have known := (names_extend_empty declared d.name).mpr old
  rw [SymbolTable.declare_settles, SymbolTable.duplicates]
  simp only [List.map_cons, List.map_nil, repeats, if_pos known]
  rfl

theorem declare_fresh (declared : List Declared) (fresh : d.name ∉ declared.map (·.name)) :
    (SymbolTable.empty.extend declared).declare d.kind d.typeName d.name =
      .ok (SymbolTable.empty.extend (declared ++ [d])) := by
  have unknown := mt (names_extend_empty declared d.name).mp fresh
  rw [SymbolTable.declare_settles, SymbolTable.duplicates, SymbolTable.extend_append]
  simp only [List.map_cons, List.map_nil, repeats, if_neg unknown]
  rfl

theorem SymbolTable.add_eq (table : SymbolTable) (d : Declared) :
    table.add d.kind d.typeName d.name =
      match table.declare d.kind d.typeName d.name with
      | .ok grown => (.ok ⟨d.kind, d.typeName, d.name, table.count d.kind⟩, grown)
      | .error error => (.error error, table) := by
  rw [declare, add]
  cases table.get? d.name <;> rfl

theorem edit_extend (edit : TableEdit) (declared : List Declared) :
    (SymbolTable.empty.extend declared).edit edit =
      SymbolTable.empty.extend (edit.leaves declared) := by
  cases edit with
  | clear => rfl
  | declare d =>
    rw [SymbolTable.edit, TableEdit.leaves, SymbolTable.add_eq]
    split_ifs with old
    · rw [declare_present declared old]
    · rw [declare_fresh declared old]

theorem tablesAfter_eq (level : Level) (history : List (Level × TableEdit)) :
    tablesAfter history level = SymbolTable.empty.extend (presentAt level history) := by
  induction history using List.reverseRecOn generalizing level with
  | nil => rfl
  | append_singleton history step ih =>
    rw [tablesAfter_snoc, presentAt_snoc]
    by_cases own : step.1 = level
    · subst own
      rw [Function.update_self, if_pos rfl, ih, edit_extend]
    · rw [Function.update_of_ne (Ne.symm own), if_neg own, ih]

theorem bindingIn_append (name : String) (seen first second : List Declared) :
    bindingIn name seen (first ++ second) =
      (bindingIn name seen first).or (bindingIn name (first.reverse ++ seen) second) := by
  induction first generalizing seen with
  | nil => rfl
  | cons d first ih =>
    rw [List.cons_append, bindingIn, bindingIn]
    split
    · rfl
    · rw [ih, List.reverse_cons, List.append_assoc]
      rfl

theorem bindingIn_isSome :
    (bindingIn name seen first).isSome = true ↔ name ∈ first.map (·.name) := by
  induction first generalizing seen with
  | nil => simp [bindingIn]
  | cons d first ih =>
    rw [bindingIn]
    split
    · next same => simp [same]
    · next other => simp [ih, Ne.symm other]

theorem get?_tablesAfter (level : Level) (history : List (Level × TableEdit)) (name : String) :
    (tablesAfter history level).get? name =
      (bindingIn name [] (presentAt level history)).map fun binding => binding.entry name := by
  rw [tablesAfter_eq, SymbolTable.get?_extend_empty (presentAt_nodup level history)]

theorem presentAt_append (history : List (Level × TableEdit)) (kept : (level, .clear) ∉ later) :
    ∃ more, presentAt level (history ++ later) = presentAt level history ++ more := by
  induction later using List.reverseRecOn with
  | nil => exact ⟨[], by simp⟩
  | append_singleton later step ih =>
    rw [List.mem_append, not_or] at kept
    obtain ⟨more, same⟩ := ih kept.1
    rw [← List.append_assoc, presentAt_snoc, same]
    split
    · next own =>
      obtain ⟨other, edit⟩ := step
      subst own
      cases edit with
      | clear => simp at kept
      | declare d =>
        rw [TableEdit.leaves]
        split
        · exact ⟨more, rfl⟩
        · exact ⟨more ++ [d], List.append_assoc ..⟩
    · exact ⟨more, rfl⟩

theorem bindingIn_fresh {there more : List Declared} (fresh : d.name ∉ there.map (·.name)) :
    bindingIn d.name [] (there ++ [d] ++ more) =
      some ⟨d.kind, there.countP (·.kind == d.kind), d.typeName⟩ := by
  have absent : bindingIn d.name [] there = none := by
    rw [← Option.not_isSome_iff_eq_none, bindingIn_isSome]
    exact fresh
  rw [List.append_assoc, bindingIn_append, absent, Option.none_or, List.cons_append, bindingIn,
    if_pos rfl, List.append_nil, List.countP_reverse]

theorem size_extend (declared : List Declared) (table : SymbolTable) :
    (table.extend declared).size = table.size + declared.length := by
  induction declared generalizing table with
  | nil => rfl
  | cons d declared ih =>
    rw [SymbolTable.extend, ih, List.length_cons]
    simp only [SymbolTable.size, List.length_cons]
    omega

theorem size_tablesAfter (level : Level) (history : List (Level × TableEdit)) :
    (tablesAfter history level).size = (presentAt level history).length := by
  rw [tablesAfter_eq, size_extend]
  exact Nat.zero_add _

theorem count_tablesAfter (level : Level) (history : List (Level × TableEdit))
    (kind : VariableKind) : (tablesAfter history level).count kind =
      UInt16.ofNat ((presentAt level history).countP (·.kind == kind)) := by
  rw [tablesAfter_eq, count_extend, namesIn, List.length_map, List.countP_eq_length_filter]

theorem ordinal_of_place {kind : VariableKind} {place : Nat} {d : Declared}
    (there : ((presentAt level history).filter (·.kind == kind))[place]? = some d) :
    ∃ found, (tablesAfter history level).get? d.name = some found ∧
      found.ordinal = UInt16.ofNat place := by
  have distinct := presentAt_nodup level history
  have listed : (namesIn kind (presentAt level history))[place]? = some d.name := by
    rw [namesIn, List.getElem?_map, there, Option.map_some]
  have own : (namesIn kind (presentAt level history)).Nodup :=
    distinct.sublist (List.filter_sublist.map _)
  have first : (namesIn kind (presentAt level history)).idxOf? d.name = some place := by
    obtain ⟨inside, same⟩ := List.getElem?_eq_some_iff.mp listed
    refine List.idxOf?_eq_some_iff.mpr ⟨inside, same, fun earlier less equal => ?_⟩
    exact absurd (own.getElem_inj_iff.mp (equal.trans same.symm)) (Nat.ne_of_lt less)
  rw [idxOf?_namesIn distinct] at first
  obtain ⟨binding, found, index⟩ := Option.map_eq_some_iff.mp first
  refine ⟨binding.entry d.name, ?_, congrArg UInt16.ofNat index⟩
  rw [get?_tablesAfter, (Option.filter_eq_some_iff.mp found).1, Option.map_some]

theorem ordinals_eq_range {kind : VariableKind}
    (few : (presentAt level history).countP (·.kind == kind) ≤ 65536) :
    ((presentAt level history).filter (·.kind == kind)).map (fun d =>
        ((tablesAfter history level).get? d.name).map (·.ordinal.toNat)) =
      (List.range ((presentAt level history).countP (·.kind == kind))).map some := by
  refine List.ext_getElem? fun place => ?_
  rw [List.getElem?_map, List.getElem?_map]
  cases there : ((presentAt level history).filter (·.kind == kind))[place]? with
  | none =>
    have beyond := List.getElem?_eq_none_iff.mp there
    rw [← List.countP_eq_length_filter] at beyond
    rw [List.getElem?_eq_none (by rwa [List.length_range])]
    rfl
  | some d =>
    have less := (List.getElem?_eq_some_iff.mp there).1
    rw [← List.countP_eq_length_filter] at less
    obtain ⟨found, same, ordinal⟩ := ordinal_of_place there
    rw [List.getElem?_range less, Option.map_some, Option.map_some, same, Option.map_some,
      ordinal, UInt16.toNat_ofNat', Nat.mod_eq_of_lt (Nat.lt_of_lt_of_le less few)]

theorem isSome_get?_tablesAfter (level : Level) (history : List (Level × TableEdit))
    (name : String) : ((tablesAfter history level).get? name).isSome ↔
      name ∈ (presentAt level history).map (·.name) := by
  rw [get?_tablesAfter, Option.isSome_map, bindingIn_isSome]

theorem lookup_tablesAfter (history : List (Level × TableEdit)) (name : String) :
    lookup (tablesAfter history .subroutine) (tablesAfter history .classScope) name =
      if name ∈ (presentAt .subroutine history).map (·.name) then
        (tablesAfter history .subroutine).get? name
      else (tablesAfter history .classScope).get? name := by
  have own := isSome_get?_tablesAfter .subroutine history name
  rw [lookup]
  split_ifs with inside
  · exact Option.or_of_isSome (own.mpr inside)
  · have none := Option.not_isSome_iff_eq_none.mp (mt own.mp inside)
    rw [none, Option.none_or]

/-- After any history a name is found exactly if it has been declared since the table was last
cleared. To declare it again fails and changes nothing; any other name can be declared, which
returns the declared variable, and then means that until the table is cleared, with the number of
variables of the kind before it as its ordinal, in sixteen bits. The variables of a kind have the
ordinals 0, 1, ... in order as long as sixteen bits are enough, and those of a subroutine hide those
of the class. -/
theorem table_follows_history (history : List (Level × TableEdit)) :
    (∀ level d, d.name ∈ (presentAt level history).map (·.name) →
      (tablesAfter history level).declare d.kind d.typeName d.name =
          .error (.duplicateSymbol d.name) ∧
        (tablesAfter history level).add d.kind d.typeName d.name =
          (.error (.duplicateSymbol d.name), tablesAfter history level) ∧
        tablesAfter (history ++ [(level, .declare d)]) = tablesAfter history) ∧
    (∀ level d, d.name ∉ (presentAt level history).map (·.name) →
      (tablesAfter history level).declare d.kind d.typeName d.name =
          .ok (tablesAfter (history ++ [(level, .declare d)]) level) ∧
        (tablesAfter history level).add d.kind d.typeName d.name =
          (.ok ⟨d.kind, d.typeName, d.name,
              UInt16.ofNat ((presentAt level history).countP (·.kind == d.kind))⟩,
            tablesAfter (history ++ [(level, .declare d)]) level) ∧
        (∀ later, (level, .clear) ∉ later →
          (tablesAfter (history ++ [(level, .declare d)] ++ later) level).get? d.name =
            some ⟨d.kind, d.typeName, d.name,
              UInt16.ofNat ((presentAt level history).countP (·.kind == d.kind))⟩) ∧
        ∀ name, name ≠ d.name →
          (tablesAfter (history ++ [(level, .declare d)]) level).get? name =
            (tablesAfter history level).get? name) ∧
    (∀ level name, ((tablesAfter history level).get? name).isSome ↔
      name ∈ (presentAt level history).map (·.name)) ∧
    (∀ level kind, ((tablesAfter history level).count kind).toNat =
      (presentAt level history).countP (·.kind == kind) % 65536) ∧
    (∀ level, (tablesAfter history level).size = (presentAt level history).length) ∧
    (∀ level kind, (presentAt level history).countP (·.kind == kind) ≤ 65536 →
      ((presentAt level history).filter (·.kind == kind)).map (fun d =>
          ((tablesAfter history level).get? d.name).map (·.ordinal.toNat)) =
        (List.range ((presentAt level history).countP (·.kind == kind))).map some) ∧
    ∀ name, lookup (tablesAfter history .subroutine) (tablesAfter history .classScope) name =
      if name ∈ (presentAt .subroutine history).map (·.name) then
        (tablesAfter history .subroutine).get? name
      else (tablesAfter history .classScope).get? name := by
  have refused (level : Level) (d : Declared)
      (old : d.name ∈ (presentAt level history).map (·.name)) :
      (tablesAfter history level).declare d.kind d.typeName d.name =
        .error (.duplicateSymbol d.name) := by
    rw [tablesAfter_eq, declare_present _ old]
  have accepted (level : Level) (d : Declared)
      (fresh : d.name ∉ (presentAt level history).map (·.name)) :
      (tablesAfter history level).declare d.kind d.typeName d.name =
        .ok (tablesAfter (history ++ [(level, .declare d)]) level) := by
    rw [tablesAfter_eq, declare_fresh _ fresh, tablesAfter_eq, presentAt_snoc, if_pos rfl,
      TableEdit.leaves, if_neg fresh]
  refine ⟨fun level d old => ⟨refused level d old, ?_, ?_⟩,
    fun level d fresh => ⟨accepted level d fresh, ?_, fun later kept => ?_, fun name other => ?_⟩,
    fun level => isSome_get?_tablesAfter level history,
    fun level kind => ?_, fun level => size_tablesAfter level history,
    fun level kind => ordinals_eq_range, lookup_tablesAfter history⟩
  · rw [SymbolTable.add_eq, refused level d old]
  · rw [tablesAfter_snoc, tablesAfter_eq, edit_extend, TableEdit.leaves, if_pos old,
      ← tablesAfter_eq, Function.update_eq_self]
  · rw [SymbolTable.add_eq, accepted level d fresh, count_tablesAfter]
  · obtain ⟨more, same⟩ := presentAt_append (history ++ [(level, .declare d)]) kept
    rw [get?_tablesAfter, same, presentAt_snoc, if_pos rfl, TableEdit.leaves, if_neg fresh,
      bindingIn_fresh fresh]
    rfl
  · have none : bindingIn name ((presentAt level history).reverse ++ []) [d] = none := by
      rw [bindingIn, if_neg other.symm, bindingIn]
    rw [get?_tablesAfter, presentAt_snoc, if_pos rfl, TableEdit.leaves, if_neg fresh,
      bindingIn_append, none, Option.or_none, get?_tablesAfter]
  · rw [count_tablesAfter, UInt16.toNat_ofNat']

end Histories

end JackCompiler
