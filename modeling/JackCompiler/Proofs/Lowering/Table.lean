import JackCompiler.Proofs.Lowering.Settle

namespace JackCompiler

open Lowering

structure Declared where
  kind : VariableKind
  typeName : String
  name : String

def repeats : List String → List String → List String
  | _, [] => []
  | seen, name :: names =>
    if name ∈ seen then name :: repeats (name :: seen) names else repeats (name :: seen) names

theorem repeats_append (seen first second : List String) :
    repeats seen (first ++ second) = repeats seen first ++ repeats (first.reverse ++ seen) second := by
  induction first generalizing seen with
  | nil => rfl
  | cons name first ih =>
    simp only [List.cons_append, repeats, ih, List.reverse_cons, List.append_assoc, List.nil_append]
    split <;> rfl

theorem repeats_eq_nil (seen names : List String) :
    repeats seen names = [] ↔ names.Nodup ∧ ∀ name ∈ names, name ∉ seen := by
  induction names generalizing seen with
  | nil => simp [repeats]
  | cons name names ih =>
    rw [repeats]
    split
    · simp [*]
    · rw [ih, List.nodup_cons]
      simp only [List.mem_cons, not_or, forall_eq_or_imp]
      constructor
      · rintro ⟨distinct, fresh⟩
        exact ⟨⟨fun member => (fresh name member).1 rfl, distinct⟩, ‹_›,
          fun other member => (fresh other member).2⟩
      · rintro ⟨⟨absent, distinct⟩, -, fresh⟩
        refine ⟨distinct, fun other member => ⟨?_, fresh other member⟩⟩
        rintro rfl
        exact absent member

theorem count_of_mem_repeats {seen names : List String} {name : String}
    (member : name ∈ repeats seen names) :
    name ∈ names ∧ 2 ≤ (names ++ seen).count name := by
  induction names generalizing seen with
  | nil => cases member
  | cons other names ih =>
    have later (inside : name ∈ repeats (other :: seen) names) :
        name ∈ other :: names ∧ 2 ≤ (other :: names ++ seen).count name := by
      obtain ⟨there, twice⟩ := ih inside
      refine ⟨.tail _ there, ?_⟩
      rw [List.count_append, List.count_cons] at twice
      rw [List.cons_append, List.count_cons, List.count_append]
      omega
    rw [repeats] at member
    split at member
    · rcases List.mem_cons.mp member with rfl | inside
      · refine ⟨.head _, ?_⟩
        have before : 1 ≤ seen.count name := List.count_pos_iff.mpr ‹_›
        rw [List.cons_append, List.count_cons_self, List.count_append]
        omega
      · exact later inside
    · exact later member

namespace SymbolTable

def names (table : SymbolTable) : List String := table.entries.map (·.name)

def extend (table : SymbolTable) : List Declared → SymbolTable
  | [] => table
  | d :: ds => extend ⟨⟨d.kind, d.typeName, d.name, table.count d.kind⟩ :: table.entries⟩ ds

theorem extend_append (table : SymbolTable) (first second : List Declared) :
    table.extend (first ++ second) = (table.extend first).extend second := by
  induction first generalizing table with
  | nil => rfl
  | cons d first ih => exact ih _

theorem names_extend (table : SymbolTable) (declared : List Declared) :
    (table.extend declared).names = (declared.map (·.name)).reverse ++ table.names := by
  induction declared generalizing table with
  | nil => rfl
  | cons d declared ih =>
    rw [extend, ih]
    simp [names]

theorem get?_isSome (table : SymbolTable) (name : String) :
    (table.get? name).isSome = true ↔ name ∈ table.names := by
  simp [get?, names]

def duplicates (table : SymbolTable) (declared : List Declared) : List CompileError :=
  (repeats table.names (declared.map (·.name))).map .duplicateSymbol

@[simp]
theorem duplicates_nil (table : SymbolTable) : table.duplicates [] = [] := rfl

theorem duplicates_append (table : SymbolTable) (first second : List Declared) :
    table.duplicates (first ++ second) =
      table.duplicates first ++ (table.extend first).duplicates second := by
  rw [duplicates, List.map_append, repeats_append, List.map_append, duplicates, duplicates,
    names_extend]

theorem declare_settles (table : SymbolTable) (d : Declared) :
    table.declare d.kind d.typeName d.name = settle (table.duplicates [d]) (table.extend [d]) := by
  have found := table.get?_isSome d.name
  rw [declare, add]
  simp only [duplicates, List.map_cons, List.map_nil, repeats]
  cases same : table.get? d.name with
  | none =>
    rw [same] at found
    rw [if_neg (by simpa using found)]
    rfl
  | some entry =>
    rw [same] at found
    rw [if_pos (by simpa using found)]
    rfl

end SymbolTable

theorem Lowering.declareAll_settles (kind : VariableKind) (typeName : String) (names : List String)
    (table : SymbolTable) :
    declareAll kind typeName names table =
      settle (table.duplicates (names.map fun name => ⟨kind, typeName, name⟩))
        (table.extend (names.map fun name => ⟨kind, typeName, name⟩)) := by
  induction names generalizing table with
  | nil => rfl
  | cons name names ih =>
    have first := table.declare_settles ⟨kind, typeName, name⟩
    rw [declareAll, first, settle_bind (ih _), List.map_cons]
    exact congrArg (settle · _) (table.duplicates_append [_] _).symm

end JackCompiler
