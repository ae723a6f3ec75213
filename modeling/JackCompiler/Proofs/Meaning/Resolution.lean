import JackCompiler.Proofs.Lowering.Consistency
import JackCompiler.Proofs.Meaning.Source

namespace JackCompiler

open Lowering

def Binding.entry (binding : Binding) (name : String) : Variable :=
  ⟨binding.kind, binding.typeName, name, UInt16.ofNat binding.index⟩

section Tables

variable {table : SymbolTable} {seen declared : List Declared} {name : String}

theorem SymbolTable.get?_extend_of_absent (absent : name ∉ declared.map (·.name)) :
    (table.extend declared).get? name = table.get? name := by
  induction declared generalizing table with
  | nil => rfl
  | cons d declared ih =>
    simp only [List.map_cons, List.mem_cons, not_or] at absent
    rw [extend, ih absent.2, get?, get?]
    exact List.find?_cons_of_neg (by simpa using fun same => absent.1 same.symm)

theorem SymbolTable.get?_extend (distinct : (declared.map (·.name)).Nodup)
    (counts : ∀ kind, table.entries.countP (·.kind == kind) = seen.countP (·.kind == kind))
    (absent : table.get? name = none) :
    (table.extend declared).get? name =
      (bindingIn name seen declared).map fun binding => binding.entry name := by
  induction declared generalizing table seen with
  | nil => exact absent
  | cons d declared ih =>
    rw [List.map_cons, List.nodup_cons] at distinct
    rw [extend, bindingIn]
    by_cases same : d.name = name
    · rw [if_pos same, get?_extend_of_absent (same ▸ distinct.1), get?]
      rw [List.find?_cons_of_pos (by simpa using same)]
      simp [Binding.entry, count, counts, same]
    · rw [if_neg same]
      refine ih distinct.2 (fun kind => ?_) ?_
      · rw [List.countP_cons, List.countP_cons, counts]
      · rw [get?, List.find?_cons_of_neg (by simpa using same)]
        exact absent

theorem SymbolTable.get?_extend_empty (distinct : (declared.map (·.name)).Nodup) :
    (SymbolTable.empty.extend declared).get? name =
      (bindingIn name [] declared).map fun binding => binding.entry name :=
  get?_extend distinct (fun _ => rfl) rfl

theorem bindingIn_index_lt {binding : Binding} (found : bindingIn name seen declared = some binding) :
    binding.index < seen.countP (·.kind == binding.kind) +
      declared.countP (·.kind == binding.kind) := by
  induction declared generalizing seen with
  | nil => cases found
  | cons d declared ih =>
    rw [bindingIn] at found
    split at found
    · cases found
      simp
    · have later := ih found
      rw [List.countP_cons] at later ⊢
      omega

end Tables

/-- The context of a body knows what the names in it stand for. -/
structure Context.Knows (context : Context) (bindings : Bindings) : Prop where
  className : context.className = bindings.className
  resolve : ∀ name, context.resolve name =
    (bindings.lookup name).map fun binding => binding.entry name
  fits : ∀ name binding, bindings.lookup name = some binding → binding.index < 65536
  isMethod : ∀ name, bindings.isMethod name = (context.kindOf name == some .method)

/-- The counts of a unit fit into sixteen bits. -/
structure ClassDeclaration.Moderate (declaration : ClassDeclaration) : Prop where
  globals : ∀ kind, declaration.variableList.countP (·.kind == kind) < 65536
  locals : ∀ s ∈ declaration.subroutines, ∀ kind, s.declared.countP (·.kind == kind) < 65536
  arguments : ∀ s ∈ declaration.subroutines, ∀ count, .call count ∈ s.occurrences → count < 65535

private def everyKind : List VariableKind := [.static, .field, .argument, .localVariable]

private theorem mem_everyKind (kind : VariableKind) : kind ∈ everyKind := by
  cases kind <;> decide

private def Occurrence.count? : Occurrence → Option Nat
  | .call count => some count
  | .variable _ | .text _ | .leave _ => none

private theorem Occurrence.count?_eq_some {o : Occurrence} {count : Nat} :
    o.count? = some count ↔ o = .call count := by
  cases o <;> simp [count?]

instance (declaration : ClassDeclaration) : Decidable declaration.Moderate :=
  decidable_of_iff
    ((∀ kind ∈ everyKind, declaration.variableList.countP (·.kind == kind) < 65536) ∧
      (∀ s ∈ declaration.subroutines, ∀ kind ∈ everyKind,
        s.declared.countP (·.kind == kind) < 65536) ∧
      ∀ s ∈ declaration.subroutines, ∀ o ∈ s.occurrences, ∀ count ∈ o.count?, count < 65535)
    ⟨fun ⟨globals, locals, arguments⟩ => ⟨fun kind => globals kind (mem_everyKind kind),
        fun s member kind => locals s member kind (mem_everyKind kind),
        fun s member count called => arguments s member _ called count rfl⟩,
      fun moderate => ⟨fun kind _ => moderate.globals kind,
        fun s member kind _ => moderate.locals s member kind,
        fun s member _ inside count same =>
          moderate.arguments s member count (Occurrence.count?_eq_some.mp same ▸ inside)⟩⟩

section Contexts

variable {declaration : ClassDeclaration} {s : SubroutineDeclaration}

theorem ClassDeclaration.context_resolve (formed : ∀ t ∈ declaration.tokens, t.WellFormed)
    (consistent : declaration.Consistent) (comments : Bool) (member : s ∈ declaration.subroutines)
    (name : String) : (declaration.context comments s).resolve name =
      ((declaration.bindings s).lookup name).map fun binding => binding.entry name := by
  have distinct := (s.variableList_nodup (formed_subroutines formed s member)
    declaration.className).mpr (consistent.locals s member)
  change ((SymbolTable.empty.extend (s.variableList declaration.className)).get? name).or
    ((SymbolTable.empty.extend declaration.variableList).get? name) = _
  rw [SymbolTable.get?_extend_empty distinct, SymbolTable.get?_extend_empty consistent.globals,
    ← Option.map_or]
  rfl

theorem ClassDeclaration.context_knows (formed : ∀ t ∈ declaration.tokens, t.WellFormed)
    (consistent : declaration.Consistent) (moderate : declaration.Moderate) (comments : Bool)
    (member : s ∈ declaration.subroutines) :
    (declaration.context comments s).Knows (declaration.bindings s) where
  className := rfl
  resolve := declaration.context_resolve formed consistent comments member
  fits name binding found := by
    rcases Option.or_eq_some_iff.mp found with own | ⟨-, outer⟩
    · have less := bindingIn_index_lt own
      have receiver : (s.receiver declaration.className).countP (·.kind == binding.kind) ≤ 1 := by
        apply Nat.le_trans List.countP_le_length
        rw [SubroutineDeclaration.receiver]
        split <;> simp
      have few := moderate.locals s member binding.kind
      rw [SubroutineDeclaration.variableList, List.countP_append, List.countP_nil] at less
      omega
    · have less := bindingIn_index_lt outer
      have few := moderate.globals binding.kind
      rw [List.countP_nil] at less
      omega
  isMethod _ := rfl

end Contexts

end JackCompiler
