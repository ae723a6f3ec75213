import JackCompiler.Proofs.Operands.Calls

namespace JackCompiler

open Lowering Machine

def ClassDeclaration.FirstNamed (declaration : ClassDeclaration) (name : String)
    (s : SubroutineDeclaration) : Prop :=
  s.name.val.value = name ∧ ∃ before after, declaration.subroutines = before ++ s :: after ∧
    ∀ other ∈ before, other.name.val.value ≠ name

/-- The receiver of a call, if it has one, and the full name that it calls, by the qualifier and the
name that are written. -/
inductive ClassDeclaration.Targets (declaration : ClassDeclaration)
    (caller : SubroutineDeclaration) : Option Token → Token → Option Receiver → String → Prop
  | bare {name : Token} :
      declaration.Targets caller none name (some .current)
        (declaration.className ++ "." ++ name.value)
  | ofObject {qualifier name : Token} {binding : Binding} :
      (declaration.bindings caller).lookup qualifier.value = some binding →
      declaration.Targets caller (some qualifier) name (some (.held binding))
        (binding.typeName ++ "." ++ name.value)
  | ofMethod {qualifier name : Token} {s : SubroutineDeclaration} :
      (declaration.bindings caller).lookup qualifier.value = none →
      declaration.FirstNamed name.value s → s.kind = .method →
      declaration.Targets caller (some qualifier) name (some .current)
        (qualifier.value ++ "." ++ name.value)
  | ofClass {qualifier name : Token} :
      (declaration.bindings caller).lookup qualifier.value = none →
      (∀ s, declaration.FirstNamed name.value s → s.kind ≠ .method) →
      declaration.Targets caller (some qualifier) name none (qualifier.value ++ "." ++ name.value)

/-- The code of a call pushes its receiver and its arguments, in their order, and calls its target
with all of them. -/
def ClassDeclaration.Directs (declaration : ClassDeclaration) (comments : Bool)
    (caller : SubroutineDeclaration) (site : CallSite) (there : Scope) (fragment : Code) : Prop :=
  ∃ (receiver : Option Receiver) (target : String) (pushed : List Code) (count : UInt16),
    declaration.Targets caller site.qualifier site.name receiver target ∧
    List.Forall₂ (fun argument code =>
      visit (declaration.setting comments) argument there = .ok (code, there))
      site.arguments pushed ∧
    fragment = receiver.toList.map Receiver.push ++ pushed.flatten ++ [.call target count] ∧
    count.toNat = site.arguments.length + receiver.toList.length

/-- All calls of a class are in its subroutines, and there each of them calls its target, if a word
can count what it passes. -/
structure ClassDeclaration.Directed (declaration : ClassDeclaration) (comments : Bool)
    (code : Code) : Prop where
  calls : ∀ node, Part node (Phrase.classDeclaration declaration).toTree →
    node.kind = .subroutineCall → ∃ tree ∈ declaration.subroutineTrees, Part node tree
  subroutines : ∀ (index : Nat) s, declaration.subroutines[index]? = some s →
    ∃ before block after tree, declaration.BlockAt comments code index before block after ∧
      declaration.subroutineTrees[index]? = some tree ∧
      ∀ node, Part node tree → node.kind = .subroutineCall →
        declaration.ShowsIn comments tree block node fun there fragment =>
          ∃ site, node.callSite? = some site ∧
            (site.arguments.length < 65535 → declaration.Directs comments s site there fragment)

section Targets

variable {declaration : ClassDeclaration} {comments : Bool} {s : SubroutineDeclaration}
  {name source : String} {code : Code}

theorem ClassDeclaration.kindOf_eq_some_iff {kind : SubroutineKind} :
    declaration.kindOf name = some kind ↔ ∃ s, declaration.FirstNamed name s ∧ s.kind = kind := by
  rw [kindOf, Option.map_eq_some_iff]
  simp only [List.find?_eq_some_iff_append, beq_iff_eq, Bool.not_eq_true', beq_eq_false_iff_ne,
    FirstNamed]

theorem Call.exists_target (formed : ∀ t ∈ declaration.tokens, t.WellFormed)
    (consistent : declaration.Consistent) (comments : Bool) (member : s ∈ declaration.subroutines)
    (c : Call) : ∃ receiver target,
      declaration.Targets s (c.qualifier?.map (·.val)) c.member receiver target ∧
      c.code (declaration.context comments s) =
        receiver.toList.map Receiver.push ++ c.arguments.code (declaration.context comments s) ++
          [.call target (UInt16.ofNat (c.arguments.count + receiver.toList.length))] := by
  cases c with
  | bare name opening arguments closing =>
    exact ⟨_, _, .bare, by rw [code, UInt16.ofNat_add]; rfl⟩
  | qualified qualifier dot name opening arguments closing =>
    have resolve := declaration.context_resolve formed consistent comments member
      qualifier.val.value
    cases found : (declaration.bindings s).lookup qualifier.val.value with
    | some binding =>
      rw [found, Option.map_some] at resolve
      refine ⟨_, _, .ofObject found, ?_⟩
      rw [code, resolve, UInt16.ofNat_add]
      rfl
    | none =>
      rw [found, Option.map_none] at resolve
      rw [code, resolve]
      by_cases method : declaration.kindOf name.val.value = some .method
      · obtain ⟨callee, first, is⟩ := declaration.kindOf_eq_some_iff.mp method
        refine ⟨_, _, .ofMethod found first is, ?_⟩
        rw [if_pos (c := (declaration.context comments s).kindOf _ = _) method, UInt16.ofNat_add]
        rfl
      · refine ⟨_, _, .ofClass found fun callee first is => ?_, ?_⟩
        · exact method (declaration.kindOf_eq_some_iff.mpr ⟨callee, first, is⟩)
        · exact if_neg method

theorem ClassDeclaration.Placed.pushed {c : Call} {number : Nat}
    (placed : declaration.Placed comments s (.call c) number) (place : Nat) :
    List.Forall₂ (fun argument code => visit (declaration.setting comments) argument
        (declaration.context comments s).scope =
          .ok (code, (declaration.context comments s).scope))
      (c.arguments.trees place)
      (c.arguments.list.map (·.code (declaration.context comments s))) := by
  have matched := (List.forall₂_and_left c.arguments.list (c.arguments.trees place)).mpr
    ⟨fun _ member => member, c.arguments.trees_match place⟩
  refine List.forall₂_map_right_iff.mpr (matched.flip.imp ?_)
  rintro tree e ⟨member, place, rfl⟩
  exact placed.visit_argument member place

theorem ClassDeclaration.Placed.directs {c : Call} {number place : Nat}
    (formed : ∀ t ∈ declaration.tokens, t.WellFormed) (faultless : declaration.faults = [])
    (placed : declaration.Placed comments s (.call c) number)
    (few : (c.arguments.trees place).length < 65535) :
    declaration.Directs comments s ⟨c.qualifier?.map (·.val), c.member, c.arguments.trees place⟩
      (declaration.context comments s).scope (c.code (declaration.context comments s)) := by
  have consistent := declaration.consistent_of_faultless formed faultless
  obtain ⟨receiver, target, targets, code⟩ :=
    c.exists_target formed consistent comments placed.member
  have size : (c.arguments.trees place).length = c.arguments.count := by
    rw [← (c.arguments.trees_match place).length_eq, c.arguments.length_list]
  rw [c.arguments.code_eq] at code
  refine ⟨receiver, target, _, _, targets, placed.pushed place, code, ?_⟩
  have single : receiver.toList.length ≤ 1 := by cases receiver <;> simp
  rw [UInt16.toNat_ofNat', size]
  exact Nat.mod_eq_of_lt (by omega)

theorem exists_subroutine_of_call (formed : ∀ t ∈ declaration.tokens, t.WellFormed)
    (faultless : declaration.faults = []) {node : Tree}
    (part : Part node (Phrase.classDeclaration declaration).toTree)
    (kind : node.kind = .subroutineCall) :
    ∃ tree ∈ declaration.subroutineTrees, Part node tree := by
  -- What is visited outside the subroutines is bare, so no call stands there.
  have met : ∃ there, Visits (declaration.setting false) _ _ node there :=
    visits_of_part formed faultless part
  obtain ⟨there, visits⟩ := met
  obtain ⟨s, -, -, ⟨place, tree, inside⟩, -⟩ :=
    visits_unit formed faultless visits (by rw [kind]; rfl)
  exact ⟨_, tree, inside⟩

theorem exists_declaration_of_compile (compiles : compile comments source = .ok code) :
    ∃ declaration, parse .classDeclaration (items source.toList) =
      .ok (.classDeclaration declaration) := by
  cases read : parse .classDeclaration (items source.toList) with
  | error e =>
    rw [compile, read] at compiles
    cases compiles
  | ok phrase =>
    obtain ⟨declaration, rfl, -⟩ := compile_unit comments read
    exact ⟨declaration, rfl⟩

/-- The calls of a compiled unit go where their qualifiers say. -/
theorem calls_directed (compiles : compile comments source = .ok code) :
    ∃ declaration, parse .classDeclaration (items source.toList) =
        .ok (.classDeclaration declaration) ∧ declaration.Directed comments code := by
  obtain ⟨declaration, read⟩ := exists_declaration_of_compile compiles
  obtain ⟨formed, faultless, rfl⟩ := unit_compiled read compiles
  refine ⟨declaration, read, fun node => exists_subroutine_of_call formed faultless,
    fun index s found => ?_⟩
  have member := List.mem_of_getElem? found
  obtain ⟨before, place, after, block⟩ := declaration.exists_blockAt comments formed faultless found
  obtain ⟨place, tree, same⟩ := block.eq_bodyCode formed found
  have inside : declaration.bodyCode comments s place <:+: declaration.code comments :=
    ⟨before, after, same ▸ block.whole.symm⟩
  refine ⟨before, _, after, _, block, tree, fun node part kind => ?_⟩
  rw [same]
  refine showsIn_of_placed formed faultless tree member inside part (by rw [kind]; rfl) ?_
  rintro piece number rfl placed
  obtain ⟨c, rfl⟩ := piece.call_of_kind kind
  obtain ⟨place, called⟩ := c.toTree_callSite? number
  exact ⟨_, called, placed.directs formed faultless⟩

-- The variables are named as a subroutine and as another class, and two subroutines have one name.
private def deskText : String :=
  "class Desk \x7b field Pen draw; " ++
    "method int draw(int draw) \x7b return draw(draw); \x7d " ++
    "function int lift(Desk Pen) \x7b return Pen.draw(Desk.draw(1), Pen.up()); \x7d " ++
    "function int draw() \x7b return draw.up(Ink.draw(Ink.lift(2, 3))); \x7d \x7d"

private def deskCode : Code :=
  [.function "Desk.draw" 0, .push .argument 0, .pop .pointer 0, .push .pointer 0,
    .push .argument 1, .call "Desk.draw" 2, .ret,
    .function "Desk.lift" 0, .push .argument 0, .push .pointer 0, .push .constant 1,
    .call "Desk.draw" 2, .push .argument 0, .call "Desk.up" 1, .call "Desk.draw" 3, .ret,
    .function "Desk.draw" 0, .push .this 0, .push .pointer 0, .push .constant 2, .push .constant 3,
    .call "Ink.lift" 2, .call "Ink.draw" 2, .call "Pen.up" 2, .ret]

theorem calls_directed_desk :
    compile false deskText = .ok deskCode ∧
      ∃ declaration, parse .classDeclaration (items deskText.toList) =
        .ok (.classDeclaration declaration) ∧ declaration.Directed false deskCode := by
  have found : (faultlessUnit? deskText).map (·.code false) = some deskCode := by decide +kernel
  obtain ⟨declaration, unit, same⟩ := Option.map_eq_some_iff.mp found
  have compiles := (compile_of_faultlessUnit? false unit).2
  rw [same] at compiles
  exact ⟨compiles, calls_directed compiles⟩

end Targets

end JackCompiler
