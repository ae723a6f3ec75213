import JackCompiler.Proofs.Operands.Counts
import Mathlib.Data.List.Nodup

/-!
# Calls inside a class

A subroutine reads its parameters from the slots of its arguments, which in a method come after that
of the receiver. A call of it from its own class pushes one value for each slot, in their order.
-/

namespace JackCompiler

open Lowering Machine

/-! ## Slots -/

def SubroutineDeclaration.slot (s : SubroutineDeclaration) (parameter : Nat) : Nat :=
  if s.kind = .method then parameter + 1 else parameter

def SubroutineDeclaration.slots (s : SubroutineDeclaration) : Nat := s.slot s.parameterNames.length

/-- Wherever a subroutine uses a parameter, its code uses the slot of the parameter. -/
def ClassDeclaration.Receives (declaration : ClassDeclaration) (comments : Bool)
    (s : SubroutineDeclaration) (tree : Tree) (block : Code) : Prop :=
  ∀ node use token (k : Nat), Part node tree → node.use? = some (use, token) →
    s.parameterNames[k]? = some token.value →
    declaration.ShowsIn comments tree block node fun _ fragment =>
      ∃ index : UInt16, index.toNat = s.slot k ∧ use.Form comments .argument index fragment

/-! ## Calls -/

structure CallSite where
  qualifier : Option Token
  name : Token
  arguments : List Tree

def Tree.callSite? : Tree → Option CallSite
  | .node _ .subroutineCall _
      [.node _ .identifier (some name) _, _, .node _ .expressionList _ list, _] =>
    some ⟨none, name, list.filter (·.kind == .expression)⟩
  | .node _ .subroutineCall _
      [.node _ .identifier (some qualifier) _, _, .node _ .identifier (some name) _, _,
        .node _ .expressionList _ list, _] =>
    some ⟨some qualifier, name, list.filter (·.kind == .expression)⟩
  | _ => none

theorem kind_of_callSite? {node : Tree} {site : CallSite} (found : node.callSite? = some site) :
    node.kind = .subroutineCall := by
  unfold Tree.callSite? at found
  split at found
  case h_3 => cases found
  all_goals rfl

inductive Receiver
  | current
  | held (binding : Binding)

def Receiver.push : Receiver → Instruction
  | current => .push .pointer 0
  | held binding => .push binding.kind.segment (UInt16.ofNat binding.index)

def Receiver.value {World : Type} (frame : Frame) : Receiver → Action World Value
  | current => pure frame.this
  | held binding => binding.value frame

/-- What stands before the name of a subroutine of the class where another one calls it, and the
object that it is called for. -/
inductive ClassDeclaration.Denotes (declaration : ClassDeclaration)
    (caller callee : SubroutineDeclaration) : Option Token → Option Receiver → Prop
  | ofClass {qualifier : Token} : qualifier.value = declaration.className →
      (declaration.bindings caller).lookup qualifier.value = none →
      declaration.Denotes caller callee (some qualifier)
        (if callee.kind = .method then some .current else none)
  | ofObject {qualifier : Token} {binding : Binding} :
      (declaration.bindings caller).lookup qualifier.value = some binding →
      binding.typeName = declaration.className → callee.kind = .method →
      declaration.Denotes caller callee (some qualifier) (some (.held binding))
  | bare : callee.kind = .method → declaration.Denotes caller callee none (some .current)

/-- The code of a call pushes one value for each slot of the callee: first the receiver, if there is
one, and then each argument in the slot of its parameter. -/
structure ClassDeclaration.Passes (declaration : ClassDeclaration) (comments : Bool)
    (caller callee : SubroutineDeclaration) (receiver : Option Receiver) (arguments : List Tree)
    (there : Scope) (fragment : Code) : Prop where
  code : ∃ (pushed : List Code) (count : UInt16),
    fragment = pushed.flatten ++
      [.call (declaration.className ++ "." ++ callee.name.val.value) count] ∧
    count.toNat = callee.slots ∧ pushed.length = callee.slots ∧
    (∀ object ∈ receiver, pushed[0]? = some [object.push]) ∧
    ∀ (k : Nat) argument, arguments[k]? = some argument → ∃ code,
      pushed[callee.slot k]? = some code ∧
      visit (declaration.setting comments) argument there = .ok (code, there)
  values : ∃ es : List Expression, es.map Expression.tokens = arguments.map Tree.terminals ∧
    ∀ {World : Type} (calls : Calls World) (frame : Frame),
      ∃ slots : List (Action World Value), slots.length = callee.slots ∧
        (∀ object ∈ receiver, slots[0]? = some (object.value frame)) ∧
        (∀ (k : Nat) e, es[k]? = some e →
          slots[callee.slot k]? = some (e.value calls (declaration.bindings caller) frame)) ∧
        Turns calls frame [] fragment (do
          let values ← slots.mapM id
          calls.invoke (declaration.className ++ "." ++ callee.name.val.value) values) one

/-- Wherever a subroutine calls one of its class with as many arguments as that has parameters, it
passes them. -/
def ClassDeclaration.Sends (declaration : ClassDeclaration) (comments : Bool)
    (s : SubroutineDeclaration) (tree : Tree) (block : Code) : Prop :=
  ∀ node site, Part node tree → node.callSite? = some site →
    ∀ callee ∈ declaration.subroutines, callee.name.val.value = site.name.value →
    ∀ receiver, declaration.Denotes s callee site.qualifier receiver →
    site.arguments.length = callee.parameterNames.length →
    (receiver.isSome ↔ callee.kind = .method) ∧
    declaration.ShowsIn comments tree block node
      (declaration.Passes comments s callee receiver site.arguments)

structure ClassDeclaration.Agreed (declaration : ClassDeclaration) (comments : Bool) (code : Code) :
    Prop where
  calls : ∀ node, Part node (Phrase.classDeclaration declaration).toTree →
    node.kind = .subroutineCall → ∃ tree ∈ declaration.subroutineTrees, Part node tree
  subroutines : ∀ (index : Nat) s, declaration.subroutines[index]? = some s →
    ∃ before block after tree, declaration.BlockAt comments code index before block after ∧
      declaration.subroutineTrees[index]? = some tree ∧
      declaration.Starts comments s s.localNames.length
        (max 1 (declaration.namesOfKind .field).length) block ∧
      declaration.Receives comments s tree block ∧ declaration.Sends comments s tree block

/-! ## Arguments -/

def Arguments.list : Arguments → List Expression
  | .empty => []
  | .listed first more => first :: more.map Prod.snd

def Arguments.trees (a : Arguments) (number : Nat) : List Tree :=
  (a.toTree number).1.children.filter (·.kind == .expression)

section Arguments

variable {context : Context}

theorem Arguments.length_list (a : Arguments) : a.list.length = a.count := by
  cases a <;> simp [list, count]

theorem Arguments.code_eq (a : Arguments) :
    a.code context = (a.list.map (·.code context)).flatten := by
  cases a with
  | empty => rfl
  | listed first more =>
    rw [code, list, List.map_cons, List.flatten_cons]
    congr 1
    induction more with
    | nil => rfl
    | cons pair more ih =>
      rw [moreArgumentCode, ih, List.map_cons, List.map_cons, List.flatten_cons]

theorem Arguments.occurrences_eq (a : Arguments) :
    a.occurrences = a.list.flatMap Expression.occurrences := by
  cases a with
  | empty => rfl
  | listed first more =>
    rw [occurrences, list, List.flatMap_cons]
    congr 1
    induction more with
    | nil => rfl
    | cons pair more ih => rw [moreArgumentOccurrences, ih, List.map_cons, List.flatMap_cons]

theorem Arguments.mem_tokens {a : Arguments} {e : Expression} (member : e ∈ a.list) :
    ∀ t ∈ e.tokens, t ∈ a.tokens := by
  intro t inside
  cases a with
  | empty => cases member
  | listed first more =>
    rw [tokens, moreArgumentTokens_eq]
    rcases List.mem_cons.mp member with rfl | later
    · exact List.mem_append_left _ inside
    · obtain ⟨pair, there, rfl⟩ := List.mem_map.mp later
      exact List.mem_append_right _ (List.mem_flatMap.mpr ⟨pair, there, .tail _ inside⟩)

theorem Arguments.trees_match (a : Arguments) (number : Nat) :
    List.Forall₂ (fun (e : Expression) tree => ∃ place, tree = (e.toTree place).1)
      a.list (a.trees number) := by
  cases a with
  | empty =>
    rw [trees, Arguments.toTree]
    exact .nil
  | listed first more =>
    rw [trees, Arguments.toTree_listed, Tree.children_node, list,
      List.filter_cons_of_pos (by simp)]
    refine .cons ⟨_, rfl⟩ ?_
    generalize number + 1 + first.nodes = place
    induction more generalizing place with
    | nil =>
      rw [moreArgumentTrees]
      exact .nil
    | cons pair more ih =>
      rw [moreArgumentTrees_cons, List.filter_cons_of_neg (by simp),
        List.filter_cons_of_pos (by simp)]
      exact .cons ⟨_, rfl⟩ (ih _)

theorem Arguments.trees_terminals (a : Arguments) (number : Nat) :
    a.list.map Expression.tokens = (a.trees number).map Tree.terminals := by
  rw [← List.forall₂_eq_eq_eq, List.forall₂_map_left_iff, List.forall₂_map_right_iff]
  refine (a.trees_match number).imp fun e tree ⟨place, same⟩ => ?_
  rw [same, e.toTree_terminals]

theorem Arguments.list_of_trees {a : Arguments} {number k : Nat} {tree : Tree}
    (there : (a.trees number)[k]? = some tree) :
    ∃ e, a.list[k]? = some e ∧ ∃ place, tree = (e.toTree place).1 := by
  obtain ⟨inside, same⟩ := List.getElem?_eq_some_iff.mp there
  have pairs := a.trees_match number
  have bound : k < a.list.length := pairs.length_eq ▸ inside
  exact ⟨_, List.getElem?_eq_getElem bound, same ▸ pairs.get bound inside⟩

end Arguments

/-! ## Parts of a call -/

namespace Call

def qualifier? : Call → Option Name
  | .bare _ _ _ _ => none
  | .qualified qualifier _ _ _ _ _ => some qualifier

def member : Call → Token
  | .bare name _ _ _ => name.val
  | .qualified _ _ name _ _ _ => name.val

def arguments : Call → Arguments
  | .bare _ _ arguments _ => arguments
  | .qualified _ _ _ _ arguments _ => arguments

private theorem arguments_node (a : Arguments) (number : Nat) :
    (a.toTree number).1 = .node number .expressionList none (a.toTree number).1.children := by
  cases a with
  | empty => rw [Arguments.toTree, Numbering.bind_apply]; rfl
  | listed first more => rw [Arguments.toTree_listed, Tree.children_node]

theorem toTree_callSite? (c : Call) (number : Nat) :
    ∃ place, (c.toTree number).1.callSite? =
      some ⟨c.qualifier?.map (·.val), c.member, c.arguments.trees place⟩ := by
  cases c with
  | bare name opening arguments closing =>
    refine ⟨number + 1 + 1 + 1, ?_⟩
    simp only [toTree, Numbering.bind_apply, Numbering.nameLeaf_apply, Numbering.nextNumber_apply,
      Numbering.wordLeaf_next, Numbering.pure_apply]
    rw [arguments_node]
    rfl
  | qualified qualifier dot name opening arguments closing =>
    refine ⟨number + 1 + 1 + 1 + 1 + 1, ?_⟩
    simp only [toTree, Numbering.bind_apply, Numbering.nameLeaf_apply, Numbering.nextNumber_apply,
      Numbering.wordLeaf_next, Numbering.pure_apply]
    rw [arguments_node]
    rfl

end Call

/-! ## The receiver of a call -/

section Receiver

variable {declaration : ClassDeclaration} {caller callee : SubroutineDeclaration}
  {receiver : Option Receiver} {qualifier? : Option Token}

theorem ClassDeclaration.Denotes.isSome_iff
    (denotes : declaration.Denotes caller callee qualifier? receiver) :
    receiver.isSome ↔ callee.kind = .method := by
  cases denotes with
  | ofClass => split <;> simp [*]
  | ofObject _ _ method => simp [method]
  | bare method => simp [method]

theorem ClassDeclaration.kindOf_eq
    (distinct : (declaration.subroutines.map (·.name.val.value)).Nodup)
    (member : callee ∈ declaration.subroutines) :
    declaration.kindOf callee.name.val.value = some callee.kind := by
  have found : (declaration.subroutines.find?
      (·.name.val.value == callee.name.val.value)).isSome :=
    List.find?_isSome.mpr ⟨callee, member, beq_self_eq_true _⟩
  obtain ⟨other, same⟩ := Option.isSome_iff_exists.mp found
  have named : other.name.val.value = callee.name.val.value := by
    simpa using List.find?_some same
  have equal := List.inj_on_of_nodup_map distinct (List.mem_of_find?_eq_some same) member named
  rw [kindOf, same, Option.map_some, equal]

theorem Call.code_of_denotes (comments : Bool) (formed : ∀ t ∈ declaration.tokens, t.WellFormed)
    (consistent : declaration.Consistent)
    (distinct : (declaration.subroutines.map (·.name.val.value)).Nodup)
    (caller_mem : caller ∈ declaration.subroutines) (callee_mem : callee ∈ declaration.subroutines)
    {c : Call} (named : callee.name.val.value = c.member.value)
    (denotes : declaration.Denotes caller callee (c.qualifier?.map (·.val)) receiver) :
    c.code (declaration.context comments caller) =
      receiver.toList.map Receiver.push ++ c.arguments.code (declaration.context comments caller) ++
        [.call (declaration.className ++ "." ++ callee.name.val.value)
          (UInt16.ofNat (callee.slot c.arguments.count))] := by
  -- The code of a call is what pushes its receiver, its arguments and the call of all of them.
  have resolve := declaration.context_resolve formed consistent comments caller_mem
  have kind := declaration.kindOf_eq distinct callee_mem
  have method (is : callee.kind = .method) (count : Nat) :
      UInt16.ofNat (callee.slot count) = UInt16.ofNat count + 1 := by
    rw [SubroutineDeclaration.slot, if_pos is, UInt16.ofNat_add]
    rfl
  cases c with
  | bare name opening arguments closing =>
    cases denotes with
    | bare is =>
      rw [code, method is]
      simp only [named, member, Call.arguments]
      rfl
  | qualified qualifier dot name opening arguments closing =>
    cases denotes with
    | ofClass owner none =>
      have same : (declaration.context comments caller).kindOf name.val.value = some callee.kind :=
        (congrArg declaration.kindOf named).symm.trans kind
      rw [code, resolve, none, Option.map_none, same]
      by_cases is : callee.kind = .method
      · rw [if_pos (congrArg some is), if_pos is, method is, ← owner, named]
        rfl
      · rw [if_neg (is ∘ Option.some.inj), if_neg is, SubroutineDeclaration.slot, if_neg is,
          ← owner, named]
        rfl
    | ofObject found type is =>
      rw [code, resolve, found, method is, ← type, named]
      rfl

theorem turns_object {World : Type} {calls : Calls World} {frame : Frame} {context : Context}
    (knows : context.Knows (declaration.bindings caller))
    (denotes : declaration.Denotes caller callee qualifier? receiver) :
    ∀ object ∈ receiver, Turns calls frame [] [object.push] (object.value frame) one := by
  intro object called
  cases denotes with
  | ofClass =>
    obtain ⟨-, here⟩ := Option.ite_none_right_eq_some.mp called
    cases here
    exact turns_this
  | @ofObject qualifier _ found =>
    cases called
    exact turns_push (knows.fits _ _ found) qualifier.value
  | bare =>
    cases called
    exact turns_this

end Receiver

/-! ## Values in slots -/

section Slots

variable {World : Type} {calls : Calls World} {frame : Frame} {callee : SubroutineDeclaration}
  {receiver : Option Receiver} {α : Type} {f : Receiver → α}

theorem SubroutineDeclaration.getElem?_slot (same : receiver.isSome ↔ callee.kind = .method)
    (xs : List α) (k : Nat) : (receiver.toList.map f ++ xs)[callee.slot k]? = xs[k]? := by
  cases receiver with
  | none => simp_all [slot]
  | some object => simp_all [slot]

theorem SubroutineDeclaration.length_slots (same : receiver.isSome ↔ callee.kind = .method)
    (xs : List α) : (receiver.toList.map f ++ xs).length = callee.slot xs.length := by
  cases receiver with
  | none => simp_all [slot]
  | some object => simp_all [slot]

theorem turns_slots {pushed : List Code} {slots : List (Action World Value)}
    (each : List.Forall₂ (Turns calls frame [] · · one) pushed slots) :
    Turns calls frame [] pushed.flatten (slots.mapM id) List.reverse := by
  -- Codes that push a value each leave all of them on the stack, the last one on top.
  induction each with
  | nil => exact fun _ _ _ => rfl
  | cons first _ ih =>
    rw [List.flatten_cons, List.mapM_cons]
    refine first.bind fun value _ => ?_
    have lifted : Turns calls frame [value] _ _ _ := ih.lift [value]
    exact lifted.map fun values => List.reverse_cons.symm

theorem slots_length {slots : List (Action World Value)} {memory next : Memory World}
    {values : List Value} (found : slots.mapM id memory = some (values, next)) :
    values.length = slots.length := by
  induction slots generalizing memory values with
  | nil =>
    cases found
    rfl
  | cons slot slots ih =>
    rw [List.mapM_cons] at found
    obtain ⟨⟨value, middle⟩, -, rest⟩ := Option.bind_eq_some_iff.mp found
    obtain ⟨⟨values, last⟩, others, same⟩ := Option.bind_eq_some_iff.mp rest
    cases same
    exact congrArg (· + 1) (ih others)

theorem turns_passing {pushed : List Code} {slots : List (Action World Value)} {count : UInt16}
    (each : List.Forall₂ (Turns calls frame [] · · one) pushed slots)
    (total : count.toNat = slots.length) (name : String) :
    Turns calls frame [] (pushed.flatten ++ [.call name count]) (do
      let values ← slots.mapM id
      calls.invoke name values) one :=
  (turns_slots each).bind fun _ ⟨_, _, found⟩ =>
    turns_call name (total.trans (slots_length found).symm)

end Slots

/-! ## Codes of calls -/

section Codes

variable {declaration : ClassDeclaration} {comments : Bool} {caller callee : SubroutineDeclaration}
  {receiver : Option Receiver} {number place : Nat}

theorem Call.arguments_within (c : Call) : ∀ t ∈ c.arguments.tokens, t ∈ c.tokens := by
  intro t inside
  cases c <;> simp_all [arguments, tokens]

theorem Call.occurrences_eq (c : Call) :
    c.occurrences = c.arguments.occurrences ++ [.call c.arguments.count] := by
  cases c <;> rfl

theorem Call.argument_occurs (c : Call) {e : Expression} (member : e ∈ c.arguments.list) :
    ∀ o ∈ e.occurrences, o ∈ c.occurrences := by
  intro o occurs
  rw [c.occurrences_eq, c.arguments.occurrences_eq]
  exact List.mem_append_left _ (List.mem_flatMap.mpr ⟨e, member, occurs⟩)

theorem ClassDeclaration.Placed.visit_argument {c : Call}
    (placed : declaration.Placed comments caller (.call c) number) {e : Expression}
    (member : e ∈ c.arguments.list) (place : Nat) :
    visit (declaration.setting comments) (e.toTree place).1
        (declaration.context comments caller).scope =
      .ok (e.code (declaration.context comments caller),
        (declaration.context comments caller).scope) := by
  have formed : ∀ t ∈ e.tokens, t.WellFormed := fun t inside =>
    placed.formed t (c.arguments_within t (Arguments.mem_tokens member t inside))
  have clear : (declaration.context comments caller).faults e.occurrences = [] := by
    have all := List.filterMap_eq_nil_iff.mp placed.faultless
    exact List.filterMap_eq_nil_iff.mpr fun o occurs => all o (c.argument_occurs member o occurs)
  rw [visit_expression (agrees_unit declaration comments caller) formed place, clear, settle_nil]

def Call.pushed (c : Call) (context : Context) (receiver : Option Receiver) : List Code :=
  receiver.toList.map (fun object => [object.push]) ++ c.arguments.list.map (·.code context)

def Call.passed {World : Type} (c : Call) (calls : Calls World) (bindings : Bindings)
    (frame : Frame) (receiver : Option Receiver) : List (Action World Value) :=
  receiver.toList.map (·.value frame) ++ c.arguments.list.map (·.value calls bindings frame)

theorem Call.pushed_flatten (c : Call) (context : Context) (receiver : Option Receiver) :
    (c.pushed context receiver).flatten =
      receiver.toList.map Receiver.push ++ c.arguments.code context := by
  rw [pushed, List.flatten_append, c.arguments.code_eq]
  cases receiver <;> rfl

theorem Call.turns_pushed {World : Type} {calls : Calls World} {frame : Frame} {context : Context}
    {c : Call} (knows : context.Knows (declaration.bindings caller))
    (covered : Covered (declaration.bindings caller) c.occurrences) {qualifier? : Option Token}
    (denotes : declaration.Denotes caller callee qualifier? receiver) :
    List.Forall₂ (Turns calls frame [] · · one) (c.pushed context receiver)
      (c.passed calls (declaration.bindings caller) frame receiver) := by
  refine List.rel_append ?_ ?_
  · rw [List.forall₂_map_left_iff, List.forall₂_map_right_iff, List.forall₂_same]
    exact fun object called => turns_object knows denotes object (Option.mem_toList.mp called)
  · rw [List.forall₂_map_left_iff, List.forall₂_map_right_iff, List.forall₂_same]
    exact fun e member => e.turns knows (covered.mono (c.argument_occurs member))

theorem ClassDeclaration.Placed.passes {c : Call} (formed : ∀ t ∈ declaration.tokens, t.WellFormed)
    (faultless : declaration.faults = []) (moderate : declaration.Moderate)
    (distinct : (declaration.subroutines.map (·.name.val.value)).Nodup)
    (placed : declaration.Placed comments caller (.call c) number)
    (member : callee ∈ declaration.subroutines) (named : callee.name.val.value = c.member.value)
    (denotes : declaration.Denotes caller callee (c.qualifier?.map (·.val)) receiver)
    (full : (c.arguments.trees place).length = callee.parameterNames.length) :
    declaration.Passes comments caller callee receiver (c.arguments.trees place)
      (declaration.context comments caller).scope
      (c.code (declaration.context comments caller)) := by
  have consistent := declaration.consistent_of_faultless formed faultless
  have knows := declaration.context_knows formed consistent moderate comments placed.member
  have covered : Covered (declaration.bindings caller) c.occurrences :=
    (covered_of_faultless formed faultless moderate placed.member).mono placed.occurs
  have fits := denotes.isSome_iff
  have size : c.arguments.list.length = callee.parameterNames.length :=
    (c.arguments.trees_match place).length_eq.trans full
  have few : c.arguments.count < 65535 :=
    covered.calls _ (by rw [c.occurrences_eq]; exact List.mem_append_right _ (.head _))
  have slots : (UInt16.ofNat (callee.slot c.arguments.count)).toNat = callee.slots := by
    rw [UInt16.toNat_ofNat', SubroutineDeclaration.slots, ← size, c.arguments.length_list]
    -- The receiver is one more value, and the arguments leave room for it.
    refine Nat.mod_eq_of_lt ?_
    rw [SubroutineDeclaration.slot]
    split <;> omega
  have code := Call.code_of_denotes comments formed consistent distinct placed.member member named
    denotes
  rw [← c.pushed_flatten] at code
  constructor
  · refine ⟨_, _, code, slots, ?_, fun object called => ?_, fun k argument there => ?_⟩
    · rw [Call.pushed, callee.length_slots fits, List.length_map, size,
        SubroutineDeclaration.slots]
    · rw [Option.mem_def.mp called]
      rfl
    · obtain ⟨e, same, number, rfl⟩ := c.arguments.list_of_trees there
      refine ⟨_, ?_, placed.visit_argument (List.mem_of_getElem? same) number⟩
      rw [Call.pushed, callee.getElem?_slot fits, List.getElem?_map, same, Option.map_some]
  · refine ⟨c.arguments.list, c.arguments.trees_terminals place, fun calls frame => ?_⟩
    have length : (c.passed calls (declaration.bindings caller) frame receiver).length =
        callee.slots := by
      rw [Call.passed, callee.length_slots fits, List.length_map, size,
        SubroutineDeclaration.slots]
    refine ⟨_, length, fun object called => ?_, fun k e same => ?_, ?_⟩
    · rw [Option.mem_def.mp called]
      rfl
    · rw [Call.passed, callee.getElem?_slot fits, List.getElem?_map, same, Option.map_some]
    · rw [code]
      exact turns_passing (Call.turns_pushed knows covered denotes) (slots.trans length.symm) _

end Codes

/-! ## Parameters -/

section Parameters

variable {declaration : ClassDeclaration} {comments : Bool} {s : SubroutineDeclaration} {k : Nat}
  {name : String}

theorem length_namesIn (kind : VariableKind) (declared : List Declared) :
    (namesIn kind declared).length = declared.countP (·.kind == kind) := by
  rw [namesIn, List.length_map, List.countP_eq_length_filter]

theorem ClassDeclaration.Moderate.fields_lt (moderate : declaration.Moderate) :
    (declaration.namesOfKind .field).length < 65536 := by
  rw [← declaration.namesIn_kind, length_namesIn]
  exact moderate.globals .field

theorem ClassDeclaration.Moderate.locals_lt (moderate : declaration.Moderate)
    (member : s ∈ declaration.subroutines) : s.localNames.length < 65536 := by
  have few := moderate.locals s member .localVariable
  have none : (s.receiver declaration.className).countP (·.kind == .localVariable) = 0 :=
    List.countP_eq_zero.mpr fun d inside => by
      simp [s.receiver_kind declaration.className d inside]
  rw [← s.namesIn_local declaration.className, length_namesIn, SubroutineDeclaration.variableList,
    List.countP_append, none]
  omega

theorem ClassDeclaration.Moderate.parameters_lt (moderate : declaration.Moderate)
    (member : s ∈ declaration.subroutines) : s.parameterNames.length < 65536 := by
  have few := moderate.locals s member .argument
  have whole := congrArg List.length (s.namesIn_argument declaration.className)
  have receiver : (s.receiver declaration.className).countP (·.kind == .argument) ≤
      (if s.kind = .method then ["this"] else []).length := by
    refine Nat.le_trans List.countP_le_length ?_
    rw [SubroutineDeclaration.receiver]
    split <;> simp
  rw [length_namesIn, SubroutineDeclaration.variableList, List.countP_append,
    List.length_append] at whole
  omega

theorem SubroutineDeclaration.parameterNames_nodup
    (distinct : ((s.variableList declaration.className).map (·.name)).Nodup) :
    s.parameterNames.Nodup := by
  have some : (namesIn .argument (s.variableList declaration.className)).Nodup :=
    distinct.sublist (List.filter_sublist.map _)
  rw [s.namesIn_argument] at some
  exact some.of_append_right

theorem ClassDeclaration.cell?_of_parameter (distinct : s.parameterNames.Nodup)
    (parameter : s.parameterNames[k]? = some name) :
    declaration.cell? s name = some ⟨.argument, s.slot k⟩ := by
  have first : s.parameterNames.idxOf? name = some k := by
    obtain ⟨inside, rfl⟩ := List.getElem?_eq_some_iff.mp parameter
    refine List.idxOf?_eq_some_iff.mpr ⟨inside, rfl, fun j less same => ?_⟩
    exact absurd (distinct.getElem_inj_iff.mp same) (Nat.ne_of_lt less)
  rw [cell?, first]
  rfl

theorem receives_of_faultless (formed : ∀ t ∈ declaration.tokens, t.WellFormed)
    (faultless : declaration.faults = []) (moderate : declaration.Moderate)
    (member : s ∈ declaration.subroutines) {index place : Nat}
    (found : declaration.subroutineTrees[index]? = some (s.toTree place).1)
    (inside : declaration.bodyCode comments s place <:+: declaration.code comments) :
    declaration.Receives comments s (s.toTree place).1 (declaration.bodyCode comments s place) := by
  have consistent := declaration.consistent_of_faultless formed faultless
  have distinct := SubroutineDeclaration.parameterNames_nodup
    ((s.variableList_nodup (formed_subroutines formed s member) declaration.className).mpr
      (consistent.locals s member))
  intro node use token k part used parameter
  refine showsIn_of_placed formed faultless found member inside part (isPiece_of_use? used) ?_
  rintro piece number rfl placed
  rw [piece.tree_use?, Option.map_eq_some_iff] at used
  obtain ⟨⟨use', name⟩, used, same⟩ := used
  cases same
  have form := (placed.uses formed consistent used).2 _
    (declaration.cell?_of_parameter distinct parameter)
  have few := moderate.parameters_lt member
  have less := (List.getElem?_eq_some_iff.mp parameter).1
  have small : s.slot k < 65536 := by
    rw [SubroutineDeclaration.slot]
    split <;> omega
  exact ⟨_, UInt16.toNat_ofNat'.trans (Nat.mod_eq_of_lt small), form⟩

end Parameters

/-! ## Units -/

section Units

variable {source : String} {declaration : ClassDeclaration} {code : Code} {comments : Bool}
  {s : SubroutineDeclaration}

theorem sends_of_faultless (formed : ∀ t ∈ declaration.tokens, t.WellFormed)
    (faultless : declaration.faults = []) (moderate : declaration.Moderate)
    (distinct : (declaration.subroutines.map (·.name.val.value)).Nodup)
    (member : s ∈ declaration.subroutines) {index place : Nat}
    (found : declaration.subroutineTrees[index]? = some (s.toTree place).1)
    (inside : declaration.bodyCode comments s place <:+: declaration.code comments) :
    declaration.Sends comments s (s.toTree place).1 (declaration.bodyCode comments s place) := by
  intro node site part called callee callee_mem named receiver denotes full
  have kind := kind_of_callSite? called
  refine ⟨denotes.isSome_iff,
    showsIn_of_placed formed faultless found member inside part (by rw [kind]; rfl) ?_⟩
  rintro piece number rfl placed
  obtain ⟨c, rfl⟩ := piece.call_of_kind kind
  obtain ⟨place, same⟩ := c.toTree_callSite? number
  obtain rfl := Option.some.inj (same.symm.trans called)
  exact placed.passes formed faultless moderate distinct callee_mem named denotes full

/-- In a compiled unit whose subroutines have different names, a call of one of them from another
passes what the called one reads: each argument in the slot of its parameter, after the receiver
if it is a method. -/
theorem calls_agree
    (read : parse .classDeclaration (items source.toList) = .ok (.classDeclaration declaration))
    (compiles : compile comments source = .ok code) (moderate : declaration.Moderate)
    (distinct : (declaration.subroutines.map (·.name.val.value)).Nodup) :
    declaration.Agreed comments code := by
  obtain ⟨formed, faultless, rfl⟩ := unit_compiled read compiles
  constructor
  · -- What is visited outside the subroutines is bare, so no call stands there.
    intro node part kind
    have met : ∃ there, Visits (declaration.setting comments) _ _ node there :=
      visits_of_part formed faultless part
    obtain ⟨there, visits⟩ := met
    obtain ⟨s, -, -, ⟨place, tree, inside⟩, -⟩ :=
      visits_unit formed faultless visits (by rw [kind]; rfl)
    exact ⟨_, tree, inside⟩
  · intro index s found
    have member := List.mem_of_getElem? found
    obtain ⟨before, place, after, block⟩ :=
      declaration.exists_blockAt comments formed faultless found
    have starts : declaration.Starts comments s _ _ _ := starts_bodyCode declaration s place
    rw [Nat.mod_eq_of_lt (moderate.locals_lt member), Nat.mod_eq_of_lt moderate.fields_lt] at starts
    obtain ⟨place, tree, same⟩ := block.eq_bodyCode formed found
    have inside : declaration.bodyCode comments s place <:+: declaration.code comments :=
      ⟨before, after, same ▸ block.whole.symm⟩
    refine ⟨before, _, after, _, block, tree, starts, ?_⟩
    rw [same]
    exact ⟨receives_of_faultless formed faultless moderate member tree inside,
      sends_of_faultless formed faultless moderate distinct member tree inside⟩

private def penText : String :=
  "class Pen \x7b method int at(int x, int y) \x7b return y; \x7d " ++
    "method int up(int x) \x7b return at(x, 2); \x7d " ++
    "function int far(Pen p) \x7b return p.at(Pen.same(3), 1); \x7d " ++
    "function int same(int n) \x7b return n; \x7d \x7d"

private def penCode : Code :=
  [.function "Pen.at" 0, .push .argument 0, .pop .pointer 0, .push .argument 2, .ret,
    .function "Pen.up" 0, .push .argument 0, .pop .pointer 0, .push .pointer 0, .push .argument 1,
    .push .constant 2, .call "Pen.at" 3, .ret,
    .function "Pen.far" 0, .push .argument 0, .push .constant 3, .call "Pen.same" 1,
    .push .constant 1, .call "Pen.at" 3, .ret,
    .function "Pen.same" 0, .push .argument 0, .ret]

theorem calls_agree_pen :
    ∃ declaration, parse .classDeclaration (items penText.toList) =
        .ok (.classDeclaration declaration) ∧
      compile false penText = .ok penCode ∧ declaration.Agreed false penCode := by
  have found : (faultlessUnit? penText).map (fun d => (d.code false, decide d.Moderate,
      decide (d.subroutines.map (·.name.val.value)).Nodup)) = some (penCode, true, true) := by
    decide +kernel
  obtain ⟨declaration, unit, facts⟩ := Option.map_eq_some_iff.mp found
  obtain ⟨code, facts⟩ := Prod.mk.inj facts
  obtain ⟨moderate, distinct⟩ := Prod.mk.inj facts
  obtain ⟨read, compiles⟩ := compile_of_faultlessUnit? false unit
  rw [code] at compiles
  exact ⟨declaration, read, compiles,
    calls_agree read compiles (of_decide_eq_true moderate) (of_decide_eq_true distinct)⟩

end Units

end JackCompiler
