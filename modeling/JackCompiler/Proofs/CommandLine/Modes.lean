import JackCompiler.Proofs.CommandLine.Isolation
import Mathlib.Data.List.Forall2

namespace JackCompiler.CommandLine

variable {system : System} {options : Options} {tree : FileTree} {working : Path} {workers : Nat}
  {units : List SourceUnit} {unit : SourceUnit} {pool : Pool}
  {results : List (SourceUnit × Except UnitError String)}

def Options.printing (options : Options) (workers : Nat) : Options :=
  { options with stdout := true, workers := workers }

theorem unitResult_printing (filing : options.stdout = false)
    (opened : unit.obstacle? system tree = none)
    (writes : system.refusal? (.write unit.target) = none) (workers : Nat) :
    unitResult system (options.printing workers) tree unit =
      unitResult system options tree unit := by
  have comments : (options.printing workers).comments = options.comments := rfl
  cases compiles : unitText system tree unit options.comments with
  | error error => rw [unitResult_of_error compiles, unitResult_of_error (comments ▸ compiles)]
  | ok text =>
    rw [unitResult_of_printing rfl (comments ▸ compiles),
      unitResult_of_open filing compiles opened, writes]

theorem forall₂_texts {R : SourceUnit × Except UnitError String → String → Prop}
    (each : ∀ result ∈ results, ∀ text, result.2 = .ok text → R result text) :
    List.Forall₂ R (results.filter (·.2.isOk)) (results.filterMap (·.2.toOption)) := by
  induction results with
  | nil => exact .nil
  | cons result results ih =>
    obtain ⟨own, others⟩ := List.forall_mem_cons.mp each
    obtain ⟨unit, result⟩ := result
    cases result with
    | error error => exact ih others
    | ok text => exact .cons (own text rfl) (ih others)

theorem Pool.Faithful.entry?_of_printing (faithful : Faithful system options tree units pool)
    (printing : options.stdout = true) (path : Path) : pool.tree.entry? path = tree.entry? path :=
  faithful.entry?_eq fun _ _ _ file =>
    absurd ((unitFile_eq_some_iff.mp file).1.symm.trans printing) Bool.false_ne_true

/-- Where the code of every unit can be written, a run that prints has the results of one that
writes files. If all that it prints is put out, that is what is in the files, one after the other in
the order of the units that succeed, and otherwise the run that prints fails. -/
theorem modes_agree (sound : tree.Sound) (filing : options.stdout = false)
    (accepts : collect system tree working options.inputs = .ok units)
    (starts : system.refusal? (.start options.workers) = none)
    (starts' : system.refusal? (.start workers) = none)
    (free : ∀ unit ∈ units, tree.isDirectory unit.target = false)
    (creates : ∀ unit ∈ units, system.refusal? (.create unit.shown) = none)
    (writes : ∀ unit ∈ units, system.refusal? (.write unit.target) = none) :
    (∃ filed, Pool.Ends system options tree units filed) ∧
    (∃ printed, Pool.Ends system (options.printing workers) tree units printed) ∧
    ∀ filed printed, Pool.Ends system options tree units filed →
      Pool.Ends system (options.printing workers) tree units printed →
      report system false filed.results = execute system options tree working ∧
      report system true printed.results =
        execute system (options.printing workers) tree working ∧
      printed.results = filed.results ∧
      (∀ path, printed.tree.entry? path = tree.entry? path) ∧
      (execute system options tree working).stdout = "" ∧
      (system.PrintsAll →
        (∃ texts, List.Forall₂
          (fun result text => filed.tree.file? result.1.target = some text.toUTF8)
          (filed.results.filter (·.2.isOk)) texts ∧
          (execute system (options.printing workers) tree working).stdout = String.join texts) ∧
        (execute system (options.printing workers) tree working).notices =
          (execute system options tree working).notices ∧
        (execute system (options.printing workers) tree working).status =
          (execute system options tree working).status) ∧
      ((∃ place unit text, filed.results[place]? = some (unit, .ok text) ∧
          (system.print place text).2.isSome) →
        (execute system (options.printing workers) tree working).status = 1) := by
  have held := held_of_collect sound accepts
  refine ⟨(Pool.start_faithful ..).exists_done sound held,
    (Pool.start_faithful ..).exists_done sound held, ?_⟩
  rintro filed printed ⟨steps, done⟩ ⟨steps', done'⟩
  have faithful := Pool.faithful_of_steps sound held steps
  have faithful' := Pool.faithful_of_steps sound held steps'
  have outcome : report system false filed.results = execute system options tree working := by
    rw [execute_of_collect starts accepts, faithful.results_eq done, filing]
  have outcome' : report system true printed.results =
      execute system (options.printing workers) tree working := by
    rw [@execute_of_collect _ (options.printing workers) _ _ _ starts' accepts,
      faithful'.results_eq done']
    rfl
  -- Both runs come to the results that the units have by themselves, and there the modes agree.
  have same : printed.results = filed.results := by
    rw [faithful.results_eq done, faithful'.results_eq done']
    refine List.map_congr_left fun unit member => ?_
    have opened := obstacle?_eq_none_iff.mpr ⟨creates unit member, free unit member⟩
    rw [unitResult_printing filing opened (writes unit member)]
  refine ⟨outcome, outcome', same, faithful'.entry?_of_printing rfl, ?_, fun prints => ?_,
    fun ⟨place, unit, text, found, broken⟩ => ?_⟩
  · rw [← outcome, stdout_report (absurd · Bool.false_ne_true)]
    rfl
  · rw [← outcome, ← outcome', same, stdout_report fun _ => prints]
    refine ⟨⟨_, forall₂_texts fun result member text succeeds => ?_, if_pos rfl⟩, ?_, ?_⟩
    · rw [faithful.results_eq done, List.mem_map] at member
      obtain ⟨unit, named, rfl⟩ := member
      exact faithful.file?_target sound held done named (unitFile_of_ok filing succeeds)
    · rw [notices_report fun _ => prints, notices_report (absurd · Bool.false_ne_true)]
    · rw [status_report fun _ => prints, status_report (absurd · Bool.false_ne_true)]
  · rw [← outcome', same]
    exact status_report_eq_one_iff.mpr ⟨place, unit, _, found, .inr ⟨rfl, text, rfl, broken⟩⟩

private def commentedCode : String :=
  "// Good\n// function\nfunction Good.f 0\n// return\npush constant 0\nreturn\n// ~Good\n"

theorem modes_agree_mixed : ∃ filed printed,
    Pool.Ends .usual ⟨true, false, 0, mixedInputs⟩ mixedTree mixedUnits filed ∧
    Pool.Ends .usual ⟨true, true, 2, mixedInputs⟩ mixedTree mixedUnits printed ∧
    printed.results = filed.results ∧
    (report .usual true printed.results).stdout = commentedCode ++ commentedCode ∧
    (report .usual true printed.results).status = 1 ∧
    (report .usual false filed.results).stdout = "" ∧
    printed.tree.entry? ["work", "Good.vm"] = none := by
  have sound : mixedTree.Sound := by decide
  have accepts : collect .usual mixedTree ["work"] mixedInputs = .ok mixedUnits := rfl
  have free : ∀ unit ∈ mixedUnits, mixedTree.isDirectory unit.target = false := by decide
  obtain ⟨⟨filed, ends⟩, ⟨printed, ends'⟩, agree⟩ :=
    @modes_agree .usual ⟨true, false, 0, mixedInputs⟩ mixedTree ["work"] 2 mixedUnits sound rfl
      accepts rfl rfl free (fun _ _ => rfl) fun _ _ => rfl
  obtain ⟨outcome, outcome', same, kept, silent, -, -⟩ := agree filed printed ends ends'
  refine ⟨filed, printed, ends, ends', same, ?_, ?_, ?_, (kept _).trans rfl⟩
  · rw [outcome']
    decide +kernel
  · rw [outcome']
    decide +kernel
  · rw [outcome, silent]

end JackCompiler.CommandLine
