import JackCompiler.Proofs.CommandLine.Pool
import Mathlib.Data.List.Perm.Basic

namespace JackCompiler.CommandLine

variable {system : System} {options : Options} {tree files : FileTree} {units : List SourceUnit}
  {unit : SourceUnit} {progress : Progress} {job : Job} {before after : List Job}
  {text part : String} {count : Nat} {pool : Pool}

namespace Progress

theorem Faithful.output (faithful : progress.Faithful system options tree unit)
    (opened : progress.output? (unit.blocked system) = some (part, count)) :
    unitFile system options tree unit = some part := by
  cases progress with
  | writing text =>
    obtain ⟨filing, compiles, free, -⟩ := faithful
    cases opened
    exact unitFile_eq_some_iff.mpr ⟨filing, free, text, compiles, rfl⟩
  | written text =>
    cases opened
    have whole := unitFile_of_ok faithful.1 faithful.2
    obtain ⟨filing, free, own, compiles, same⟩ := unitFile_eq_some_iff.mp whole
    by_cases blocked : unit.blocked system = true
    · simpa [blocked, same] using whole
    · simpa [blocked] using whole
  | failed error =>
    cases error with
    | unwritten message =>
      cases opened
      exact congrArg (filing _) faithful
    | _ => cases opened
  | _ => cases opened

theorem Faithful.result {result : Except UnitError String}
    (faithful : progress.Faithful system options tree unit)
    (finished : progress.result? = some result) :
    unitResult system options tree unit = result := by
  cases progress with
  | written | printed => cases finished; exact faithful.2
  | failed => cases finished; exact faithful
  | _ => cases finished

end Progress

def Job.Leads (system : System) (files : FileTree) (job : Job) : Prop :=
  ∃ part count content, job.output? system = some (part, count) ∧
    files.file? job.unit.target = some content ∧ HasFirst part.toUTF8 count content

namespace Pool

/-- What holds of a pool after every turn, by the files before the run. -/
structure Faithful (system : System) (options : Options) (tree : FileTree)
    (units : List SourceUnit) (pool : Pool) : Prop where
  units : pool.jobs.map Job.unit = units
  progress : ∀ job ∈ pool.jobs, job.progress.Faithful system options tree job.unit
  kept : ∀ path, (∀ job ∈ pool.jobs, (job.output? system).isSome → job.unit.target ≠ path) →
    pool.tree.entry? path = tree.entry? path
  led : ∀ job ∈ pool.jobs, (job.output? system).isSome →
    ∃ lead ∈ pool.jobs, lead.unit.target = job.unit.target ∧ lead.Leads system pool.tree

theorem start_faithful (system : System) (options : Options) (tree : FileTree)
    (units : List SourceUnit) : Faithful system options tree units (start tree units) where
  units := by simp [start, Function.comp_def]
  progress job member := by
    obtain ⟨unit, -, rfl⟩ := List.mem_map.mp member
    trivial
  kept _ _ := rfl
  led job member opened := by
    obtain ⟨unit, -, rfl⟩ := List.mem_map.mp member
    cases opened

theorem mem_middle {other : Job} :
    other ∈ before ++ job :: after ↔ other = job ∨ other ∈ before ++ after :=
  List.perm_middle.mem_iff.trans List.mem_cons

namespace Faithful

theorem unit_mem (faithful : Faithful system options tree units pool) (member : job ∈ pool.jobs) :
    job.unit ∈ units :=
  faithful.units ▸ List.mem_map_of_mem member

theorem known_of_turn
    (faithful : Faithful system options tree units ⟨files, before ++ job :: after⟩)
    (known : progress.Faithful system options tree job.unit) :
    ∀ other ∈ before ++ ⟨job.unit, progress⟩ :: after,
      other.progress.Faithful system options tree other.unit := by
  intro other member
  obtain rfl | member := mem_middle.mp member
  · exact known
  · exact faithful.progress other (mem_middle.mpr (.inr member))

theorem stay (faithful : Faithful system options tree units ⟨files, before ++ job :: after⟩)
    (known : progress.Faithful system options tree job.unit)
    (fewer : ∀ part count, job.output? system = some (part, count) →
      ∃ less ≤ count, Job.output? system ⟨job.unit, progress⟩ = some (part, less))
    (opened : (Job.output? system ⟨job.unit, progress⟩).isSome → (job.output? system).isSome) :
    Faithful system options tree units ⟨files, before ++ ⟨job.unit, progress⟩ :: after⟩ where
  units := by simpa using faithful.units
  progress := faithful.known_of_turn known
  kept path apart := by
    refine faithful.kept path fun other member shown => ?_
    obtain rfl | member := mem_middle.mp member
    · obtain ⟨⟨text, count⟩, output⟩ := Option.isSome_iff_exists.mp shown
      obtain ⟨less, -, output⟩ := fewer text count output
      exact apart ⟨_, progress⟩ (mem_middle.mpr (.inl rfl)) (by rw [output]; rfl)
    · exact apart other (mem_middle.mpr (.inr member)) shown
  led other member shown := by
    -- Before the turn the same unit had opened its file, and who led there still does.
    have before : ∃ old ∈ before ++ job :: after, old.unit = other.unit ∧
        (old.output? system).isSome := by
      obtain rfl | member := mem_middle.mp member
      · exact ⟨job, mem_middle.mpr (.inl rfl), rfl, opened shown⟩
      · exact ⟨other, mem_middle.mpr (.inr member), rfl, shown⟩
    obtain ⟨old, member, same, shown⟩ := before
    obtain ⟨lead, member, target, leads⟩ := faithful.led old member shown
    rw [same] at target
    obtain rfl | member := mem_middle.mp member
    · obtain ⟨text, count, content, output, found, first⟩ := leads
      obtain ⟨less, le, output⟩ := fewer text count output
      exact ⟨_, mem_middle.mpr (.inl rfl), target, text, less, content, output, found,
        first.mono le⟩
    · exact ⟨lead, mem_middle.mpr (.inr member), target, leads⟩

theorem stay_closed (faithful : Faithful system options tree units ⟨files, before ++ job :: after⟩)
    (known : progress.Faithful system options tree job.unit)
    (closed : job.output? system = none)
    (closed' : Job.output? system ⟨job.unit, progress⟩ = none) :
    Faithful system options tree units ⟨files, before ++ ⟨job.unit, progress⟩ :: after⟩ :=
  faithful.stay known (by simp [closed]) (by simp [closed'])

theorem put {content : ByteArray} {lead : Job}
    (faithful : Faithful system options tree units ⟨files, before ++ job :: after⟩)
    (known : progress.Faithful system options tree job.unit)
    (opened : (Job.output? system ⟨job.unit, progress⟩).isSome) (below : job.unit.target ≠ [])
    (member : lead ∈ before ++ ⟨job.unit, progress⟩ :: after)
    (target : lead.unit.target = job.unit.target)
    (leads : lead.Leads system (files.write job.unit.target content)) :
    Faithful system options tree units
      ⟨files.write job.unit.target content, before ++ ⟨job.unit, progress⟩ :: after⟩ where
  units := by simpa using faithful.units
  progress := faithful.known_of_turn known
  kept path apart := by
    have elsewhere : path ≠ job.unit.target := (apart _ (mem_middle.mpr (.inl rfl)) opened).symm
    rw [FileTree.entry?_write _ below, if_neg elsewhere]
    refine faithful.kept path fun other member shown => ?_
    obtain rfl | member := mem_middle.mp member
    · exact elsewhere.symm
    · exact apart other (mem_middle.mpr (.inr member)) shown
  led other at_hand shown := by
    -- What is put down changes who leads in its own file, and elsewhere nobody.
    by_cases here : other.unit.target = job.unit.target
    · exact ⟨lead, member, target.trans here.symm, leads⟩
    · obtain rfl | at_hand := mem_middle.mp at_hand
      · exact absurd rfl here
      · obtain ⟨old, member, same, text, count, held, output, found, first⟩ :=
          faithful.led other (mem_middle.mpr (.inr at_hand)) shown
        have away : old.unit.target ≠ job.unit.target := same ▸ here
        have kept : FileTree.entry? (files.write job.unit.target content) old.unit.target =
            files.entry? old.unit.target := by
          rw [FileTree.entry?_write content below, if_neg away]
        obtain rfl | member := mem_middle.mp member
        · exact absurd rfl away
        · exact ⟨old, mem_middle.mpr (.inr member), same, text, count, held, output,
            (FileTree.file?_congr kept).trans found, first⟩

variable (sound : tree.Sound) (held : ∀ unit ∈ units, unit.Held tree)
  (faithful : Faithful system options tree units pool)

include sound held faithful

theorem entry?_path (member : unit ∈ units) :
    pool.tree.entry? unit.path = tree.entry? unit.path := by
  refine faithful.kept unit.path fun job at_work opened => ?_
  obtain ⟨⟨part, count⟩, output⟩ := Option.isSome_iff_exists.mp opened
  have file := (faithful.progress job at_work).output output
  have free := (obstacle?_eq_none_iff.mp (unitFile_eq_some_iff.mp file).2.1).2
  exact SourceUnit.target_ne_path sound (held _ (faithful.unit_mem at_work)) (held unit member) free

omit sound held in
theorem isDirectory_target : pool.tree.isDirectory unit.target = tree.isDirectory unit.target := by
  by_cases taken : ∃ job ∈ pool.jobs, (job.output? system).isSome ∧ job.unit.target = unit.target
  · obtain ⟨job, at_work, opened, same⟩ := taken
    obtain ⟨⟨part, count⟩, output⟩ := Option.isSome_iff_exists.mp opened
    have file := (faithful.progress job at_work).output output
    have free := (obstacle?_eq_none_iff.mp (unitFile_eq_some_iff.mp file).2.1).2
    obtain ⟨lead, -, target, -, -, content, -, found, -⟩ := faithful.led job at_work opened
    rw [FileTree.file?_eq_some_iff, target, same] at found
    rw [← same, free, same, FileTree.isDirectory, found]
  · refine FileTree.isDirectory_congr (faithful.kept _ fun job at_work opened same => taken ?_)
    exact ⟨job, at_work, opened, same⟩

omit sound held in
theorem obstacle?_eq : unit.obstacle? system pool.tree = unit.obstacle? system tree := by
  rw [SourceUnit.obstacle?, SourceUnit.obstacle?, faithful.isDirectory_target]

theorem part_eq {other : Job} {part' : String} {count' : Nat} (member : job ∈ pool.jobs)
    (output : job.output? system = some (part, count)) (member' : other ∈ pool.jobs)
    (output' : other.output? system = some (part', count'))
    (same : other.unit.target = job.unit.target) : part' = part := by
  obtain ⟨-, free, text, compiles, rfl⟩ :=
    unitFile_eq_some_iff.mp ((faithful.progress job member).output output)
  obtain ⟨-, -, text', compiles', rfl⟩ :=
    unitFile_eq_some_iff.mp ((faithful.progress other member').output output')
  have path := SourceUnit.path_eq_of_target_eq sound (held _ (faithful.unit_mem member))
    (held _ (faithful.unit_mem member')) (obstacle?_eq_none_iff.mp free).2 same
  rw [text_eq_of_path_eq path compiles compiles', SourceUnit.blocked, SourceUnit.blocked, same]

end Faithful

section Turned

variable {source : String} {code : Code} {room : Nat}

theorem turned_waiting (sound : tree.Sound) (held : ∀ unit ∈ units, unit.Held tree)
    (faithful : Faithful system options tree units ⟨files, before ++ ⟨unit, .waiting⟩ :: after⟩) :
    Faithful system options tree units
      (turned system options room files before ⟨unit, .waiting⟩ after) := by
  have named : unit ∈ units := faithful.unit_mem (mem_middle.mpr (.inl rfl))
  have read : unit.read system files = unit.read system tree := by
    rw [SourceUnit.read, SourceUnit.read,
      FileTree.file?_congr (faithful.entry?_path sound held named)]
  simp only [turned, advance, read]
  cases found : unit.read system tree with
  | ok source => exact faithful.stay_closed found rfl rfl
  | error error =>
    refine faithful.stay_closed (unitResult_of_error (unitText_of_unread found _)) rfl ?_
    exact output?_failed (fun message same => read_ne_unwritten message (same ▸ found)) _

theorem turned_loaded
    (faithful :
      Faithful system options tree units ⟨files, before ++ ⟨unit, .loaded source⟩ :: after⟩) :
    Faithful system options tree units
      (turned system options room files before ⟨unit, .loaded source⟩ after) := by
  have read : unit.read system tree = .ok source := faithful.progress _ (mem_middle.mpr (.inl rfl))
  have text := unitText_of_read read options.comments
  simp only [turned, advance]
  split
  · rename_i printing
    exact faithful.stay_closed (printed_faithful read printing) rfl (printed_output ..)
  · rename_i filing
    cases compiles : compile options.comments source with
    | ok code =>
      rw [compileToText, compiles] at text
      exact faithful.stay_closed ⟨by simpa using filing, text⟩ rfl rfl
    | error error =>
      rw [compileToText, compiles] at text
      exact faithful.stay_closed (unitResult_of_error text) rfl rfl

theorem turned_compiled
    (faithful :
      Faithful system options tree units ⟨files, before ++ ⟨unit, .compiled code⟩ :: after⟩) :
    Faithful system options tree units
      (turned system options room files before ⟨unit, .compiled code⟩ after) := by
  obtain ⟨filing, text⟩ := faithful.progress _ (mem_middle.mpr (.inl rfl))
  have obstacle : unit.obstacle? system files = unit.obstacle? system tree := faithful.obstacle?_eq
  simp only [turned, advance, obstacle, code.writeTo_eq, String.empty_append]
  cases stopped : unit.obstacle? system tree with
  | some error =>
    refine faithful.stay_closed (unitResult_of_obstacle filing text stopped) rfl ?_
    exact output?_failed (fun message same => obstacle?_ne_unwritten message (same ▸ stopped)) _
  | none =>
    have below := SourceUnit.target_ne_nil (obstacle?_eq_none_iff.mp stopped).2
    refine faithful.put ⟨filing, text, stopped, fun _ => rfl⟩ rfl below (mem_middle.mpr (.inl rfl))
      rfl ?_
    exact ⟨_, _, _, rfl, FileTree.file?_write _ below, .empty _⟩

/-- Whoever leads where a unit writes still leads there: both write the same text. -/
theorem turned_writing (sound : tree.Sound) (held : ∀ unit ∈ units, unit.Held tree)
    (faithful :
      Faithful system options tree units ⟨files, before ++ ⟨unit, .writing text count⟩ :: after⟩) :
    Faithful system options tree units
      (turned system options room files before ⟨unit, .writing text count⟩ after) := by
  have member : (⟨unit, .writing text count⟩ : Job) ∈
      before ++ ⟨unit, .writing text count⟩ :: after := mem_middle.mpr (.inl rfl)
  obtain ⟨filing, compiles, free, stuck⟩ := faithful.progress _ member
  have result := unitResult_of_open filing compiles free
  by_cases more : count < text.toUTF8.size
  · cases refused : system.refusal? (.write unit.target) with
    | some message =>
      -- All that was to be written is lost, so the file stays as empty as it was made.
      have some : text ≠ "" := by
        rintro rfl
        exact absurd more (Nat.not_lt_zero _)
      have blocked : unit.blocked system = true := by
        rw [SourceUnit.blocked, refused]
        rfl
      rw [refused] at result
      simp only [turned, advance, if_pos more, refused]
      refine faithful.stay (result.trans (if_neg some)) (fun part' count' output => ?_) fun _ => rfl
      rw [Job.output?, Progress.output?, blocked] at output
      cases output
      exact ⟨0, Nat.zero_le _, rfl⟩
    | none =>
      have clear : unit.blocked system = false := by
        rw [SourceUnit.blocked, refused]
        rfl
      have output (count : Nat) :
          Job.output? system ⟨unit, .writing text count⟩ = some (text, count) := by
        rw [Job.output?, Progress.output?, clear]
        rfl
      have below := SourceUnit.target_ne_nil (obstacle?_eq_none_iff.mp free).2
      have own (count : Nat) : Progress.Faithful system options tree unit (.writing text count) :=
        ⟨filing, compiles, free, fun blocked => by cases clear.symm.trans blocked⟩
      obtain ⟨lead, leader, target, part', so_far, content, output', found, first⟩ :=
        faithful.led _ member rfl
      cases faithful.part_eq sound held member (output _) leader output' target
      have content_eq : files.file? unit.target = some content :=
        (congrArg _ target.symm).trans found
      have grown {reach : Nat} := @first.overwrite _ _ _ _ (room + 1) reach more.le
      have holds (content : ByteArray) :
          (files.write unit.target content).file? lead.unit.target = some content :=
        (congrArg _ target).trans (FileTree.file?_write content below)
      simp only [turned, advance, if_pos more, refused, content_eq, Option.getD_some]
      obtain rfl | leader := mem_middle.mp leader
      · cases output'.symm.trans (output count)
        exact faithful.put (own _) rfl below (mem_middle.mpr (.inl rfl)) rfl
          ⟨text, _, _, output _, holds _, grown fun place lt => by omega⟩
      · exact faithful.put (own _) rfl below (mem_middle.mpr (.inr leader)) target
          ⟨text, so_far, _, output', holds _, grown fun _ => .inl⟩
  · have done : unitResult system options tree unit = .ok text := by
      -- Where the system refuses to write, only an empty text gets so far.
      cases refused : system.refusal? (.write unit.target) with
      | none => rw [result, refused]
      | some message =>
        have start := stuck (by rw [SourceUnit.blocked, refused]; rfl)
        have empty : text.utf8ByteSize = 0 := by
          rw [start] at more
          exact Nat.eq_zero_of_not_pos more
        rw [result, refused]
        exact if_pos (String.utf8ByteSize_eq_zero_iff.mp empty)
    simp only [turned, advance, if_neg more]
    refine faithful.stay ⟨filing, done⟩ (fun part' count' output => ?_) fun _ => rfl
    cases output
    exact ⟨_, Nat.not_lt.mp more, rfl⟩

end Turned

theorem Faithful.step {next : Pool} (sound : tree.Sound) (held : ∀ unit ∈ units, unit.Held tree)
    (faithful : Faithful system options tree units pool) (step : Step system options pool next) :
    Faithful system options tree units next := by
  obtain ⟨files, before, after, ⟨unit, progress⟩, room, busy⟩ := step
  cases progress with
  | waiting => exact turned_waiting sound held faithful
  | loaded source => exact turned_loaded faithful
  | compiled code => exact turned_compiled faithful
  | writing text count => exact turned_writing sound held faithful
  | written | printed | failed => cases busy

theorem faithful_of_steps (sound : tree.Sound) (held : ∀ unit ∈ units, unit.Held tree)
    (steps : Steps system options (start tree units) pool) :
    Faithful system options tree units pool := by
  induction steps with
  | refl => exact start_faithful system options tree units
  | tail _ step ih => exact ih.step sound held step

theorem Faithful.left_lt {next : Pool} (faithful : Faithful system options tree units pool)
    (step : Step system options pool next) :
    next.left system options tree < pool.left system options tree := by
  obtain ⟨files, before, after, job, room, busy⟩ := step
  have known := faithful.progress job (mem_middle.mpr (.inl rfl))
  simpa [left, turned] using left_advance known busy room files

theorem Faithful.exists_done (sound : tree.Sound) (held : ∀ unit ∈ units, unit.Held tree)
    (faithful : Faithful system options tree units pool) :
    ∃ final, Steps system options pool final ∧ final.Done := by
  -- Workers never wait for each other: from every point the run can come to its end.
  induction left : pool.left system options tree using Nat.strongRecOn generalizing pool with
  | _ turns ih =>
  subst left
  by_cases done : pool.Done
  · exact ⟨pool, .refl, done⟩
  · simp only [Done, not_forall] at done
    obtain ⟨job, member, busy⟩ := done
    rw [Option.not_isSome_iff_eq_none] at busy
    obtain ⟨files, jobs⟩ := pool
    obtain ⟨before, after, rfl⟩ := List.append_of_mem member
    have turn := @Step.turn system options files before after job 0 busy
    obtain ⟨final, steps, finished⟩ :=
      ih _ (faithful.left_lt turn) (faithful.step sound held turn) rfl
    exact ⟨final, .head turn steps, finished⟩

namespace Faithful

variable (sound : tree.Sound) (held : ∀ unit ∈ units, unit.Held tree)
  (faithful : Faithful system options tree units pool)

include faithful

theorem results_eq (done : pool.Done) :
    pool.results = units.map fun unit => (unit, unitResult system options tree unit) := by
  -- Each unit has the result that it has by itself.
  have finished (job : Job) (member : job ∈ pool.jobs) :
      job.progress.result? = some (unitResult system options tree job.unit) := by
    obtain ⟨result, found⟩ := Option.isSome_iff_exists.mp (done job member)
    rw [found, (faithful.progress job member).result found]
  have each : pool.results =
      pool.jobs.map fun job => (job.unit, unitResult system options tree job.unit) := by
    rw [results, ← List.filterMap_eq_map]
    refine List.filterMap_congr fun job member => ?_
    rw [finished job member]
    rfl
  rw [each, ← faithful.units, List.map_map]
  rfl

theorem output_of_done (done : pool.Done) (member : job ∈ pool.jobs)
    (file : unitFile system options tree job.unit = some part) :
    ∃ count, job.output? system = some (part, count) ∧ part.toUTF8.size ≤ count := by
  -- Work that opens its file ends with all of the text that is to be there.
  obtain ⟨unit, progress⟩ := job
  have own := faithful.progress _ member
  have finished := done _ member
  have whole {part' : String} {count : Nat}
      (output : Job.output? system ⟨unit, progress⟩ = some (part', count)) : part' = part :=
    Option.some.inj ((own.output output).symm.trans file)
  cases progress with
  | written text =>
    obtain rfl : text = part := Option.some.inj ((unitFile_of_ok own.1 own.2).symm.trans file)
    have output : Job.output? system ⟨unit, .written text⟩ =
        some (if unit.blocked system then "" else text, text.toUTF8.size) := rfl
    rw [whole output] at output
    exact ⟨_, output, le_rfl⟩
  | printed text =>
    exact absurd ((unitFile_eq_some_iff.mp file).1.symm.trans own.1) Bool.false_ne_true
  | failed error =>
    rw [unitFile, own] at file
    cases error with
    | unwritten message =>
      cases file
      exact ⟨0, rfl, le_rfl⟩
    | _ => cases file
  | _ => cases finished

include sound held in
theorem file?_target (done : pool.Done) (member : unit ∈ units)
    (file : unitFile system options tree unit = some part) :
    pool.tree.file? unit.target = some part.toUTF8 := by
  rw [← faithful.units] at member
  obtain ⟨job, at_work, rfl⟩ := List.mem_map.mp member
  obtain ⟨count, output, -⟩ := faithful.output_of_done done at_work file
  obtain ⟨lead, leader, target, part', count', content, output', found, first⟩ :=
    faithful.led job at_work (by rw [output]; rfl)
  cases faithful.part_eq sound held at_work output leader output' target
  -- The work of the unit that leads is over too, so it has all of its text right.
  obtain ⟨reach, ended, all⟩ := faithful.output_of_done done leader
    ((faithful.progress lead leader).output output')
  cases output'.symm.trans ended
  rw [← target, found, first.eq_whole all]

theorem entry?_eq {path : Path}
    (apart : ∀ unit ∈ units, ∀ part, unitFile system options tree unit = some part →
      unit.target ≠ path) :
    pool.tree.entry? path = tree.entry? path := by
  refine faithful.kept path fun job member opened => ?_
  obtain ⟨⟨part, count⟩, output⟩ := Option.isSome_iff_exists.mp opened
  exact apart job.unit (faithful.unit_mem member) part
    ((faithful.progress job member).output output)

end Faithful

end Pool

section Written

variable {written : List (Path × String)} {path : Path}

end Written

end JackCompiler.CommandLine
