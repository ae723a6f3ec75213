import JackCompiler.Proofs.CommandLine.Results

/-!
# Isolation of units

A run over many units does to each what a run over it alone does, in whatever order the workers take
their turns. Beside the files, only what the system refuses counts. Main statement:
`units_isolated`.
-/

namespace JackCompiler.CommandLine

variable {system : System} {options : Options} {tree : FileTree} {working : Path}
  {inputs : List String} {units : List SourceUnit} {unit : SourceUnit} {pool : Pool}
  {stdout : Bool} {results : List (SourceUnit × Except UnitError String)}

theorem execute_of_collect (starts : system.refusal? (.start options.workers) = none)
    (accepts : collect system tree working options.inputs = .ok units) :
    execute system options tree working =
      report system options.stdout
        (units.map fun unit => (unit, unitResult system options tree unit)) := by
  rw [execute, accepts]
  simp only [starts]

def failureLine? : SourceUnit × Except UnitError String → Option String
  | (_, .ok _) => none
  | (unit, .error error) => some (unit.shown ++ ": " ++ error.message)

def System.PrintsAll (system : System) : Prop :=
  ∀ place text, system.print place text = (text, none)

theorem mapIdx_share (prints : stdout = true → system.PrintsAll) :
    results.mapIdx (share system stdout) = results.map (share system stdout 0) := by
  -- The place of a unit matters to nothing but what the system does with a text.
  have same (place : Nat) (result : SourceUnit × Except UnitError String) :
      share system stdout place result = share system stdout 0 result := by
    obtain ⟨unit, error | text⟩ := result
    · rfl
    · cases stdout with
      | false => rfl
      | true => simp only [share, prints rfl place, prints rfl 0]
  refine List.ext_getElem? fun place => ?_
  rw [List.getElem?_mapIdx, List.getElem?_map]
  cases results[place]? with
  | none => rfl
  | some result => exact congrArg some (same place result)

theorem share_of_prints (prints : stdout = true → system.PrintsAll) (unit : SourceUnit)
    (text : String) :
    share system stdout 0 (unit, .ok text) = ⟨if stdout then text else "", [], false⟩ := by
  cases stdout with
  | false => rfl
  | true => simp only [share, prints rfl 0, if_true]

theorem notices_report (prints : stdout = true → system.PrintsAll) :
    (report system stdout results).notices =
      (results.filterMap failureLine?).flatMap fun line => [.record line, .message line] := by
  simp only [report, mapIdx_share prints]
  -- On the units in their order: only those that fail are told of.
  induction results with
  | nil => rfl
  | cons result results ih =>
    obtain ⟨unit, error | text⟩ := result
    · simp only [List.map_cons, List.flatMap_cons, ih]
      rfl
    · simp only [List.map_cons, List.flatMap_cons, ih, share_of_prints prints]
      rfl

theorem stdout_report (prints : stdout = true → system.PrintsAll) :
    (report system stdout results).stdout =
      if stdout then String.join (results.filterMap (·.2.toOption)) else "" := by
  simp only [report, mapIdx_share prints]
  induction results with
  | nil => simp [String.join]
  | cons result results ih =>
    obtain ⟨unit, error | text⟩ := result
    · simp only [List.map_cons, String.join_cons, ih]
      simp [share, Except.toOption]
    · simp only [List.map_cons, String.join_cons, ih, share_of_prints prints]
      cases stdout <;> simp [Except.toOption]

theorem status_report (prints : stdout = true → system.PrintsAll) :
    (report system stdout results).status =
      exitStatus (results.filterMap failureLine?).length := by
  simp only [report, mapIdx_share prints]
  congr 1
  induction results with
  | nil => rfl
  | cons result results ih =>
    obtain ⟨unit, error | text⟩ := result
    · rw [List.map_cons, List.countP_cons_of_pos rfl, ih]
      rfl
    · rw [List.map_cons, share_of_prints prints, List.countP_cons_of_neg Bool.false_ne_true, ih]
      rfl

theorem status_report_eq_one_iff : (report system stdout results).status = 1 ↔
    ∃ place unit result, results[place]? = some (unit, result) ∧
      ((∃ error, result = .error error) ∨
        stdout = true ∧ ∃ text, result = .ok text ∧ (system.print place text).2.isSome) := by
  have failed (place : Nat) (unit : SourceUnit) (result : Except UnitError String) :
      (share system stdout place (unit, result)).failed = true ↔
        (∃ error, result = .error error) ∨
          stdout = true ∧ ∃ text, result = .ok text ∧ (system.print place text).2.isSome := by
    cases result with
    | error error => simp [share]
    | ok text =>
      cases stdout with
      | false => simp [share]
      | true =>
        rw [share, if_pos rfl]
        split <;> simp [*]
  have counted : (report system stdout results).status = 1 ↔
      0 < (results.mapIdx (share system stdout)).countP Share.failed := by
    simp only [report, exitStatus]
    split <;> simp [*]
  rw [counted, List.countP_pos_iff]
  constructor
  · rintro ⟨one, member, fails⟩
    obtain ⟨place, there⟩ := List.mem_iff_getElem?.mp member
    rw [List.getElem?_mapIdx, Option.map_eq_some_iff] at there
    obtain ⟨⟨unit, result⟩, found, rfl⟩ := there
    exact ⟨place, unit, result, found, (failed place unit result).mp fails⟩
  · rintro ⟨place, unit, result, found, fails⟩
    refine ⟨share system stdout place (unit, result), List.mem_iff_getElem?.mpr ⟨place, ?_⟩,
      (failed place unit result).mpr fails⟩
    rw [List.getElem?_mapIdx, found]
    rfl

/-! ## Files -/

def voidUnit (name : String) : String :=
  "class " ++ name ++ " \x7b function void f() \x7b return; \x7d \x7d"

def voidCode (name : String) : String :=
  "function " ++ name ++ ".f 0\npush constant 0\nreturn\n"

def mixedTree : FileTree :=
  ⟨[(["work"], .directory),
    (["work", "Good.jack"], .file (voidUnit "Good").toUTF8),
    (["work", "Bad.jack"], .file ⟨#[255]⟩),
    (["work", "Bad.vm"], .file (voidCode "Bad").toUTF8)]⟩

def mixedInputs : List String := ["Good.jack", "Bad.jack", "./Good.jack"]

def mixedUnits : List SourceUnit :=
  [⟨"Good.jack", ["work"], "Good.jack"⟩, ⟨"Bad.jack", ["work"], "Bad.jack"⟩,
    ⟨"./Good.jack", ["work"], "Good.jack"⟩]

private def dotted : Nat → String
  | 0 => "D"
  | count + 1 => "./" ++ dotted count

private def longPath : String := dotted 2044

private def longUnit : SourceUnit := ⟨within longPath "B.jack", ["work", "D"], "B.jack"⟩

private def plain (inputs : List String) : Options := ⟨false, false, 0, inputs⟩

end JackCompiler.CommandLine
