import JackCompiler.Proofs.CommandLine.Files
import Mathlib.Algebra.Ring.Nat
import Mathlib.Logic.Relation
import Mathlib.Order.Basic

namespace JackCompiler.CommandLine

def overwritten (content chunk : ByteArray) (offset : Nat) : ByteArray :=
  ⟨Array.ofFn fun place : Fin (max content.size (offset + chunk.size)) =>
    if offset ≤ place ∧ place < offset + chunk.size then chunk.data.getD (place - offset) 0
    else content.data.getD place 0⟩

theorem size_overwritten (content chunk : ByteArray) (offset : Nat) :
    (overwritten content chunk offset).size = max content.size (offset + chunk.size) :=
  Array.size_ofFn

theorem getElem?_overwritten {content chunk : ByteArray} {offset place : Nat}
    (lt : place < max content.size (offset + chunk.size)) :
    (overwritten content chunk offset).data[place]? = some
      (if offset ≤ place ∧ place < offset + chunk.size then chunk.data.getD (place - offset) 0
        else content.data.getD place 0) := by
  rw [overwritten, Array.getElem?_ofFn, dif_pos lt]

structure HasFirst (whole : ByteArray) (count : Nat) (content : ByteArray) : Prop where
  size_le : content.size ≤ whole.size
  same : ∀ place < count, content.data[place]? = whole.data[place]?

namespace HasFirst

variable {whole content : ByteArray} {count less offset room reach : Nat}

theorem empty (whole : ByteArray) : HasFirst whole 0 .empty := ⟨Nat.zero_le _, nofun⟩

theorem mono (first : HasFirst whole count content) (le : less ≤ count) :
    HasFirst whole less content :=
  ⟨first.size_le, fun place lt => first.same place (Nat.lt_of_lt_of_le lt le)⟩

theorem eq_whole (first : HasFirst whole count content) (le : whole.size ≤ count) :
    content = whole := by
  apply ByteArray.ext
  apply Array.ext_getElem?
  intro place
  by_cases lt : place < count
  · exact first.same place lt
  · have beyond : whole.data.size ≤ place := le.trans (Nat.not_lt.mp lt)
    rw [Array.getElem?_eq_none beyond, Array.getElem?_eq_none (first.size_le.trans beyond)]

theorem overwrite (first : HasFirst whole count content) (within : offset ≤ whole.size)
    (covered : ∀ place < reach, place < count ∨ offset ≤ place ∧ place < offset + room) :
    HasFirst whole reach (overwritten content (whole.extract offset (offset + room)) offset) := by
  -- To write a part of the whole where it belongs spoils nothing, and may fill what is missing.
  have size : (whole.extract offset (offset + room)).size =
      min (offset + room) whole.size - offset := ByteArray.size_extract
  have size_le := first.size_le
  refine ⟨by rw [size_overwritten, size]; omega, fun place lt => ?_⟩
  by_cases inside : place < whole.size
  · have held := Array.getElem?_eq_getElem inside
    rw [held]
    by_cases fresh : offset ≤ place ∧ place < offset + room
    · rw [getElem?_overwritten (by omega), if_pos (by omega)]
      have own : (whole.extract offset (offset + room)).data[place - offset]? =
          some whole.data[place] := by
        have lt : place - offset < min (offset + room) whole.data.size - offset := by
          change _ < min _ whole.size - _
          omega
        simp [Array.getElem?_extract_of_lt lt, Nat.add_sub_cancel' fresh.1]
      rw [Array.getD_eq_getD_getElem?, own]
      rfl
    · have kept := first.same place ((covered place lt).resolve_right fresh)
      rw [held] at kept
      have there : place < content.size := (Array.getElem?_eq_some_iff.mp kept).1
      rw [getElem?_overwritten (by omega), if_neg (by omega), Array.getD_eq_getD_getElem?, kept]
      rfl
  · rw [Array.getElem?_eq_none (Nat.not_lt.mp inside), Array.getElem?_eq_none]
    have sizes := size_overwritten content (whole.extract offset (offset + room)) offset
    rw [ByteArray.size] at sizes
    omega

end HasFirst

inductive Progress
  | waiting
  | loaded (source : String)
  | compiled (code : Code)
  | writing (text : String) (count : Nat)
  | written (text : String)
  | printed (text : String)
  | failed (error : UnitError)

namespace Progress

def result? : Progress → Option (Except UnitError String)
  | .written text | .printed text => some (.ok text)
  | .failed error => some (.error error)
  | _ => none

/-- What goes to the file of a unit, and how much of it is there, once the file was emptied. It is
nothing if the system refuses to write there. -/
def output? (blocked : Bool) : Progress → Option (String × Nat)
  | .writing text count => some (if blocked then "" else text, count)
  | .written text => some (if blocked then "" else text, text.toUTF8.size)
  | .failed (.unwritten _) => some ("", 0)
  | _ => none

end Progress

def printed (comments : Bool) (source : String) : Progress :=
  match compileInto comments source "" with
  | (_, .error error) => .failed (.compile error)
  | (sink, .ok ()) =>
    match String.fromUTF8? sink.toUTF8 with
    | some text => .printed text
    -- Code is always a text (`printed_faithful`).
    | none => .failed .notText

/-- The next turn of a unit, which writes at most so many bytes after the first one. Each opens the
files by their paths as they are now. -/
def advance (system : System) (options : Options) (room : Nat) (tree : FileTree)
    (unit : SourceUnit) : Progress → FileTree × Progress
  | .waiting =>
    match unit.read system tree with
    | .ok source => (tree, .loaded source)
    | .error error => (tree, .failed error)
  | .loaded source =>
    if options.stdout then
      (tree, printed options.comments source)
    else
      match compile options.comments source with
      | .ok code => (tree, .compiled code)
      | .error error => (tree, .failed (.compile error))
  | .compiled code =>
    match unit.obstacle? system tree with
    | some error => (tree, .failed error)
    | none => (tree.write unit.target .empty, .writing (code.writeTo "") 0)
  | .writing text count =>
    if count < text.toUTF8.size then
      match system.refusal? (.write unit.target) with
      | some message => (tree, .failed (.unwritten message))
      | none =>
        let reach := count + (room + 1)
        let content := overwritten ((tree.file? unit.target).getD .empty)
          (text.toUTF8.extract count reach) count
        (tree.write unit.target content, .writing text reach)
    else
      (tree, .written text)
  | progress => (tree, progress)

variable {system : System} {options : Options} {tree : FileTree} {unit : SourceUnit}
  {source text : String}

theorem unitText_of_read (read : unit.read system tree = .ok source) (comments : Bool) :
    unitText system tree unit comments = (compileToText comments source).mapError .compile := by
  rw [unitText, read]
  rfl

theorem unitText_of_unread {error : UnitError} (unread : unit.read system tree = .error error)
    (comments : Bool) : unitText system tree unit comments = .error error := by
  rw [unitText, unread]
  rfl

theorem fromUTF8?_eq_some_iff {bytes : ByteArray} :
    String.fromUTF8? bytes = some text ↔ bytes = text.toUTF8 := by
  constructor
  · rw [String.fromUTF8?, Option.dite_none_right_eq_some]
    rintro ⟨valid, same⟩
    cases same
    rfl
  · rintro rfl
    exact dif_pos text.isValidUTF8

theorem read_eq_ok_iff : unit.read system tree = .ok source ↔
    system.refusal? (.read unit.shown) = none ∧
      tree.file? unit.path = some source.toUTF8 := by
  have text : (tree.file? unit.path).bind String.fromUTF8? = some source ↔
      tree.file? unit.path = some source.toUTF8 := by
    simp [Option.bind_eq_some_iff, fromUTF8?_eq_some_iff]
  rw [SourceUnit.read, ← text]
  cases system.refusal? (.read unit.shown) with
  | some message => simp
  | none => cases (tree.file? unit.path).bind String.fromUTF8? <;> simp

theorem unitText_eq_ok_iff {comments : Bool} : unitText system tree unit comments = .ok text ↔
    ∃ source, unit.read system tree = .ok source ∧ compileToText comments source = .ok text := by
  cases read : unit.read system tree with
  | error error => simp [unitText_of_unread read]
  | ok source =>
    rw [unitText_of_read read]
    cases compiles : compileToText comments source <;> simp [Except.mapError, compiles]

theorem text_eq_of_path_eq {comments : Bool} {other : SourceUnit} {text' : String}
    (same : other.path = unit.path) (compiles : unitText system tree unit comments = .ok text)
    (compiles' : unitText system tree other comments = .ok text') : text' = text := by
  obtain ⟨source, read, listed⟩ := unitText_eq_ok_iff.mp compiles
  obtain ⟨source', read', listed'⟩ := unitText_eq_ok_iff.mp compiles'
  have found := (read_eq_ok_iff.mp read').2
  rw [same, (read_eq_ok_iff.mp read).2] at found
  obtain rfl := String.toByteArray_inj.mp (Option.some.inj found)
  exact Except.ok.inj (listed'.symm.trans listed)

theorem obstacle?_eq_none_iff : unit.obstacle? system tree = none ↔
    system.refusal? (.create unit.shown) = none ∧ tree.isDirectory unit.target = false := by
  rw [SourceUnit.obstacle?]
  cases system.refusal? (.create unit.shown) with
  | some message => simp
  | none => cases tree.isDirectory unit.target <;> simp

theorem unitResult_of_error {error : UnitError}
    (failed : unitText system tree unit options.comments = .error error) :
    unitResult system options tree unit = .error error := by
  rw [unitResult, failed]
  rfl

theorem unitResult_of_printing (printing : options.stdout = true)
    (compiles : unitText system tree unit options.comments = .ok text) :
    unitResult system options tree unit = .ok text := by
  rw [unitResult, compiles]
  simp only [printing]
  rfl

theorem unitResult_of_obstacle {error : UnitError} (filing : options.stdout = false)
    (compiles : unitText system tree unit options.comments = .ok text)
    (stopped : unit.obstacle? system tree = some error) :
    unitResult system options tree unit = .error error := by
  rw [unitResult, compiles]
  simp only [bind, Except.bind, filing, stopped]
  rfl

theorem unitResult_of_open (filing : options.stdout = false)
    (compiles : unitText system tree unit options.comments = .ok text)
    (opened : unit.obstacle? system tree = none) :
    unitResult system options tree unit =
      match system.refusal? (.write unit.target) with
      | some message => if text = "" then .ok text else .error (.unwritten message)
      | none => .ok text := by
  rw [unitResult, compiles]
  simp only [bind, Except.bind, filing, opened]
  cases system.refusal? (.write unit.target) <;> rfl

def SourceUnit.blocked (system : System) (unit : SourceUnit) : Bool :=
  (system.refusal? (.write unit.target)).isSome

/-- What a run is to leave in the file for the code of a unit, if the unit opens that. -/
def unitFile (system : System) (options : Options) (tree : FileTree) (unit : SourceUnit) :
    Option String :=
  filing options.stdout (unitResult system options tree unit)

theorem read_ne_unwritten (message : String) :
    unit.read system tree ≠ .error (.unwritten message) := by
  rw [SourceUnit.read]
  split
  · nofun
  · split <;> nofun

theorem unitText_ne_unwritten (comments : Bool) (message : String) :
    unitText system tree unit comments ≠ .error (.unwritten message) := by
  cases read : unit.read system tree with
  | error error =>
    rw [unitText_of_unread read, ← read]
    exact read_ne_unwritten message
  | ok source =>
    rw [unitText_of_read read]
    cases compileToText comments source <;> nofun

theorem obstacle?_ne_unwritten (message : String) :
    unit.obstacle? system tree ≠ some (.unwritten message) := by
  rw [SourceUnit.obstacle?]
  split
  · nofun
  · split <;> nofun

theorem filing_error {error : UnitError} (known : ∀ message, error ≠ .unwritten message)
    (stdout : Bool) : filing stdout (.error error) = none := by
  cases error with
  | unwritten message => exact absurd rfl (known message)
  | _ => rfl

theorem unitFile_eq_some_iff {part : String} : unitFile system options tree unit = some part ↔
    options.stdout = false ∧ unit.obstacle? system tree = none ∧
      ∃ text, unitText system tree unit options.comments = .ok text ∧
        part = if unit.blocked system then "" else text := by
  -- Only work that opens the file for its code leaves something there, which is all of the text or,
  -- if the system refuses to write it, nothing.
  rw [unitFile]
  cases compiles : unitText system tree unit options.comments with
  | error error =>
    rw [unitResult_of_error compiles, filing_error]
    · simp
    · exact fun message same => unitText_ne_unwritten _ message (same ▸ compiles)
  | ok text =>
    cases printing : options.stdout with
    | true => simp [unitResult_of_printing printing compiles, filing]
    | false =>
      cases stopped : unit.obstacle? system tree with
      | some error =>
        rw [unitResult_of_obstacle printing compiles stopped, filing_error]
        · simp
        · exact fun message same => obstacle?_ne_unwritten message (same ▸ stopped)
      | none =>
        rw [unitResult_of_open printing compiles stopped, SourceUnit.blocked]
        cases system.refusal? (.write unit.target) with
        | none => simp [filing, eq_comm]
        | some message => by_cases empty : text = "" <;> simp [filing, empty, eq_comm]

theorem unitFile_of_ok (filing : options.stdout = false)
    (succeeds : unitResult system options tree unit = .ok text) :
    unitFile system options tree unit = some text := by
  rw [unitFile, succeeds, JackCompiler.CommandLine.filing, filing]
  rfl

def Progress.Faithful (system : System) (options : Options) (tree : FileTree) (unit : SourceUnit) :
    Progress → Prop
  | .waiting => True
  | .loaded source => unit.read system tree = .ok source
  | .compiled code =>
    options.stdout = false ∧ unitText system tree unit options.comments = .ok code.text
  | .writing text count =>
    options.stdout = false ∧ unitText system tree unit options.comments = .ok text ∧
      unit.obstacle? system tree = none ∧ (unit.blocked system = true → count = 0)
  | .written text => options.stdout = false ∧ unitResult system options tree unit = .ok text
  | .printed text => options.stdout = true ∧ unitResult system options tree unit = .ok text
  | .failed error => unitResult system options tree unit = .error error

theorem printed_cases (comments : Bool) (source : String) :
    (∃ text, printed comments source = .printed text) ∨
      ∃ error, printed comments source = .failed error ∧
        ∀ message, error ≠ .unwritten message := by
  rw [printed]
  split
  · exact .inr ⟨_, rfl, nofun⟩
  · split
    · exact .inl ⟨_, rfl⟩
    · exact .inr ⟨_, rfl, nofun⟩

theorem output?_failed {error : UnitError} (known : ∀ message, error ≠ .unwritten message)
    (blocked : Bool) : (Progress.failed error).output? blocked = none := by
  cases error with
  | unwritten message => exact absurd rfl (known message)
  | _ => rfl

theorem printed_output (blocked : Bool) (comments : Bool) (source : String) :
    (printed comments source).output? blocked = none := by
  obtain ⟨text, same⟩ | ⟨error, same, known⟩ := printed_cases comments source
  · rw [same]
    rfl
  · rw [same]
    exact output?_failed known blocked

theorem printed_faithful (read : unit.read system tree = .ok source)
    (printing : options.stdout = true) :
    (printed options.comments source).Faithful system options tree unit := by
  have text := unitText_of_read read options.comments
  rw [printed, compileInto_eq]
  cases compiles : compileToText options.comments source with
  | error error =>
    rw [compiles] at text
    exact unitResult_of_error text
  | ok listing =>
    rw [compiles] at text
    simp only [String.empty_append, fromUTF8?_eq_some_iff.mpr rfl]
    exact ⟨printing, unitResult_of_printing printing text⟩

structure Job where
  unit : SourceUnit
  progress : Progress

def Job.output? (system : System) (job : Job) : Option (String × Nat) :=
  job.progress.output? (job.unit.blocked system)

structure Pool where
  tree : FileTree
  jobs : List Job

namespace Pool

def start (tree : FileTree) (units : List SourceUnit) : Pool := ⟨tree, units.map (⟨·, .waiting⟩)⟩

def turned (system : System) (options : Options) (room : Nat) (tree : FileTree)
    (before : List Job) (job : Job) (after : List Job) : Pool :=
  let next := advance system options room tree job.unit job.progress
  ⟨next.1, before ++ ⟨job.unit, next.2⟩ :: after⟩

/-- Some worker takes a turn at one of the jobs that are not over. -/
inductive Step (system : System) (options : Options) : Pool → Pool → Prop
  | turn (tree : FileTree) (before after : List Job) (job : Job) (room : Nat)
      (busy : job.progress.result? = none) :
      Step system options ⟨tree, before ++ job :: after⟩
        (turned system options room tree before job after)

abbrev Steps (system : System) (options : Options) : Pool → Pool → Prop :=
  Relation.ReflTransGen (Step system options)

def Done (pool : Pool) : Prop := ∀ job ∈ pool.jobs, job.progress.result?.isSome

/-- What a run over units can come to. -/
def Ends (system : System) (options : Options) (tree : FileTree) (units : List SourceUnit)
    (final : Pool) : Prop :=
  Steps system options (start tree units) final ∧ final.Done

def results (pool : Pool) : List (SourceUnit × Except UnitError String) :=
  pool.jobs.filterMap fun job => job.progress.result?.map (job.unit, ·)

end Pool

def codeSize (system : System) (options : Options) (tree : FileTree) (unit : SourceUnit) : Nat :=
  match unitText system tree unit options.comments with
  | .ok text => text.toUTF8.size
  | .error _ => 0

def Progress.left (size : Nat) : Progress → Nat
  | .waiting => size + 4
  | .loaded _ => size + 3
  | .compiled _ => size + 2
  | .writing _ count => size - count + 1
  | _ => 0

theorem printed_left (comments : Bool) (source : String) (size : Nat) :
    (printed comments source).left size = 0 := by
  obtain ⟨text, same⟩ | ⟨error, same, -⟩ := printed_cases comments source <;> rw [same] <;> rfl

theorem left_advance {progress : Progress} (known : progress.Faithful system options tree unit)
    (busy : progress.result? = none) (room : Nat) (files : FileTree) :
    (advance system options room files unit progress).2.left
        (codeSize system options tree unit) <
      progress.left (codeSize system options tree unit) := by
  -- Every turn brings the work on its unit closer to the end.
  cases progress with
  | waiting =>
    simp only [advance]
    split <;> simp [Progress.left]
  | loaded source =>
    simp only [advance]
    split
    · exact (printed_left ..).trans_lt (by simp [Progress.left])
    · split <;> simp [Progress.left]
  | compiled code =>
    simp only [advance]
    split <;> simp [Progress.left]
  | writing text count =>
    have size : codeSize system options tree unit = text.toUTF8.size := by
      rw [codeSize, known.2.1]
    rw [size]
    by_cases more : count < text.toUTF8.size
    · simp only [advance, if_pos more]
      split
      · simp [Progress.left]
      · simp only [Progress.left]
        omega
    · simp only [advance, if_neg more, Progress.left]
      omega
  | written | printed | failed => cases busy

def Pool.left (system : System) (options : Options) (tree : FileTree) (pool : Pool) : Nat :=
  (pool.jobs.map fun job => job.progress.left (codeSize system options tree job.unit)).sum

end JackCompiler.CommandLine
