import JackCompiler.CommandLine.Units
import Mathlib.Data.List.Basic

namespace JackCompiler.CommandLine

variable {system : System} {tree : FileTree} {working path other : Path} {input : String}
  {inputs : List String} {unit : SourceUnit} {units : List SourceUnit}

namespace FileTree

/-- No path has two entries, and every entry lies in a directory. -/
structure Sound (tree : FileTree) : Prop where
  distinct : (tree.entries.map Prod.fst).Nodup
  nested : ∀ entry ∈ tree.entries, tree.isDirectory entry.1.dropLast = true

instance (tree : FileTree) : Decidable tree.Sound :=
  decidable_of_iff
    ((tree.entries.map Prod.fst).Nodup ∧
      ∀ entry ∈ tree.entries, tree.isDirectory entry.1.dropLast = true)
    ⟨fun sound => ⟨sound.1, sound.2⟩, fun sound => ⟨sound.distinct, sound.nested⟩⟩

theorem isDirectory_iff : tree.isDirectory path = true ↔ tree.entry? path = some .directory := by
  rw [isDirectory]
  cases tree.entry? path with
  | none => simp
  | some entry => cases entry <;> simp

theorem file?_eq_some_iff {content : ByteArray} :
    tree.file? path = some content ↔ tree.entry? path = some (.file content) := by
  rw [file?]
  cases tree.entry? path with
  | none => simp
  | some entry => cases entry <;> simp

theorem file?_of_not_directory (there : (tree.entry? path).isSome)
    (plain : ¬tree.isDirectory path = true) : ∃ content, tree.file? path = some content := by
  obtain ⟨entry, found⟩ := Option.isSome_iff_exists.mp there
  cases entry with
  | directory => exact absurd (isDirectory_iff.mpr found) plain
  | file content => exact ⟨content, file?_eq_some_iff.mpr found⟩

theorem entry?_of_ne_nil (below : path ≠ []) : tree.entry? path = tree.entries.lookup path := by
  unfold entry?
  rw [if_neg below]

theorem isDirectory_congr {changed : FileTree} (same : changed.entry? path = tree.entry? path) :
    changed.isDirectory path = tree.isDirectory path := by
  rw [isDirectory, isDirectory, same]

theorem file?_congr {changed : FileTree} (same : changed.entry? path = tree.entry? path) :
    changed.file? path = tree.file? path := by
  rw [file?, file?, same]

theorem lookup_filter_ne (entries : List (Path × Entry)) (apart : other ≠ path) :
    (entries.filter (·.1 != path)).lookup other = entries.lookup other := by
  induction entries with
  | nil => rfl
  | cons entry entries ih =>
    obtain ⟨place, entry⟩ := entry
    by_cases here : place = path
    · subst here
      simpa [List.lookup_cons, beq_eq_false_iff_ne.mpr apart] using ih
    · simp [here, List.lookup_cons, ih]

theorem entry?_write (content : ByteArray) (below : path ≠ []) (other : Path) :
    FileTree.entry? (tree.write path content) other =
      if other = path then some (.file content) else tree.entry? other := by
  by_cases root : other = []
  · rw [root, if_neg below.symm]
    rfl
  · rw [entry?_of_ne_nil root, entry?_of_ne_nil root, write, put, List.lookup_cons]
    by_cases here : other = path
    · simp [here]
    · have test : (other == path) = false := beq_eq_false_iff_ne.mpr here
      simp only [test, lookup_filter_ne _ here, if_neg here]

theorem file?_write (content : ByteArray) (below : path ≠ []) :
    (tree.write path content).file? path = some content := by
  rw [file?_eq_some_iff, entry?_write content below, if_pos rfl]

theorem Sound.isDirectory_dropLast (sound : tree.Sound) (there : (tree.entry? path).isSome) :
    tree.isDirectory path.dropLast = true := by
  by_cases root : path = []
  · rw [root]
    rfl
  · obtain ⟨entry, found⟩ := Option.isSome_iff_exists.mp there
    rw [entry?_of_ne_nil root, List.lookup_eq_some_iff] at found
    obtain ⟨before, after, split, -⟩ := found
    exact sound.nested (path, entry) (by simp [split])

theorem Sound.isDirectory_above (sound : tree.Sound) (directory : tree.isDirectory path = true) :
    tree.isDirectory path.dropLast = true :=
  sound.isDirectory_dropLast (by rw [isDirectory_iff.mp directory]; rfl)

theorem Sound.file?_of_mem {content : ByteArray} (sound : tree.Sound) (below : path ≠ [])
    (member : (path, Entry.file content) ∈ tree.entries) : tree.file? path = some content := by
  obtain ⟨before, after, split⟩ := List.append_of_mem member
  have distinct := sound.distinct
  rw [file?_eq_some_iff, entry?_of_ne_nil below, List.lookup_eq_some_iff]
  refine ⟨before, after, split, fun entry earlier => ?_⟩
  rw [split, List.map_append, List.nodup_append] at distinct
  have apart := distinct.2.2 entry.1 (List.mem_map_of_mem earlier) path (by simp)
  simpa using apart.symm

theorem Sound.file?_of_mem_fileNames {directory : Path} {name : String} (sound : tree.Sound)
    (listed : name ∈ tree.fileNames directory) :
    ∃ content, tree.file? (directory ++ [name]) = some content := by
  rw [fileNames, List.mem_filterMap] at listed
  obtain ⟨⟨path, entry⟩, member, named⟩ := listed
  cases entry with
  | directory => cases named
  | file content =>
    rw [Option.ite_none_right_eq_some] at named
    obtain ⟨inside, last⟩ := named
    have whole : path = directory ++ [name] := by
      rw [← eq_of_beq inside, List.dropLast_append_getLast? _ last]
    exact ⟨content, sound.file?_of_mem (by simp) (whole ▸ member)⟩

theorem partsFrom_ne_nil (part : List Char) (cs : List Char) : partsFrom part cs ≠ [] := by
  induction cs generalizing part with
  | nil => simp [partsFrom]
  | cons c cs ih =>
    unfold partsFrom
    split
    · simp_all
    · simp
    · simp_all

theorem Sound.entry?_of_walk {parts : List String} (sound : tree.Sound)
    (there : (tree.entry? path).isSome) (walks : tree.walk path parts = some other) :
    (tree.entry? other).isSome := by
  -- Following parts from a place that is there leads to one that is there.
  induction parts generalizing path with
  | nil => exact Option.some.inj walks ▸ there
  | cons part parts ih =>
    rw [walk] at walks
    split at walks
    · cases walks
    · split at walks
      · exact ih there walks
      · split at walks
        · refine ih ?_ walks
          rw [isDirectory_iff.mp (sound.isDirectory_dropLast there)]
          rfl
        · split at walks
          · exact ih ‹_› walks
          · cases walks

theorem Sound.entry?_of_walk_ne_nil {parts : List String} (sound : tree.Sound) (any : parts ≠ [])
    (walks : tree.walk path parts = some other) : (tree.entry? other).isSome := by
  obtain ⟨part, parts, rfl⟩ := List.exists_cons_of_ne_nil any
  have directory : tree.isDirectory path = true := by
    cases found : tree.isDirectory path with
    | true => rfl
    | false => simp [walk, found] at walks
  exact sound.entry?_of_walk (by rw [isDirectory_iff.mp directory]; rfl) walks

theorem Sound.entry?_of_resolve (sound : tree.Sound)
    (leads : tree.resolve working input = some path) : (tree.entry? path).isSome := by
  rw [resolve] at leads
  split at leads
  · cases leads
  · exact sound.entry?_of_walk_ne_nil (partsFrom_ne_nil _ _) leads
  · exact sound.entry?_of_walk_ne_nil (partsFrom_ne_nil _ _) leads

end FileTree

theorem entry?_of_find (sound : tree.Sound) (found : find system tree working input = some path) :
    (tree.entry? path).isSome := by
  rw [find] at found
  split at found
  · cases found
  · exact sound.entry?_of_resolve found

theorem suffix_of_isSourceName {name : String} (named : isSourceName name = true) :
    ∃ front, name.toList = front ++ sourceEnding.toList := by
  rw [isSourceName, Bool.and_eq_true, List.isSuffixOf_iff_suffix] at named
  obtain ⟨front, split⟩ := named.1
  exact ⟨front, split.symm⟩

namespace SourceUnit

structure Held (tree : FileTree) (unit : SourceUnit) : Prop where
  named : isSourceName unit.name = true
  directory : tree.isDirectory unit.directory = true
  source : ∃ content, tree.file? unit.path = some content

variable {another : SourceUnit}

theorem stem_append (named : isSourceName unit.name = true) :
    unit.stem ++ sourceEnding = unit.name := by
  obtain ⟨front, split⟩ := suffix_of_isSourceName named
  have length : unit.name.length = front.length + sourceEnding.length := by
    rw [← String.length_toList, split, List.length_append, String.length_toList]
  apply String.toList_injective
  rw [String.toList_append, stem, String.toList_ofList, length, Nat.add_sub_cancel, split,
    List.take_left]

theorem target_of_not_directory (sound : tree.Sound) (held : unit.Held tree)
    (free : tree.isDirectory unit.target = false) :
    unit.target = unit.directory ++ [unit.stem ++ ".vm"] := by
  rw [target] at free ⊢
  split
  · rename_i dot
    rw [if_pos dot, sound.isDirectory_above held.directory] at free
    cases free
  · rfl

theorem target_ne_nil (free : tree.isDirectory unit.target = false) : unit.target ≠ [] := by
  intro root
  rw [root] at free
  cases free

theorem target_ne_path (sound : tree.Sound) (held : unit.Held tree)
    (another_held : another.Held tree) (free : tree.isDirectory unit.target = false) :
    unit.target ≠ another.path := by
  rw [target_of_not_directory sound held free, path]
  intro same
  obtain ⟨front, split⟩ := suffix_of_isSourceName another_held.named
  have names : unit.stem ++ ".vm" = another.name := by
    simpa using (List.append_inj' same rfl).2
  have last := congrArg (fun name => name.toList.getLast?) names
  simp [split, sourceEnding] at last

/-- Where the code of two units goes to one file, they are the same source. -/
theorem path_eq_of_target_eq (sound : tree.Sound) (held : unit.Held tree)
    (another_held : another.Held tree) (free : tree.isDirectory unit.target = false)
    (same : another.target = unit.target) : another.path = unit.path := by
  have targets := target_of_not_directory sound another_held (same ▸ free)
  rw [same, target_of_not_directory sound held free] at targets
  obtain ⟨directories, stems⟩ := List.append_inj' targets rfl
  have stems : unit.stem = another.stem := by simpa using stems
  rw [path, path, ← directories, ← stem_append held.named, stems, stem_append another_held.named]

end SourceUnit

theorem held_of_unitsOf (sound : tree.Sound)
    (named : unitsOf system tree working input = .ok units) : ∀ unit ∈ units, unit.Held tree := by
  rw [unitsOf] at named
  split at named
  · cases named
  rename_i path found
  split at named
  · rename_i directory
    split at named
    · cases named
    cases named
    intro unit member
    obtain ⟨name, listed, rfl⟩ := List.mem_map.mp member
    rw [List.mem_mergeSort, List.mem_filter] at listed
    exact ⟨listed.2, directory, sound.file?_of_mem_fileNames listed.1⟩
  · rename_i plain
    split at named
    · cases named
    rename_i name last
    split at named
    · rename_i source
      cases named
      have there := entry?_of_find sound found
      have whole : path.dropLast ++ [name] = path := List.dropLast_append_getLast? name last
      intro unit member
      cases List.mem_singleton.mp member
      refine ⟨source, sound.isDirectory_dropLast there, ?_⟩
      rw [SourceUnit.path, whole]
      exact FileTree.file?_of_not_directory there plain
    · cases named

theorem collect_cons_eq_ok : collect system tree working (input :: inputs) = .ok units ↔
    ∃ first rest, unitsOf system tree working input = .ok first ∧
      collect system tree working inputs = .ok rest ∧ units = first ++ rest := by
  rw [collect]
  cases unitsOf system tree working input with
  | error wrong => simp [bind, Except.bind]
  | ok first =>
    cases collect system tree working inputs with
    | error wrong => simp [bind, Except.bind]
    | ok rest => simp [bind, Except.bind, pure, Except.pure, eq_comm]

theorem held_of_collect (sound : tree.Sound)
    (accepts : collect system tree working inputs = .ok units) :
    ∀ unit ∈ units, unit.Held tree := by
  induction inputs generalizing units with
  | nil => cases accepts; simp
  | cons input inputs ih =>
    obtain ⟨first, rest, named, others, rfl⟩ := collect_cons_eq_ok.mp accepts
    intro unit member
    exact (List.mem_append.mp member).elim (held_of_unitsOf sound named unit) (ih others unit)

end JackCompiler.CommandLine
