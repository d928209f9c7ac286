import SicXe.Command.Console

/-!
# Files that a script writes

* `FileStore.read_eq_ok`, `FileStore.write_eq_ok`: when reading and writing succeed, and with what.
* `FileStore.locate_congr`: a path leads to the same names in all stores with the same directories,
  so writing a file moves no other.
* `FileStore.Untouched`: nothing has changed but at the places of some paths.
* `FileStore.writeAll`, `FileStore.Written`: files written one after the other, and what is found in
  the store then, if no path leads to the place of another.
* `Script.succeeds`, `Script.Performs`: the files that a script writes and the code that it ends
  with, as long as nothing goes wrong with a file.
* `Script.WritesOnly`, `Script.run_untouched`: the paths that a script may write to, and that it
  touches nothing else, even if something goes wrong.
-/

namespace SicXe

namespace FileStore

variable {store after : FileStore} {path content text : Text} {names : List Text}

/-! ## Nodes -/

/-- Whether names lead to a directory. -/
def IsDirectory (store : FileStore) (names : List Text) : Prop :=
  names = [] ∨ names ∈ store.directories

theorem node?_eq_directory : store.node? names = some .directory ↔ store.IsDirectory names := by
  unfold node? IsDirectory
  split
  · simp [*]
  · simp [*]

theorem node?_eq_file : store.node? names = some (.file text) ↔
    ¬ store.IsDirectory names ∧ store.content? names = some text := by
  unfold node? IsDirectory
  split
  · simp [*]
  · simp [*]

/-! ## Paths -/

/-- The names after one more name of a path depend on the directories only. -/
theorem step_of_directories (h : after.directories = store.directories) {name : Text}
    {next : List Text} (hstep : store.step names name = .ok next) :
    after.step names name = .ok next := by
  have hnode : store.node? names = some .directory := by
    unfold step at hstep
    cases hnode : store.node? names with
    | none => simp [hnode] at hstep
    | some node =>
      cases node with
      | directory => rfl
      | file content => simp [hnode] at hstep
  have hafter : after.node? names = some .directory := by
    rw [node?_eq_directory, IsDirectory, h]
    exact node?_eq_directory.1 hnode
  unfold step at hstep ⊢
  rw [hafter]
  rwa [hnode] at hstep

theorem foldlM_step_of_directories (h : after.directories = store.directories) {way : List Text}
    {names last : List Text} (hway : way.foldlM store.step names = .ok last) :
    way.foldlM after.step names = .ok last := by
  induction way generalizing names with
  | nil => exact hway
  | cons name way ih =>
    rw [List.foldlM_cons] at hway ⊢
    cases hstep : store.step names name with
    | error error =>
      rw [hstep] at hway
      cases hway
    | ok next =>
      rw [hstep] at hway
      rw [step_of_directories h hstep]
      exact ih hway

/-- **A path leads to the same names** as long as the directories stay. -/
theorem locate_congr (h : after.directories = store.directories) (path : Text)
    (names : List Text) : after.locate path = .ok names ↔ store.locate path = .ok names := by
  unfold locate
  split
  · simp
  · exact ⟨foldlM_step_of_directories h.symm, foldlM_step_of_directories h⟩

/-! ## Reading and writing -/

theorem read_eq_ok : store.read path = .ok text ↔
    ∃ names, store.locate path = .ok names ∧ store.node? names = some (.file text) ∧
      endsWithSlash path = false := by
  unfold read
  cases hlocate : store.locate path with
  | error error => simp
  | ok names =>
    cases hnode : store.node? names with
    | none => simp [hnode]
    | some node =>
      cases node with
      | directory => simp [hnode]
      | file content => cases hslash : endsWithSlash path <;> simp [hnode]

theorem write_eq_ok : store.write path content = .ok after ↔
    ∃ names, store.locate path = .ok names ∧ ¬ store.IsDirectory names ∧
      endsWithSlash path = false ∧
      after = { store with files := replace names content store.files } := by
  unfold write
  cases hlocate : store.locate path with
  | error error => simp
  | ok names =>
    simp only [Except.ok.injEq, exists_eq_left', ← node?_eq_directory]
    cases hnode : store.node? names with
    | none => cases hslash : endsWithSlash path <;> simp [eq_comm]
    | some node =>
      cases node with
      | directory => simp
      | file content => cases hslash : endsWithSlash path <;> simp [eq_comm]

theorem content?_replace (names other : List Text) (content : Text) (store : FileStore) :
    content? { store with files := replace names content store.files } other =
      if other = names then some content else store.content? other := by
  unfold content?
  dsimp only
  induction store.files with
  | nil =>
    by_cases h : other = names
    · simp [replace, h]
    · simp [replace, h, Ne.symm h]
  | cons file files ih =>
    unfold replace
    by_cases hfile : file.1 = names
    · by_cases h : other = names
      · simp [hfile, h]
      · simp [hfile, h, Ne.symm h]
    · rw [if_neg hfile]
      by_cases h : file.1 = other
      · have hne : ¬ other = names := fun hother => hfile (h.trans hother)
        simp [h, hne]
      · simp only [List.find?_cons, h, decide_false]
        exact ih

/-! ## Many files -/

/-- The store with files written one after the other. -/
def writeAll (store : FileStore) (files : List (Text × Text)) : Except FileError FileStore :=
  files.foldlM (fun store file => store.write file.1 file.2) store

/-- Whether two paths lead to different places. -/
def Apart (store : FileStore) (path other : Text) : Prop :=
  ∀ names, store.locate path = .ok names → store.locate other ≠ .ok names

/-- A store in which nothing has changed but at the places that paths lead to. -/
structure Untouched (store : FileStore) (paths : List Text) (after : FileStore) : Prop where
  directories : after.directories = store.directories
  others : ∀ names, (∀ path ∈ paths, store.locate path ≠ .ok names) →
    after.content? names = store.content? names

/-- A store in which files were written: they are found under their paths, and nothing else has
changed. -/
structure Written (store : FileStore) (files : List (Text × Text)) (after : FileStore) : Prop where
  directories : after.directories = store.directories
  found : ∀ file ∈ files, after.read file.1 = .ok file.2
  others : ∀ names, (∀ file ∈ files, store.locate file.1 ≠ .ok names) →
    after.content? names = store.content? names

theorem Apart.congr (h : after.directories = store.directories) {path other : Text}
    (hapart : store.Apart path other) : after.Apart path other := by
  intro names hpath hother
  rw [locate_congr h] at hpath hother
  exact hapart names hpath hother

/-- **One file**: it is found, and all other places are as before. -/
theorem written_singleton (h : store.write path content = .ok after) :
    store.Written [(path, content)] after := by
  obtain ⟨names, hlocate, hnode, hslash, hafter⟩ := write_eq_ok.1 h
  have hdirectories : after.directories = store.directories := by rw [hafter]
  have hcontent (other : List Text) :
      after.content? other = if other = names then some content else store.content? other := by
    rw [hafter, content?_replace]
  refine ⟨hdirectories, ?_, ?_⟩
  · intro file hfile
    obtain rfl := List.mem_singleton.1 hfile
    refine read_eq_ok.2 ⟨names, (locate_congr hdirectories path names).2 hlocate, ?_, hslash⟩
    rw [node?_eq_file, IsDirectory, hdirectories, hcontent, if_pos rfl]
    exact ⟨hnode, rfl⟩
  · intro other hother
    rw [hcontent, if_neg]
    rintro rfl
    exact hother _ (List.mem_singleton_self _) hlocate

theorem Untouched.trans {between : FileStore} {paths : List Text}
    (h : store.Untouched paths between) (h' : between.Untouched paths after) :
    store.Untouched paths after := by
  refine ⟨h'.directories.trans h.directories, fun names hnames => ?_⟩
  rw [h'.others names, h.others names hnames]
  intro path hpath
  rw [Ne, locate_congr h.directories]
  exact hnames path hpath

/-- A file is still found after files at other places were written. -/
theorem Untouched.read_of_apart {paths : List Text} (h : store.Untouched paths after)
    (hread : store.read path = .ok text) (hapart : ∀ other ∈ paths, store.Apart path other) :
    after.read path = .ok text := by
  obtain ⟨names, hlocate, hnode, hslash⟩ := read_eq_ok.1 hread
  refine read_eq_ok.2 ⟨names, (locate_congr h.directories path names).2 hlocate, ?_, hslash⟩
  rw [node?_eq_file] at hnode ⊢
  rw [IsDirectory, h.directories,
    h.others names fun other hother => hapart other hother names hlocate]
  exact hnode

theorem Written.untouched {files : List (Text × Text)} (h : store.Written files after) :
    store.Untouched (files.map (·.1)) after :=
  ⟨h.directories, fun names hnames =>
    h.others names fun _ hfile => hnames _ (List.mem_map_of_mem hfile)⟩

/-- **Many files**, no two of them at the same place. -/
theorem written_of_writeAll {files : List (Text × Text)} (h : store.writeAll files = .ok after)
    (hapart : (files.map (·.1)).Pairwise store.Apart) : store.Written files after := by
  induction files generalizing store with
  | nil =>
    cases h
    exact ⟨rfl, by simp, fun _ _ => rfl⟩
  | cons file files ih =>
    rw [writeAll, List.foldlM_cons] at h
    cases hwrite : store.write file.1 file.2 with
    | error error =>
      rw [hwrite] at h
      cases h
    | ok between =>
      rw [hwrite] at h
      rw [List.map_cons, List.pairwise_cons] at hapart
      have hfirst := written_singleton hwrite
      have hrest := ih h (hapart.2.imp (Apart.congr hfirst.directories))
      refine ⟨hrest.directories.trans hfirst.directories, ?_, ?_⟩
      · intro other hother
        rcases List.mem_cons.1 hother with rfl | hother
        · refine hrest.untouched.read_of_apart (hfirst.found _ (List.mem_singleton_self _)) ?_
          intro later hlater
          exact (hapart.1 later hlater).congr hfirst.directories
        · exact hrest.found other hother
      · intro names hnames
        rw [hrest.others names, hfirst.others names]
        · intro other hother
          obtain rfl := List.mem_singleton.1 hother
          exact hnames _ List.mem_cons_self
        · intro later hlater
          rw [Ne, locate_congr hfirst.directories]
          exact hnames later (List.mem_cons_of_mem _ hlater)

end FileStore

/-! ## Scripts -/

namespace Script

/-- Whether every file operation of a script succeeds when it is carried out. -/
def succeeds (input : Text) : FileStore → Script → Bool
  | _, .exit _ => true
  | store, .log _ next => succeeds input store next
  | store, .print _ next => succeeds input store next
  | store, .readInput next => succeeds input store (next input)
  | store, .read path next =>
    match store.read path with
    | .ok text => succeeds input store (next (.ok text))
    | .error _ => false
  | store, .write path content next =>
    match store.write path content with
    | .ok store => succeeds input store (next none)
    | .error _ => false

/-- What a script does to a store as long as its file operations succeed: it writes files, one after
the other, and ends with a code. -/
def Performs (script : Script) (input : Text) (files : List (Text × Text)) (code : Nat) : Prop :=
  ∀ store, script.succeeds input store = true →
    store.writeAll files = .ok (script.run input store).store ∧
      (script.run input store).code = code

variable {input : Text} {files : List (Text × Text)} {code : Nat} {next : Script}

theorem performs_exit (code : Nat) : (Script.exit code).Performs input [] code :=
  fun _ _ => ⟨rfl, rfl⟩

theorem performs_log (text : Text) (h : next.Performs input files code) :
    (Script.log text next).Performs input files code :=
  fun store hsucceeds => h store hsucceeds

theorem performs_write {path content : Text} {next : Option FileError → Script}
    (h : (next none).Performs input files code) :
    (Script.write path content next).Performs input ((path, content) :: files) code := by
  intro store hsucceeds
  rw [FileStore.writeAll, List.foldlM_cons]
  unfold succeeds at hsucceeds
  unfold run
  cases hwrite : store.write path content with
  | error error => simp [hwrite] at hsucceeds
  | ok between =>
    simp only [hwrite] at hsucceeds
    exact h between hsucceeds

/-- A script that writes to no path but the given ones, whatever it reads and whichever of its file
operations fail. -/
inductive WritesOnly (paths : List Text) : Script → Prop
  | exit (code : Nat) : WritesOnly paths (.exit code)
  | log (text : Text) {next : Script} (rest : WritesOnly paths next) :
      WritesOnly paths (.log text next)
  | print (text : Text) {next : Script} (rest : WritesOnly paths next) :
      WritesOnly paths (.print text next)
  | readInput {next : Text → Script} (rest : ∀ text, WritesOnly paths (next text)) :
      WritesOnly paths (.readInput next)
  | read (path : Text) {next : Except FileError Text → Script}
      (rest : ∀ outcome, WritesOnly paths (next outcome)) : WritesOnly paths (.read path next)
  | write {path : Text} (content : Text) {next : Option FileError → Script} (mem : path ∈ paths)
      (rest : ∀ outcome, WritesOnly paths (next outcome)) :
      WritesOnly paths (.write path content next)

/-- **A script touches nothing** but the places of the paths that it writes to. -/
theorem run_untouched {paths : List Text} {script : Script} (h : script.WritesOnly paths)
    (input : Text) (store : FileStore) : store.Untouched paths (script.run input store).store := by
  induction h generalizing store with
  | exit code => exact ⟨rfl, fun _ _ => rfl⟩
  | log text _ ih => exact ih store
  | print text _ ih => exact ih store
  | readInput _ ih => exact ih input store
  | read path _ ih => exact ih (store.read path) store
  | @write path content next hpath _ ih =>
    unfold run
    cases hwrite : store.write path content with
    | error error => exact ih (some error) store
    | ok between =>
      have hfirst : store.Untouched paths between := by
        obtain ⟨hdirectories, hothers⟩ := (FileStore.written_singleton hwrite).untouched
        refine ⟨hdirectories, fun names hnames => hothers names ?_⟩
        simpa using hnames path hpath
      exact hfirst.trans (ih none between)

end Script

/-- A script that fails with messages touches no file. -/
theorem Console.run_fail (label : Text) (messages : List Text) (input : Text) (store : FileStore) :
    ((Console.fail label messages).run input store).code = 1 ∧
      ((Console.fail label messages).run input store).store = store := by
  induction messages with
  | nil => exact ⟨rfl, rfl⟩
  | cons message messages ih => exact ih

theorem Console.writesOnly_fail (label : Text) (messages : List Text) (paths : List Text) :
    (Console.fail label messages).WritesOnly paths := by
  induction messages with
  | nil => exact .exit 1
  | cons message messages ih => exact .log _ ih

theorem Console.performs_fail (label : Text) (messages : List Text) (input : Text) :
    (Console.fail label messages).Performs input [] 1 := by
  intro store _
  obtain ⟨hcode, hstore⟩ := run_fail label messages input store
  rw [hcode, hstore]
  exact ⟨rfl, rfl⟩

end SicXe
