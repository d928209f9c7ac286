import SicXe.Proofs.FrontEnds
import SicXe.Proofs.OutputPaths

/-!
# What becomes of the source

The command that assembles writes its files beside the source, under the name of the source with
other extensions, unless other paths are chosen. It asks neither whether the source has one of these
extensions nor whether there is a file already:

* `Assemble.writesOnly_ofSource`: the command writes to the paths of its files only, even if
  something goes wrong.
* `Assemble.extensionsFor`: the extensions of the files that are written for a text.
* `Assemble.source_kept`: the source is kept if it has none of them, and is lost if it has one.
* `Assemble.source_overwritten`: a source that is lost.
-/

namespace SicXe

/-- No output path is chosen, so that each of them is made from the path of the source. -/
def AssembleOptions.ChoosesNoPath (options : AssembleOptions) : Prop :=
  options.listing = [] ∧ options.objectListing = [] ∧ options.object = []

instance (options : AssembleOptions) : Decidable options.ChoosesNoPath :=
  inferInstanceAs (Decidable (_ ∧ _))

namespace Assemble

variable {console : Console} {options : AssembleOptions} {source : Source} {assembly : Assembly}
variable {input text path : Text} {store : FileStore} {paths : List Text}

/-! ## What the command writes -/

theorem writesOnly_writeOrFail {next : Script} (label content : Text) (what : String)
    (hpath : path ∈ paths) (h : next.WritesOnly paths) :
    (writeOrFail label path content what next).WritesOnly paths := by
  refine .write content hpath ?_
  intro outcome
  cases outcome with
  | none => exact h
  | some error => exact Console.writesOnly_fail _ _ _

theorem writesOnly_finish (label : Text) (response : Service.Response) :
    (finish console options label source assembly).WritesOnly
      ((filesOf options source assembly response).map (·.1)) := by
  unfold finish
  split
  · rename_i object hfaults hobject
    refine writesOnly_writeOrFail _ _ _ (by simp [filesOf, hfaults]) ?_
    split
    · rename_i hsymbols
      exact writesOnly_writeOrFail _ _ _ (by simp [filesOf, hfaults, hsymbols]) (.exit 0)
    · exact .exit 0
  · exact Console.writesOnly_fail _ _ _
  · exact Console.writesOnly_fail _ _ _

theorem writesOnly_writeListings (label : Text) :
    (writeListings console options label source (.ofAssembly assembly)).WritesOnly
      ((filesOf options source assembly (.result (.ofAssembly assembly))).map (·.1)) := by
  unfold writeListings
  rw [Run.assembly_ofAssembly]
  refine writesOnly_writeOrFail _ _ _ (by simp [filesOf]) ?_
  split
  · rename_i hfree
    exact writesOnly_writeOrFail _ _ _ (by simp [filesOf, hfree]) (writesOnly_finish _ _)
  · exact writesOnly_finish _ _

/-- **The command writes to the paths of its files only.** -/
theorem writesOnly_ofSource
    (h : Assembly.ofInput options.mode { text := source.text } = .ok assembly) :
    (ofSource console options source).WritesOnly
      ((filesOf options source assembly (.result (.ofAssembly assembly))).map (·.1)) := by
  obtain ⟨hfailure, hlast⟩ := Session.assemble_new h
  unfold ofSource
  dsimp only
  rw [hfailure, hlast]
  dsimp only
  split
  · exact .log _ (writesOnly_writeListings _)
  · exact writesOnly_writeListings _

/-! ## The extensions of its files -/

/-- The extensions that the command gives to its files. -/
def outputExtensions : List Text := [".lst", ".olst", ".obj", ".sicdb"]

/-- The extensions of the files that the command writes for an assembly: that of the object listing if
the layout found no fault, and those of the object program and the symbol file if there is no fault
at all. -/
def extensionsOf (options : AssembleOptions) (assembly : Assembly) : List Text :=
  Text.ofString ".lst" ::
    ((if assembly.program.errorFree then [Text.ofString ".olst"] else []) ++
      if assembly.faults = [] then
        Text.ofString ".obj" :: if options.symbols then [Text.ofString ".sicdb"] else []
      else [])

/-- The extensions of the files that the command writes for a text: none if it cannot be read. -/
def extensionsFor (options : AssembleOptions) (text : Text) : List Text :=
  match Assembly.ofInput options.mode { text } with
  | .error _ => []
  | .ok assembly => extensionsOf options assembly

theorem extensionsOf_sublist (options : AssembleOptions) (assembly : Assembly) :
    (extensionsOf options assembly).Sublist outputExtensions := by
  unfold extensionsOf outputExtensions
  cases assembly.program.errorFree <;> cases options.symbols <;>
    by_cases hfaults : assembly.faults = [] <;> simp [hfaults]

theorem isExtension_of_mem {extension : Text} (h : extension ∈ extensionsOf options assembly) :
    Path.IsExtension extension := by
  have hall : ∀ extension ∈ outputExtensions, Path.IsExtension extension := by decide
  exact hall extension ((extensionsOf_sublist options assembly).mem h)

/-- Without a chosen path, the paths of the files are made from that of the source. -/
theorem map_fst_filesOf (hpaths : options.ChoosesNoPath) (response : Service.Response) :
    (filesOf options source assembly response).map (·.1) =
      (extensionsOf options assembly).map (Path.withExtension source.path) := by
  obtain ⟨hlisting, hobjectListing, hobject⟩ := hpaths
  have hsymbols : options.symbolPath source = Path.withExtension source.path ".sicdb" := by
    rw [AssembleOptions.symbolPath, AssembleOptions.objectPath, hobject, AssembleOptions.pathOr,
      if_pos rfl, Path.withExtension_withExtension (by decide)]
  unfold filesOf extensionsOf
  rw [hsymbols]
  simp only [AssembleOptions.listingPath, AssembleOptions.objectListingPath,
    AssembleOptions.objectPath, AssembleOptions.pathOr, hlisting, hobjectListing, hobject,
    ↓reduceIte]
  cases assembly.program.errorFree <;> cases options.symbols <;>
    by_cases hfaults : assembly.faults = [] <;> simp [hfaults]

/-- Without a chosen path, no two files are at the same place. -/
theorem pairwise_apart_filesOf (hpaths : options.ChoosesNoPath) (response : Service.Response) :
    ((filesOf options source assembly response).map (·.1)).Pairwise store.Apart := by
  have hne : (extensionsOf options assembly).Pairwise (· ≠ ·) :=
    List.Pairwise.sublist (extensionsOf_sublist options assembly) (by decide)
  rw [map_fst_filesOf hpaths, List.pairwise_map]
  refine hne.imp_of_mem ?_
  intro extension extension' hmem hmem' h
  exact FileStore.apart_of_extension_ne (isExtension_of_mem hmem) (isExtension_of_mem hmem') h

/-! ## The source -/

/-- A file is kept if the command writes to other places for the source that it reads. -/
theorem read_ofSource (hpaths : options.ChoosesNoPath) (hread : store.read path = .ok text)
    (hapart : ∀ extension ∈ extensionsFor options source.text,
      store.Apart path (Path.withExtension source.path extension)) :
    ((ofSource console options source).run input store).store.read path = .ok text := by
  cases hassembly : Assembly.ofInput options.mode { text := source.text } with
  | error error =>
    obtain ⟨-, hstore⟩ := @run_ofSource_of_error console options source input error store hassembly
    rw [hstore]
    exact hread
  | ok assembly =>
    have hextensions : extensionsFor options source.text = extensionsOf options assembly := by
      rw [extensionsFor, hassembly]
    refine (Script.run_untouched (writesOnly_ofSource hassembly) input store).read_of_apart hread ?_
    rw [map_fst_filesOf hpaths, ← hextensions]
    exact List.forall_mem_map.2 hapart

theorem isExtension_of_mem_extensionsFor {extension : Text}
    (h : extension ∈ extensionsFor options text) : Path.IsExtension extension := by
  unfold extensionsFor at h
  cases hassembly : Assembly.ofInput options.mode { text } with
  | error error => simp [hassembly] at h
  | ok assembly =>
    rw [hassembly] at h
    exact isExtension_of_mem h

/-- The files for the input are apart from a file that is named like the input. -/
theorem apart_inputPath {extension : Text} (h : Path.IsExtension extension) :
    store.Apart inputPath (Path.withExtension "out" extension) := by
  have hstem : Path.stem "out" = Text.ofString "out" := by decide
  have hdirectory : Path.IsDirectoryPart [] [] := fun name hname => Text.split_of_not_mem hname
  have hslash : Path.slash ∉ Text.ofString "out" ++ extension := by
    rw [List.mem_append, not_or]
    exact ⟨by decide, h.slash_not_mem⟩
  have hne : inputPath ≠ Text.ofString "out" ++ extension := by
    intro heq
    have hhead : some (0x2D : UInt8) = some 0x6F := congrArg List.head? heq
    exact absurd hhead (by decide)
  have hplaces : store.Apart ([] ++ inputPath) ([] ++ (Text.ofString "out" ++ extension)) :=
    FileStore.apart_of_name_ne hdirectory (by decide) hslash (h.append_ne _) hne
  rw [Path.withExtension, hstem]
  exact hplaces

/-- **The source is kept** if it has none of the extensions of the files that are written. -/
theorem read_of_no_extension (hpaths : options.ChoosesNoPath)
    (hread : store.read options.file = .ok text)
    (h : ∀ extension ∈ extensionsFor options text, ¬ extension <:+ options.file) :
    ((script console options).run input store).store.read options.file = .ok text := by
  by_cases hinput : options.file = inputPath
  · have hsource : source? console options input store = some (.ofInput input) := if_pos hinput
    rw [(script_of_source hsource).1]
    refine read_ofSource hpaths hread fun extension hextension => ?_
    rw [hinput]
    exact apart_inputPath (isExtension_of_mem_extensionsFor hextension)
  · have hsource : source? console options input store =
        some (.ofFile console options.file text) := by
      rw [source?, if_neg hinput, hread]
      rfl
    rw [(script_of_source hsource).1]
    refine read_ofSource hpaths hread fun extension hextension => ?_
    exact FileStore.apart_withExtension (isExtension_of_mem_extensionsFor hextension)
      (h extension hextension)

/-- **The source is lost** if it has the extension of a file that is written: that file takes its
place. -/
theorem read_of_extension (hpaths : options.ChoosesNoPath)
    (hread : store.read options.file = .ok text)
    (hassembly : Assembly.ofInput options.mode { text } = .ok assembly)
    (hfiles : (script console options).succeeds input store = true) {extension : Text}
    (hmem : extension ∈ extensionsOf options assembly) (h : extension <:+ options.file) :
    ∃ content, (options.file, content) ∈ filesOf options (.ofFile console options.file text) assembly
        (.result (.ofAssembly assembly)) ∧
      ((script console options).run input store).store.read options.file = .ok content := by
  have hextension := isExtension_of_mem hmem
  have hinput : options.file ≠ inputPath := by
    -- the path of the input is too short for an extension
    obtain ⟨letters, rfl, hne, -⟩ := hextension.exists_eq
    have hletters := List.length_pos_iff.2 hne
    have hle := h.length_le
    intro heq
    rw [heq, List.length_cons, show inputPath.length = 1 by decide] at hle
    omega
  have hsource : source? console options input store = some (.ofFile console options.file text) := by
    rw [source?, if_neg hinput, hread]
    rfl
  obtain ⟨hrun, hsucceeds⟩ := script_of_source hsource
  rw [hsucceeds] at hfiles
  obtain ⟨hwritten, -⟩ := performs_ofSource hassembly store hfiles
  have hall := FileStore.written_of_writeAll hwritten (pairwise_apart_filesOf hpaths _)
  have hpath : options.file ∈ (filesOf options (.ofFile console options.file text) assembly
      (.result (.ofAssembly assembly))).map (·.1) := by
    rw [map_fst_filesOf hpaths]
    exact List.mem_map.2 ⟨extension, hmem, (Path.withExtension_eq_self_iff hextension).2 h⟩
  obtain ⟨⟨_, content⟩, hfile, rfl⟩ := List.mem_map.1 hpath
  rw [hrun]
  exact ⟨content, hfile, hall.found _ hfile⟩

/-- **What becomes of the source** if no output path is chosen. It is kept, whatever its path and its
text, unless its path ends with the extension of a file that is written for the text. If it does, and
nothing goes wrong with a file, then that file takes its place. -/
theorem source_kept (hpaths : options.ChoosesNoPath) (hread : store.read options.file = .ok text) :
    ((∀ extension ∈ extensionsFor options text, ¬ extension <:+ options.file) →
      ((script console options).run input store).store.read options.file = .ok text) ∧
    ∀ assembly, Assembly.ofInput options.mode { text } = .ok assembly →
      (script console options).succeeds input store = true →
      (∃ extension ∈ extensionsOf options assembly, extension <:+ options.file) →
      ∃ content, (options.file, content) ∈ filesOf options (.ofFile console options.file text)
          assembly (.result (.ofAssembly assembly)) ∧
        ((script console options).run input store).store.read options.file = .ok content :=
  ⟨read_of_no_extension hpaths hread, fun _ hassembly hfiles ⟨_, hmem, h⟩ =>
    read_of_extension hpaths hread hassembly hfiles hmem h⟩

/-- A source without an extension, in a directory with that of a listing, is kept. -/
theorem source_kept_dotted :
    ((script { directory := "/" } { file := "a.lst/p", mode := .xe, symbols := true }).run []
      { directories := [["a.lst"]], files := [(["a.lst", "p"], "A WORD 1\n")] }).store.read "a.lst/p" =
        .ok "A WORD 1\n" :=
  (source_kept (by decide) (by decide)).1 (by decide +kernel)

/-- A source with the extension of a listing is not kept. -/
theorem source_overwritten : ¬ ∀ (console : Console) (options : AssembleOptions)
    (input text : Text) (store : FileStore), options.ChoosesNoPath →
    store.read options.file = .ok text →
    ((script console options).run input store).store.read options.file = .ok text := by
  intro h
  have hkept := h { directory := "/" } { file := "p.lst", mode := .xe } [] "A WORD 1\n"
    { files := [(["p.lst"], "A WORD 1\n")] } (by decide) (by decide)
  exact absurd hkept (by decide +kernel)

end Assemble

end SicXe
