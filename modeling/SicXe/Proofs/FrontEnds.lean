import SicXe.Command.Assemble
import SicXe.Editor.Document
import SicXe.Proofs.AssemblyRun
import SicXe.Proofs.FileWrites
import SicXe.Proofs.SessionRuns
import SicXe.Service.Assemble

/-!
# The front ends agree

The service, the command and the editor each assemble a text in their own way and decide on their own
what to pass on. They say the same of every text:

* `objectListing_eq`, `objectProgram_eq_ok`: which written forms an assembly has.
* `Service.response_of_ok`, `Service.kind_of_error`: what the service answers.
* `Assemble.performs_writeListings`, `Assemble.performs_ofSource`: the files that the command writes,
  in terms of that answer, and the code that it ends with.
* `frontEnds_agree`: the answer, the files, the code and the diagnostics side by side.
-/

namespace SicXe

/-! ## The written forms of an assembly -/

namespace Assembly

theorem objectListing_eq (assembly : Assembly) (h : assembly.program.errorFree = true) :
    ∃ listing, listing ≠ [] ∧ assembly.report.objectListing = .ok listing := by
  refine ⟨_, ?_, if_pos h⟩
  simp [Listing.heading]

theorem objectProgram_eq_ok {mode : Mode} {lines : List Text}
    (h : (ofLines mode lines).faults = []) :
    ∃ object, object ≠ [] ∧ (ofLines mode lines).report.objectProgram = .ok object := by
  have hfree := errorFree_of_faults h
  have hmessages : (ofLines mode lines).report.messages = [] := by simp [report, h]
  refine ⟨_, ?_, if_pos ⟨hfree, hmessages⟩⟩
  simp [ObjectProgram.header]

theorem objectProgram_eq_error {assembly : Assembly} (h : assembly.faults ≠ []) :
    assembly.report.objectProgram = .error .objectProgram := by
  refine if_neg ?_
  simp [report, h]

end Assembly

/-! ## The service -/

namespace Service

variable {server mode : Mode} {request : Request}

theorem response_of_ok {assembly : Assembly} (hmode : modeOf server request.mode = some mode)
    (h : Assembly.ofInput mode { text := request.source } = .ok assembly) :
    (assemble server request).response = .result (.ofAssembly assembly) := by
  obtain ⟨hfailure, hlast⟩ := Session.assemble_new h
  unfold assemble
  rw [hmode]
  dsimp only
  rw [hfailure, hlast]

theorem kind_of_error {error : SourceError} (hmode : modeOf server request.mode = some mode)
    (h : Assembly.ofInput mode { text := request.source } = .error error) :
    (assemble server request).response.kind = "error" := by
  obtain ⟨hfailure, hlast⟩ := Session.assemble_new_error h
  unfold assemble
  rw [hmode]
  dsimp only
  rw [hfailure, hlast]
  rfl

end Service

/-! ## The command -/

namespace Assemble

variable {console : Console} {options : AssembleOptions} {source : Source} {input : Text}

/-- The files of the answer to a text: those that the command writes for it. The object listing is
written if the layout found no fault, and the object program, with the symbol file if it is asked
for, if there is no fault at all. -/
def filesOf (options : AssembleOptions) (source : Source) (assembly : Assembly)
    (response : Service.Response) : List (Text × Text) :=
  (options.listingPath source, response.listing) ::
    ((if assembly.program.errorFree then
        [(options.objectListingPath source, response.objectListing)] else []) ++
      if assembly.faults = [] then
        (options.objectPath source, response.objectProgram) ::
          if options.symbols then
            [(options.symbolPath source, (symbolFile source assembly).encode)] else []
      else [])

/-- The paths that the command may write to. -/
def outputPaths (options : AssembleOptions) (source : Source) : List Text :=
  [options.listingPath source, options.objectListingPath source, options.objectPath source] ++
    if options.symbols then [options.symbolPath source] else []

theorem filesOf_sublist (options : AssembleOptions) (source : Source) (assembly : Assembly)
    (response : Service.Response) :
    ((filesOf options source assembly response).map (·.1)).Sublist
      (outputPaths options source) := by
  unfold filesOf outputPaths
  cases assembly.program.errorFree <;> cases options.symbols <;>
    by_cases hfaults : assembly.faults = [] <;> simp [hfaults]

theorem performs_writeOrFail {path content : Text} {files : List (Text × Text)} {code : Nat}
    {next : Script} (label : Text) (what : String) (h : next.Performs input files code) :
    (writeOrFail label path content what next).Performs input ((path, content) :: files) code :=
  Script.performs_write h

/-- **A program without faults**: its object program is written, and then its symbols. -/
theorem performs_finish_of_ok {assembly : Assembly} {object : Text} (label : Text)
    (hfaults : assembly.faults = []) (hobject : assembly.report.objectProgram = .ok object) :
    (finish console options label source assembly).Performs input
      ((options.objectPath source, object) ::
        if options.symbols then
          [(options.symbolPath source, (symbolFile source assembly).encode)] else []) 0 := by
  unfold finish
  rw [hfaults, hobject]
  apply performs_writeOrFail
  split
  · exact performs_writeOrFail _ _ (Script.performs_exit 0)
  · exact Script.performs_exit 0

/-- **A program with faults**: they are reported, and no file is written. -/
theorem performs_finish_of_faults {assembly : Assembly} (label : Text)
    (hfaults : assembly.faults ≠ []) :
    (finish console options label source assembly).Performs input [] 1 := by
  obtain ⟨fault, faults, hcons⟩ := List.exists_cons_of_ne_nil hfaults
  unfold finish
  rw [hcons]
  exact Console.performs_fail _ _ _

section
variable {mode : Mode} {lines : List Text}

/-- What follows the listings, by the service's answer. -/
theorem performs_finish (label : Text) :
    (finish console options label source (.ofLines mode lines)).Performs input
      (if (Assembly.ofLines mode lines).faults = [] then
        (options.objectPath source,
          (Service.Response.result (.ofAssembly (.ofLines mode lines))).objectProgram) ::
          if options.symbols then
            [(options.symbolPath source, (symbolFile source (.ofLines mode lines)).encode)] else []
      else [])
      (if (Assembly.ofLines mode lines).faults = [] then 0 else 1) := by
  by_cases hfaults : (Assembly.ofLines mode lines).faults = []
  · obtain ⟨object, -, hobject⟩ := Assembly.objectProgram_eq_ok hfaults
    have hresponse :
        (Service.Response.result (.ofAssembly (.ofLines mode lines))).objectProgram = object := by
      simp [Service.Response.result, hobject, Except.toOption]
    rw [if_pos hfaults, if_pos hfaults, hresponse]
    exact performs_finish_of_ok label hfaults hobject
  · rw [if_neg hfaults, if_neg hfaults]
    exact performs_finish_of_faults label hfaults

theorem performs_writeListings (label : Text) :
    (writeListings console options label source (.ofAssembly (.ofLines mode lines))).Performs input
      (filesOf options source (.ofLines mode lines) (.result (.ofAssembly (.ofLines mode lines))))
      (if (Assembly.ofLines mode lines).faults = [] then 0 else 1) := by
  unfold writeListings filesOf
  apply performs_writeOrFail
  rw [Run.assembly_ofAssembly]
  cases (Assembly.ofLines mode lines).program.errorFree with
  | true =>
    rw [if_pos rfl, if_pos rfl, List.singleton_append]
    exact performs_writeOrFail _ _ (performs_finish label)
  | false =>
    rw [if_neg Bool.false_ne_true, if_neg Bool.false_ne_true, List.nil_append]
    exact performs_finish label

end

/-- **A source that can be read**: the files of the service's answer are written. -/
theorem performs_ofSource {assembly : Assembly}
    (h : Assembly.ofInput options.mode { text := source.text } = .ok assembly) :
    (ofSource console options source).Performs input
      (filesOf options source assembly (.result (.ofAssembly assembly)))
      (if assembly.faults = [] then 0 else 1) := by
  obtain ⟨hfailure, hlast⟩ := Session.assemble_new h
  obtain rfl := Assembly.ofInput_eq_ok h
  unfold ofSource
  dsimp only
  rw [hfailure, hlast]
  dsimp only
  split
  · exact Script.performs_log _ (performs_writeListings _)
  · exact performs_writeListings _

/-- **A source that cannot be read**: the command fails without touching a file. -/
theorem run_ofSource_of_error {error : SourceError} (store : FileStore)
    (h : Assembly.ofInput options.mode { text := source.text } = .error error) :
    ((ofSource console options source).run input store).code = 1 ∧
      ((ofSource console options source).run input store).store = store := by
  obtain ⟨hfailure, hlast⟩ := Session.assemble_new_error h
  unfold ofSource
  dsimp only
  rw [hfailure, hlast]
  exact Console.run_fail _ _ _ _

/-- The source that the command reads, if it can be read. -/
def source? (console : Console) (options : AssembleOptions) (input : Text) (store : FileStore) :
    Option Source :=
  if options.file = inputPath then some (.ofInput input)
  else (store.read options.file).toOption.map (.ofFile console options.file)

theorem script_of_source {store : FileStore} (h : source? console options input store = some source) :
    (script console options).run input store = (ofSource console options source).run input store ∧
      (script console options).succeeds input store =
        (ofSource console options source).succeeds input store := by
  unfold source? at h
  unfold script
  by_cases hfile : options.file = inputPath
  · rw [if_pos hfile, Option.some.injEq] at h
    rw [if_pos hfile, ← h]
    exact ⟨rfl, rfl⟩
  · rw [if_neg hfile] at h ⊢
    simp only [Script.run, Script.succeeds]
    cases hread : store.read options.file with
    | error error =>
      rw [hread] at h
      cases h
    | ok text =>
      rw [hread] at h
      cases h
      exact ⟨rfl, rfl⟩

end Assemble

/-! ## All of them -/

/-- What the front ends make of a text that can be read: the service's answer, what is seen of the
command, and the editor's diagnostics. -/
structure Agreement (options : AssembleOptions) (source : Source) (store : FileStore)
    (assembly : Assembly) (response : Service.Response) (outcome : Outcome)
    (diagnostics : List Editor.Diagnostic) : Prop where
  answered : response.kind = "result"
  errorFree : response.errorFree = assembly.program.errorFree
  objectListing : response.objectListing ≠ [] ↔ assembly.program.errorFree = true
  objectProgram : response.objectProgram ≠ [] ↔ assembly.faults = []
  errors : response.errors = assembly.faults.map Fault.message
  /-- The command writes the files of the answer, and no others. -/
  written : store.writeAll (Assemble.filesOf options source assembly response) = .ok outcome.store
  /-- They are found in the end, if their paths lead to different places. -/
  found : (Assemble.outputPaths options source).Pairwise store.Apart →
    store.Written (Assemble.filesOf options source assembly response) outcome.store
  code : outcome.code = if assembly.faults = [] then 0 else 1
  diagnosed : diagnostics = [] ↔ assembly.faults = []
  /-- There is one diagnostic for each fault, in the same order. -/
  diagnostics : diagnostics.map (fun diagnostic => (diagnostic.span.start, diagnostic.message)) =
    assembly.faults.map fun fault =>
      (⟨fault.position.line - 1, fault.position.column - 1⟩, Editor.faultMessage fault)

/-- **The front ends agree** on every text, for every machine. If the text can be read, the service
answers with the files that the command writes, all of them make the same of the faults, and none of
them invents or drops one. If it cannot be read, all of them say so. -/
theorem frontEnds_agree {console : Console} {options : AssembleOptions} {input : Text}
    {store : FileStore} {source : Source} {server : Mode} {request : Service.Request}
    {document : Editor.Document}
    (hsource : Assemble.source? console options input store = some source)
    (hfiles : (Assemble.script console options).succeeds input store = true)
    (hmode : Service.modeOf server request.mode = some options.mode)
    (hrequest : request.source = source.text) (hdocument : document.text = source.text) :
    (∀ assembly, Assembly.ofInput options.mode { text := source.text } = .ok assembly →
      Agreement options source store assembly (Service.assemble server request).response
        ((Assemble.script console options).run input store)
        (document.assemble options.mode).2) ∧
    ∀ error, Assembly.ofInput options.mode { text := source.text } = .error error →
      (Service.assemble server request).response.kind = "error" ∧
        ((Assemble.script console options).run input store).code = 1 ∧
        ((Assemble.script console options).run input store).store = store ∧
        (document.assemble options.mode).2.length = 1 := by
  obtain ⟨hrun, hsucceeds⟩ := Assemble.script_of_source hsource
  rw [hsucceeds] at hfiles
  refine ⟨fun assembly h => ?_, fun error h => ?_⟩
  · have hresponse := Service.response_of_ok hmode (hrequest ▸ h)
    obtain ⟨hwritten, hcode⟩ := Assemble.performs_ofSource h store hfiles
    have hdiagnostics : (document.assemble options.mode).2 =
        Editor.diagnosticsOf document.text assembly := by
      rw [Editor.Document.assemble, hdocument, h]
    rw [hresponse, hrun, hdiagnostics]
    obtain rfl := Assembly.ofInput_eq_ok h
    refine {
      answered := rfl
      errorFree := rfl
      objectListing := ?objectListing
      objectProgram := ?objectProgram
      errors := rfl
      written := hwritten
      found := fun hapart =>
        FileStore.written_of_writeAll hwritten (hapart.sublist (Assemble.filesOf_sublist ..))
      code := hcode
      diagnosed := by simp [Editor.diagnosticsOf]
      diagnostics := by simp [Editor.diagnosticsOf, Editor.faultSpan, Function.comp_def] }
    case objectListing =>
      cases hfree : (Assembly.ofLines options.mode _).program.errorFree with
      | true =>
        obtain ⟨listing, hlisting, hok⟩ := Assembly.objectListing_eq _ hfree
        simp [Service.Response.result, Run.ofAssembly, hfree, hok, hlisting, Except.toOption]
      | false => simp [Service.Response.result, Run.ofAssembly, hfree]
    case objectProgram =>
      by_cases hfaults : (Assembly.ofLines options.mode
          ({ text := source.text } : Input).lines.lines).faults = []
      · obtain ⟨object, hobject, hok⟩ := Assembly.objectProgram_eq_ok hfaults
        simp [Service.Response.result, Run.ofAssembly, hfaults, hok, hobject, Except.toOption]
      · have herror := Assembly.objectProgram_eq_error hfaults
        simp [Service.Response.result, Run.ofAssembly, hfaults, herror, Except.toOption]
  · obtain ⟨hcode, hstore⟩ := @Assemble.run_ofSource_of_error console options source input _ store h
    refine ⟨Service.kind_of_error hmode (hrequest ▸ h), ?_, ?_, ?_⟩
    · rw [hrun, hcode]
    · rw [hrun, hstore]
    · rw [Editor.Document.assemble, hdocument, h]
      rfl

/-- A program whose fault is found in the second run only: it has an object listing but no object
program. -/
theorem frontEnds_agree_late :
    (Assembly.ofLines .xe ["LDA FAR"]).program.errorFree = true ∧
      (Assembly.ofLines .xe ["LDA FAR"]).faults ≠ [] ∧
      Agreement { file := "p.asm", mode := .xe } (.ofFile { directory := "/" } "p.asm" "LDA FAR\n")
        { files := [(["p.asm"], "LDA FAR\n")] } (.ofLines .xe ["LDA FAR"])
        (Service.assemble .sic { mode := "xe", source := "LDA FAR\n" }).response
        ((Assemble.script { directory := "/" } { file := "p.asm", mode := .xe }).run []
          { files := [(["p.asm"], "LDA FAR\n")] })
        (Editor.Document.assemble .xe { text := "LDA FAR\n" }).2 := by
  refine ⟨by decide +kernel, by decide +kernel, ?_⟩
  exact (frontEnds_agree (by decide +kernel) (by decide +kernel) (by decide +kernel) rfl rfl).1 _ rfl

end SicXe
