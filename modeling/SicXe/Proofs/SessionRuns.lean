import SicXe.Proofs.LayoutStep
import SicXe.Session

/-!
# Runs of a session and fresh runs

The runs of a session share a symbol table, and what the last run left is kept while the text, the
machine and the device change. None of this shows:

* `Assembly.ofLines_symbols`: an assembly does not depend on the labels in the table it fills.
* `Session.Settings`: what a run depends on, and `Settings.fresh`, the assembly that a run with these
  settings makes from nothing.
* `settings_perform`, `settings_foldl`: the settings of a session are those that its steps gave it.
* `map_lines`, `assemble_of_ok`, `assemble_of_error`: a run has the outcome of a fresh run.
* `run_faithful`: so every run of every session has, and all other steps leave its outcome alone.
-/

namespace SicXe

/-- **A table that is filled again** gives the same assembly as an empty one. -/
theorem Assembly.ofLines_symbols (mode : Mode) (lines : List Text) (symbols : SymbolTable) :
    Assembly.ofLines mode lines symbols = Assembly.ofLines mode lines := by
  have hlayout : Layout.ofLines mode lines symbols = Layout.ofLines mode lines := by
    simp only [Layout.ofLines, SymbolTable.cleared_eq_empty]
  simp only [Assembly.ofLines, hlayout]

/-- The outcome of a run that made an assembly. -/
def Run.ofAssembly (assembly : Assembly) : Run :=
  { assembly
    listing := assembly.report.listing
    objectListing :=
      if assembly.program.errorFree then assembly.report.objectListing.toOption else none }

@[simp] theorem Run.assembly_ofAssembly (assembly : Assembly) :
    (Run.ofAssembly assembly).assembly = assembly := rfl

namespace Session

/-! ## Settings and outputs -/

/-- What a run depends on. -/
structure Settings where
  text : Text
  mode : Mode
  rewindFailure : Option Text := none
  readFailure : Option Text := none
  deriving DecidableEq, Repr

/-- What a session shows of its last run. -/
structure Outputs where
  assembly : Option Assembly := none
  listing : Option Text := none
  objectListing : Option Text := none
  errorFree : Bool := false
  deriving DecidableEq, Repr

/-- The settings after a step. -/
def Settings.after (settings : Settings) : Action → Settings
  | .assemble => settings
  | .setMode mode => { settings with mode }
  | .setText text => { settings with text }
  | .setRewindFailure failure => { settings with rewindFailure := failure }
  | .setReadFailure failure => { settings with readFailure := failure }

/-- The assembly that a run makes from nothing. It goes back to the beginning before it reads. -/
def Settings.fresh (settings : Settings) : Except SourceError Assembly :=
  match settings.rewindFailure, settings.readFailure with
  | some message, _ => .error (.rewinding message)
  | none, some message => .error (.reading (.device message))
  | none, none => Assembly.ofInput settings.mode { text := settings.text }

/-- What there is to show of an assembly. The object listing exists if the layout found no fault. -/
def Outputs.ofAssembly (assembly : Assembly) : Outputs :=
  { assembly := some assembly
    listing := some assembly.report.listing
    objectListing :=
      if assembly.program.errorFree then assembly.report.objectListing.toOption else none
    errorFree := assembly.program.errorFree }

/-- The settings of a session. -/
def settings (session : Session) : Settings :=
  { text := session.text
    mode := session.mode
    rewindFailure := session.rewindFailure
    readFailure := session.readFailure }

/-- What a session shows. -/
def outputs (session : Session) : Outputs :=
  { assembly := session.assembly
    listing := session.listing
    objectListing := session.objectListing
    errorFree := session.isErrorFree }

variable {session : Session}

/-! ## One step -/

@[simp] theorem settings_forget : session.forget.settings = session.settings := rfl

@[simp] theorem settings_fill (lines : List Text) :
    (session.fill lines).settings = session.settings := rfl

@[simp] theorem outputs_forget : session.forget.outputs = {} := rfl

theorem settings_assemble : session.assemble.1.settings = session.settings := by
  unfold assemble
  dsimp only
  cases session.forget.lines <;> simp

theorem settings_perform (action : Action) :
    (session.perform action).settings = session.settings.after action := by
  cases action with
  | assemble => exact settings_assemble
  | setMode mode => rfl
  | setText text => rfl
  | setRewindFailure failure => rfl
  | setReadFailure failure => rfl

theorem outputs_perform {action : Action} (h : action ≠ .assemble) :
    (session.perform action).outputs = session.outputs := by
  cases action with
  | assemble => exact absurd rfl h
  | setMode mode => rfl
  | setText text => rfl
  | setRewindFailure failure => rfl
  | setReadFailure failure => rfl

/-- The outcome of a run is that of a fresh one, whatever labels earlier runs left. -/
theorem outputs_fill (lines : List Text) :
    (session.fill lines).outputs = .ofAssembly (.ofLines session.mode lines) := by
  unfold fill
  rw [Assembly.ofLines_symbols]
  rfl

/-- What a session reads, assembled, is what a fresh run makes. -/
theorem map_lines :
    session.lines.map (fun lines => Assembly.ofLines session.mode lines) =
      session.settings.fresh := by
  unfold lines input Settings.fresh settings
  cases session.rewindFailure with
  | some message => rfl
  | none =>
    cases session.readFailure with
    | some message => rfl
    | none =>
      unfold Assembly.ofInput
      dsimp only
      cases ({ text := session.text } : Input).lines.failure <;> rfl

/-- **A run that succeeds** leaves what a fresh run leaves. -/
theorem assemble_of_ok {assembly : Assembly} (h : session.settings.fresh = .ok assembly) :
    session.assemble.2 = none ∧ session.assemble.1.outputs = .ofAssembly assembly := by
  rw [← settings_forget, ← map_lines] at h
  cases hlines : session.forget.lines with
  | error error =>
    rw [hlines] at h
    cases h
  | ok lines =>
    rw [hlines] at h
    cases h
    simp only [assemble, hlines]
    exact ⟨trivial, outputs_fill lines⟩

/-- **A run that fails** leaves nothing, neither of itself nor of the run before it. -/
theorem assemble_of_error {error : SourceError} (h : session.settings.fresh = .error error) :
    session.assemble.2 = some error ∧ session.assemble.1.outputs = {} := by
  rw [← settings_forget, ← map_lines] at h
  cases hlines : session.forget.lines with
  | error failure =>
    rw [hlines] at h
    cases h
    simp only [assemble, hlines]
    exact ⟨trivial, outputs_forget⟩
  | ok lines =>
    rw [hlines] at h
    cases h

/-- The outcome that the last run left, read as a whole. -/
theorem last_of_outputs {assembly : Assembly} (h : session.outputs = .ofAssembly assembly) :
    session.last = some (.ofAssembly assembly) := by
  simp only [outputs, Outputs.ofAssembly, Outputs.mk.injEq] at h
  obtain ⟨hassembly, hlisting, hobject, -⟩ := h
  simp [last, hassembly, hlisting, hobject, Run.ofAssembly]

theorem last_of_nothing (h : session.outputs = {}) : session.last = none := by
  have hassembly : session.assembly = none := congrArg Outputs.assembly h
  simp [last, hassembly]

/-- The only run of a new session, if the text can be read. -/
theorem assemble_new {text : Text} {mode : Mode} {assembly : Assembly}
    (h : Assembly.ofInput mode { text } = .ok assembly) :
    (assemble { text, mode }).2 = none ∧
      (assemble { text, mode }).1.last = some (.ofAssembly assembly) := by
  obtain ⟨hfailure, houtputs⟩ := @assemble_of_ok { text, mode } assembly h
  exact ⟨hfailure, last_of_outputs houtputs⟩

/-- The only run of a new session, if the text cannot be read. -/
theorem assemble_new_error {text : Text} {mode : Mode} {error : SourceError}
    (h : Assembly.ofInput mode { text } = .error error) :
    (assemble { text, mode }).2 = some error ∧ (assemble { text, mode }).1.last = none := by
  obtain ⟨hfailure, houtputs⟩ := @assemble_of_error { text, mode } error h
  exact ⟨hfailure, last_of_nothing houtputs⟩

/-! ## Many steps -/

theorem settings_foldl (actions : List Action) (session : Session) :
    (actions.foldl perform session).settings = actions.foldl Settings.after session.settings := by
  induction actions generalizing session with
  | nil => rfl
  | cons action actions ih => rw [List.foldl_cons, List.foldl_cons, ih, settings_perform]

theorem outputs_foldl (actions : List Action) (session : Session) (h : .assemble ∉ actions) :
    (actions.foldl perform session).outputs = session.outputs := by
  induction actions generalizing session with
  | nil => rfl
  | cons action actions ih =>
    rw [List.mem_cons, not_or] at h
    rw [List.foldl_cons, ih _ h.2, outputs_perform (Ne.symm h.1)]

/-- A session in which the next run is as good as a fresh one with the given settings. -/
structure Faithful (session : Session) (settings : Settings) : Prop where
  succeeds : ∀ assembly, settings.fresh = .ok assembly →
    session.assemble.2 = none ∧ session.assemble.1.outputs = .ofAssembly assembly
  fails : ∀ error, settings.fresh = .error error →
    session.assemble.2 = some error ∧ session.assemble.1.outputs = {}
  /-- Without a run nothing is shown that was not shown before. -/
  keeps : ∀ later : List Action, .assemble ∉ later →
    (later.foldl perform session).outputs = session.outputs

/-- **Every run of a session is a fresh run** of the text for the machine that its steps set last,
whatever came before: other texts, other machines, runs that failed. -/
theorem run_faithful (text : Text) (mode : Mode) (actions : List Action) :
    Faithful (actions.foldl perform { text, mode })
      (actions.foldl Settings.after { text, mode }) := by
  have hsettings := settings_foldl actions { text, mode }
  rw [show Session.settings { text, mode } = { text, mode } from rfl] at hsettings
  rw [← hsettings]
  refine ⟨?_, ?_, ?_⟩
  · intro assembly h
    exact assemble_of_ok h
  · intro error h
    exact assemble_of_error h
  · intro later h
    exact outputs_foldl later _ h

end Session

end SicXe
