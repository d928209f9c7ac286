import SicXe.Editor.Server

/-!
# Handling one request

What handling a request can do is said once, by `Outcome`: it edits a document, chooses the machine,
assembles a document again, ends the connection, or leaves the connection as it is. Only an edit
sends a message that was not asked for. `outcome` shows that every request has such an outcome, and
what is proved of requests elsewhere goes through its cases.
-/

namespace SicXe.Editor

variable {Id : Type}

/-! ## What a request tells -/

/-- Where a method looks for its parameters; the other methods look for none. -/
def placesFor? (method : Text) : Option (List (Json.Place Params)) :=
  if method = "initialize" then some Params.greetPlaces
  else if method = "textDocument/didOpen" then some Params.openPlaces
  else if method = "textDocument/didChange" then some Params.changePlaces
  else if method = "textDocument/didClose" then some Params.documentPlaces
  else if method = "textDocument/diagnostic" then some Params.documentPlaces
  else if method = "textDocument/hover" then some Params.hoverPlaces
  else none

/-- An edit of the documents that are open. -/
inductive Edit where
  /-- A document has a new text, whether it was open before or not. -/
  | write (uri : Text) (version : Int) (text : Text)
  | close (uri : Text)
  deriving DecidableEq, Repr

namespace Edit

/-- The document that is edited. -/
def uri : Edit → Text
  | .write uri _ _ => uri
  | .close uri => uri

/-- The version and the text of the document after the edit, if it is open then. -/
def content? : Edit → Option (Int × Text)
  | .write _ version text => some (version, text)
  | .close _ => none

/-- What an edit does to a connection. -/
def apply (editor : Editor) : Edit → Effect Id
  | .write uri version text => editor.publish { uri, version, text }
  | .close uri => { editor := editor.erase uri }

end Edit

namespace Request

variable {request : Request Id}

/-- The parameters of a request, read where its method looks for them. -/
def ownParams? (request : Request Id) : Option Params :=
  (placesFor? request.method).bind request.params?

/-- The document that a request is about. -/
def uri? (request : Request Id) : Option Text :=
  if request.method = "initialize" then none else request.ownParams?.map (·.target.uri)

/-- The edit that a request tells of. Of several changes the last one counts. -/
def edit? (request : Request Id) : Option Edit :=
  request.ownParams?.bind fun params =>
    if request.method = "textDocument/didOpen" then
      some (.write params.target.uri params.target.version params.target.text)
    else if request.method = "textDocument/didChange" then
      params.changes.items.getLast?.map (.write params.target.uri params.target.version)
    else if request.method = "textDocument/didClose" then some (.close params.target.uri)
    else none

theorem edit?_of_no_params (h : request.ownParams? = none) : request.edit? = none := by
  rw [edit?, h]
  rfl

/-- The methods that edit documents. -/
def editingMethods : List Text :=
  ["textDocument/didOpen", "textDocument/didChange", "textDocument/didClose"]

theorem edit?_of_not_mem (h : request.method ∉ editingMethods) : request.edit? = none := by
  simp only [editingMethods, List.mem_cons, List.not_mem_nil, or_false, not_or] at h
  simp [edit?, h]

/-- Only opening and changing a document gives it a text. -/
theorem method_of_write {uri : Text} {version : Int} {text : Text}
    (h : request.edit? = some (.write uri version text)) :
    request.method = "textDocument/didOpen" ∨ request.method = "textDocument/didChange" := by
  obtain ⟨params, -, hedit⟩ := Option.bind_eq_some_iff.1 h
  by_cases hopen : request.method = "textDocument/didOpen"
  · exact .inl hopen
  by_cases hchange : request.method = "textDocument/didChange"
  · exact .inr hchange
  rw [if_neg hopen, if_neg hchange] at hedit
  split at hedit <;> cases hedit

end Request

/-! ## Messages -/

variable {editor : Editor} {request : Request Id}

/-- An answer to a request, in contrast to a message that was not asked for. -/
def IsAnswer (request : Request Id) : Outgoing Id → Prop
  | .reply id _ => id = request.id
  | .refuse id _ => id = request.id
  | .notify _ _ => False

theorem isAnswer_of_reply {result : Json} :
    ∀ message ∈ [Outgoing.reply request.id result], IsAnswer request message := by
  intro message hmessage
  rw [List.mem_singleton.1 hmessage]
  rfl

theorem isAnswer_of_refuse {refusal : Refusal} :
    ∀ message ∈ [Outgoing.refuse request.id refusal], IsAnswer request message := by
  intro message hmessage
  rw [List.mem_singleton.1 hmessage]
  rfl

/-! ## Methods -/

/-- The methods that the server knows. -/
def methods : List Text :=
  ["initialize", "initialized", "textDocument/didOpen", "textDocument/didChange",
    "textDocument/didClose", "textDocument/diagnostic", "textDocument/hover", "shutdown", "exit"]

/-- What handles a request, told from its method. -/
inductive Handling (editor : Editor) (request : Request Id) : Effect Id → Prop where
  | greet (hmethod : request.method = "initialize") :
      Handling editor request (editor.greet request)
  | greeted (hmethod : request.method = "initialized") : Handling editor request { editor }
  | didOpen (hmethod : request.method = "textDocument/didOpen") :
      Handling editor request (editor.didOpen request)
  | didChange (hmethod : request.method = "textDocument/didChange") :
      Handling editor request (editor.didChange request)
  | didClose (hmethod : request.method = "textDocument/didClose") :
      Handling editor request (editor.didClose request)
  | diagnostic (hmethod : request.method = "textDocument/diagnostic") :
      Handling editor request (editor.diagnostic request)
  | hover (hmethod : request.method = "textDocument/hover") :
      Handling editor request (editor.hover request)
  | shutdown (hmethod : request.method = "shutdown") :
      Handling editor request { editor, sent := [.reply request.id .null] }
  | exit (hmethod : request.method = "exit") :
      Handling editor request { editor := { editor with closed := true } }
  | unknown (hmethod : request.method ∉ methods) :
      Handling editor request (editor.unknownMethod request)

theorem handling (editor : Editor) (request : Request Id) :
    Handling editor request (editor.handle request) := by
  unfold handle
  dsimp only
  by_cases hgreet : request.method = "initialize"
  · rw [if_pos hgreet]
    exact .greet hgreet
  rw [if_neg hgreet]
  by_cases hgreeted : request.method = "initialized"
  · rw [if_pos hgreeted]
    exact .greeted hgreeted
  rw [if_neg hgreeted]
  by_cases hopen : request.method = "textDocument/didOpen"
  · rw [if_pos hopen]
    exact .didOpen hopen
  rw [if_neg hopen]
  by_cases hchange : request.method = "textDocument/didChange"
  · rw [if_pos hchange]
    exact .didChange hchange
  rw [if_neg hchange]
  by_cases hclose : request.method = "textDocument/didClose"
  · rw [if_pos hclose]
    exact .didClose hclose
  rw [if_neg hclose]
  by_cases hdiagnostic : request.method = "textDocument/diagnostic"
  · rw [if_pos hdiagnostic]
    exact .diagnostic hdiagnostic
  rw [if_neg hdiagnostic]
  by_cases hhover : request.method = "textDocument/hover"
  · rw [if_pos hhover]
    exact .hover hhover
  rw [if_neg hhover]
  by_cases hshutdown : request.method = "shutdown"
  · rw [if_pos hshutdown]
    exact .shutdown hshutdown
  rw [if_neg hshutdown]
  by_cases hexit : request.method = "exit"
  · rw [if_pos hexit]
    exact .exit hexit
  rw [if_neg hexit]
  exact .unknown (by simp [methods, hgreet, hgreeted, hopen, hchange, hclose, hdiagnostic, hhover,
    hshutdown, hexit])

/-! ## Outcomes -/

/-- What handling a request can do. -/
inductive Outcome (editor : Editor) (request : Request Id) : Effect Id → Prop where
  | edited {edit : Edit} (hedit : request.edit? = some edit)
      (huri : request.uri? = some edit.uri) : Outcome editor request (edit.apply editor)
  | greeted {effect : Effect Id} {params : Params} (hmethod : request.method = "initialize")
      (hparams : request.ownParams? = some params) (hedit : request.edit? = none)
      (heditor : effect.editor =
        { editor with mode := (params.modeName.bind Mode.ofName?).getD editor.mode })
      (hsent : ∀ message ∈ effect.sent, IsAnswer request message) : Outcome editor request effect
  | refreshed {effect : Effect Id} {uri : Text} {document : Document}
      (hmethod : request.method = "textDocument/diagnostic")
      (hedit : request.edit? = none) (huri : request.uri? = some uri)
      (hfind : editor.find? uri = some document)
      (heditor : effect.editor = editor.insert (document.assemble editor.mode).1)
      (hsent : ∀ message ∈ effect.sent, IsAnswer request message) : Outcome editor request effect
  | left {effect : Effect Id} (hmethod : request.method = "exit") (hedit : request.edit? = none)
      (heditor : effect.editor = { editor with closed := true }) (hsent : effect.sent = []) :
      Outcome editor request effect
  | kept {effect : Effect Id} (hedit : request.edit? = none) (heditor : effect.editor = editor)
      (hsent : ∀ message ∈ effect.sent, IsAnswer request message) : Outcome editor request effect

/-- A request that is answered and does nothing else. -/
theorem outcome_reply (hedit : request.edit? = none) (result : Json) :
    Outcome editor request { editor, sent := [.reply request.id result] } :=
  .kept hedit rfl isAnswer_of_reply

theorem outcome_silent (hedit : request.edit? = none) : Outcome editor request { editor } :=
  .kept hedit rfl fun _ hmessage => absurd hmessage List.not_mem_nil

theorem outcome_rejectParams (hedit : request.edit? = none) :
    Outcome editor request (editor.rejectParams request) := by
  unfold rejectParams
  split
  case isTrue => exact outcome_silent hedit
  case isFalse => exact .kept hedit rfl isAnswer_of_refuse

theorem outcome_unknownMethod (hedit : request.edit? = none) :
    Outcome editor request (editor.unknownMethod request) := by
  unfold unknownMethod
  split
  case isTrue => exact outcome_silent hedit
  case isFalse => exact .kept hedit rfl isAnswer_of_refuse

/-- A method that needs parameters does something only if it has them. -/
theorem outcome_withParams {places : List (Json.Place Params)} {use : Params → Effect Id}
    (hplaces : placesFor? request.method = some places)
    (h : ∀ params, request.ownParams? = some params → Outcome editor request (use params)) :
    Outcome editor request (editor.withParams request places use) := by
  have hown : request.ownParams? = request.params? places := by
    rw [Request.ownParams?, hplaces]
    rfl
  unfold withParams
  cases hparams : request.params? places with
  | none => exact outcome_rejectParams (Request.edit?_of_no_params (hown.trans hparams))
  | some params => exact h params (hown.trans hparams)

theorem outcome_greet (hmethod : request.method = "initialize") :
    Outcome editor request (editor.greet request) := by
  have hedit : request.edit? = none := Request.edit?_of_not_mem (by rw [hmethod]; decide)
  refine outcome_withParams (by rw [hmethod]; rfl) fun params hparams => ?_
  exact .greeted hmethod hparams hedit rfl isAnswer_of_reply

theorem outcome_didOpen (hmethod : request.method = "textDocument/didOpen") :
    Outcome editor request (editor.didOpen request) := by
  refine outcome_withParams (by rw [hmethod]; rfl) fun params hparams => ?_
  have hedit : request.edit? =
      some (.write params.target.uri params.target.version params.target.text) := by
    rw [Request.edit?, hparams, hmethod]
    rfl
  have huri : request.uri? = some params.target.uri := by
    rw [Request.uri?, hparams, hmethod]
    rfl
  exact .edited hedit huri

theorem outcome_didChange (hmethod : request.method = "textDocument/didChange") :
    Outcome editor request (editor.didChange request) := by
  refine outcome_withParams (by rw [hmethod]; rfl) fun params hparams => ?_
  have hedit : request.edit? = params.changes.items.getLast?.map
      (.write params.target.uri params.target.version) := by
    rw [Request.edit?, hparams, hmethod]
    rfl
  have huri : request.uri? = some params.target.uri := by
    rw [Request.uri?, hparams, hmethod]
    rfl
  cases hlast : params.changes.items.getLast? with
  | none =>
    rw [hlast] at hedit
    exact outcome_silent hedit
  | some text =>
    rw [hlast] at hedit
    exact .edited hedit huri

theorem outcome_didClose (hmethod : request.method = "textDocument/didClose") :
    Outcome editor request (editor.didClose request) := by
  refine outcome_withParams (by rw [hmethod]; rfl) fun params hparams => ?_
  have hedit : request.edit? = some (.close params.target.uri) := by
    rw [Request.edit?, hparams, hmethod]
    rfl
  have huri : request.uri? = some params.target.uri := by
    rw [Request.uri?, hparams, hmethod]
    rfl
  exact .edited hedit huri

theorem outcome_diagnostic (hmethod : request.method = "textDocument/diagnostic")
    (hedit : request.edit? = none) : Outcome editor request (editor.diagnostic request) := by
  refine outcome_withParams (by rw [hmethod]; rfl) fun params hparams => ?_
  have huri : request.uri? = some params.target.uri := by
    rw [Request.uri?, hparams, hmethod]
    rfl
  cases hfind : editor.find? params.target.uri with
  | none => exact outcome_reply hedit _
  | some document => exact .refreshed hmethod hedit huri hfind rfl isAnswer_of_reply

theorem outcome_hover (hmethod : request.method = "textDocument/hover")
    (hedit : request.edit? = none) : Outcome editor request (editor.hover request) := by
  refine outcome_withParams (by rw [hmethod]; rfl) fun params hparams => ?_
  cases hfound : (editor.find? params.target.uri).bind (·.hover? editor.mode params.place) with
  | none => exact outcome_reply hedit _
  | some found => exact outcome_reply hedit _

/-- **Every request has an outcome.** -/
theorem outcome (editor : Editor) (request : Request Id) :
    Outcome editor request (editor.handle request) := by
  have hhandling := editor.handling request
  generalize editor.handle request = effect at hhandling ⊢
  cases hhandling with
  | greet hmethod => exact outcome_greet hmethod
  | greeted hmethod =>
    exact outcome_silent (Request.edit?_of_not_mem (by rw [hmethod]; decide))
  | didOpen hmethod => exact outcome_didOpen hmethod
  | didChange hmethod => exact outcome_didChange hmethod
  | didClose hmethod => exact outcome_didClose hmethod
  | diagnostic hmethod =>
    exact outcome_diagnostic hmethod (Request.edit?_of_not_mem (by rw [hmethod]; decide))
  | hover hmethod =>
    exact outcome_hover hmethod (Request.edit?_of_not_mem (by rw [hmethod]; decide))
  | shutdown hmethod =>
    exact outcome_reply (Request.edit?_of_not_mem (by rw [hmethod]; decide)) .null
  | exit hmethod =>
    exact .left hmethod (Request.edit?_of_not_mem (by rw [hmethod]; decide)) rfl rfl
  | unknown hmethod =>
    refine outcome_unknownMethod (Request.edit?_of_not_mem fun hmem => hmethod ?_)
    have hsubset : Request.editingMethods ⊆ methods := by decide
    exact hsubset hmem

/-- A request that tells of an edit does that edit. -/
theorem handle_of_edit {edit : Edit} (h : request.edit? = some edit) :
    editor.handle request = edit.apply editor := by
  have houtcome := editor.outcome request
  generalize editor.handle request = effect at houtcome ⊢
  cases houtcome with
  | edited hedit huri =>
    rw [h] at hedit
    cases hedit
    rfl
  | greeted hmethod hparams hedit heditor hsent => exact absurd (h.symm.trans hedit) (by simp)
  | refreshed hmethod hedit huri hfind heditor hsent =>
    exact absurd (h.symm.trans hedit) (by simp)
  | left hmethod hedit heditor hsent => exact absurd (h.symm.trans hedit) (by simp)
  | kept hedit heditor hsent => exact absurd (h.symm.trans hedit) (by simp)

/-- Without an edit all that is sent are answers. -/
theorem isAnswer_of_no_edit (h : request.edit? = none) :
    ∀ message ∈ (editor.handle request).sent, IsAnswer request message := by
  have houtcome := editor.outcome request
  generalize editor.handle request = effect at houtcome ⊢
  cases houtcome with
  | edited hedit huri => exact absurd (h.symm.trans hedit) (by simp)
  | greeted hmethod hparams hedit heditor hsent => exact hsent
  | refreshed hmethod hedit huri hfind heditor hsent => exact hsent
  | left hmethod hedit heditor hsent =>
    rw [hsent]
    intro message hmessage
    cases hmessage
  | kept hedit heditor hsent => exact hsent

/-! ## Documents by name -/

theorem find?_erase_of_eq {uri other : Text} (h : other = uri) :
    (editor.erase uri).find? other = none := by
  rw [find?, erase, List.find?_filter, List.find?_eq_none]
  intro document _
  simp [h]

theorem find?_erase_of_ne {uri other : Text} (h : other ≠ uri) :
    (editor.erase uri).find? other = editor.find? other := by
  rw [find?, find?, erase, List.find?_filter]
  congr 1
  funext document
  by_cases hdocument : document.uri = other
  · simp [hdocument, h]
  · simp [hdocument]

theorem find?_insert (document : Document) (uri : Text) :
    (editor.insert document).find? uri =
      ((editor.erase document.uri).find? uri).or ([document].find? (·.uri == uri)) :=
  List.find?_append

theorem find?_insert_of_eq {document : Document} {uri : Text} (h : uri = document.uri) :
    (editor.insert document).find? uri = some document := by
  rw [find?_insert, find?_erase_of_eq h]
  simp [h]

theorem find?_insert_of_ne {document : Document} {uri : Text} (h : uri ≠ document.uri) :
    (editor.insert document).find? uri = editor.find? uri := by
  rw [find?_insert, find?_erase_of_ne h]
  simp [Ne.symm h]

/-! ## Fresh assemblies -/

/-- A document as its text makes it. -/
def fresh (mode : Mode) (uri : Text) (version : Int) (text : Text) : Document :=
  { uri, version, text, assembly := (Assembly.ofInput mode { text }).toOption }

/-- The diagnostics of a text. -/
def freshDiagnostics (mode : Mode) (text : Text) : List Diagnostic :=
  match Assembly.ofInput mode { text } with
  | .ok assembly => diagnosticsOf text assembly
  | .error error => [{ message := error.message }]

theorem assemble_eq_fresh (mode : Mode) (document : Document) :
    document.assemble mode =
      (fresh mode document.uri document.version document.text,
        freshDiagnostics mode document.text) := by
  unfold Document.assemble fresh freshDiagnostics
  cases Assembly.ofInput mode { text := document.text } with
  | ok assembly => rfl
  | error error => rfl

theorem editor_publish (uri : Text) (version : Int) (text : Text) :
    (editor.publish { uri, version, text } : Effect Id).editor =
      editor.insert (fresh editor.mode uri version text) := by
  simp only [publish, assemble_eq_fresh]

/-! ## What requests show -/

/-- A request without the parameters that its method needs changes nothing. -/
theorem editor_of_no_params (hplaces : placesFor? request.method ≠ none)
    (hnone : request.ownParams? = none) : (editor.handle request).editor = editor := by
  have houtcome := editor.outcome request
  generalize editor.handle request = effect at houtcome ⊢
  cases houtcome with
  | edited hedit huri =>
    rw [Request.edit?_of_no_params hnone] at hedit
    cases hedit
  | greeted hmethod hparams hedit heditor hsent =>
    rw [hnone] at hparams
    cases hparams
  | refreshed hmethod hedit huri hfind heditor hsent =>
    rw [Request.uri?, hnone, Option.map_none, ite_self] at huri
    cases huri
  | left hmethod hedit heditor hsent =>
    rw [hmethod] at hplaces
    exact absurd rfl hplaces
  | kept hedit heditor hsent => exact heditor

/-- A change without a new text changes nothing. -/
theorem editor_of_no_change (h : request.method = "textDocument/didChange")
    (hnone : request.edit? = none) : (editor.handle request).editor = editor := by
  have houtcome := editor.outcome request
  generalize editor.handle request = effect at houtcome ⊢
  cases houtcome with
  | edited hedit huri =>
    rw [hnone] at hedit
    cases hedit
  | greeted hmethod hparams hedit heditor hsent => exact absurd (h.symm.trans hmethod) (by decide)
  | refreshed hmethod hedit huri hfind heditor hsent =>
    exact absurd (h.symm.trans hmethod) (by decide)
  | left hmethod hedit heditor hsent => exact absurd (h.symm.trans hmethod) (by decide)
  | kept hedit heditor hsent => exact heditor

/-- A request leaves the documents alone that it is not about. -/
theorem find?_handle_of_ne {uri : Text} (h : request.uri? ≠ some uri) :
    (editor.handle request).editor.find? uri = editor.find? uri := by
  have houtcome := editor.outcome request
  generalize editor.handle request = effect at houtcome ⊢
  cases houtcome with
  | @edited edit hedit huri =>
    have hne : uri ≠ edit.uri := fun heq => h (heq ▸ huri)
    cases edit with
    | write other version text =>
      rw [Edit.apply, editor_publish]
      exact find?_insert_of_ne hne
    | close other => exact find?_erase_of_ne hne
  | greeted hmethod hparams hedit heditor hsent =>
    rw [heditor]
    rfl
  | @refreshed effect other document hmethod hedit huri hfind heditor hsent =>
    have hother : document.uri = other := by simpa using List.find?_some hfind
    have hne : uri ≠ document.uri := fun heq => h (by rw [huri, heq, hother])
    rw [heditor, assemble_eq_fresh]
    exact find?_insert_of_ne hne
  | left hmethod hedit heditor hsent =>
    rw [heditor]
    rfl
  | kept hedit heditor hsent => rw [heditor]

/-- The request gives a document a text. -/
def Request.GivesText (request : Request Id) : Prop :=
  ∃ uri version text, request.edit? = some (.write uri version text)

/-- **A new text is published** with its diagnostics. -/
theorem sent_of_write {uri text : Text} {version : Int}
    (h : request.edit? = some (.write uri version text)) :
    (editor.handle request).sent =
      [publication (fresh editor.mode uri version text) (freshDiagnostics editor.mode text)] := by
  simp only [handle_of_edit h, Edit.apply, publish, assemble_eq_fresh]

/-- Without a new text all that is sent are answers. -/
theorem isAnswer_of_not_givesText (h : ¬ request.GivesText) :
    ∀ message ∈ (editor.handle request).sent, IsAnswer request message := by
  cases hedit : request.edit? with
  | none => exact isAnswer_of_no_edit hedit
  | some edit =>
    cases edit with
    | write uri version text => exact absurd ⟨uri, version, text, hedit⟩ h
    | close uri =>
      rw [handle_of_edit hedit]
      exact fun _ hmessage => absurd hmessage List.not_mem_nil

theorem sent_diagnostic {uri : Text} {document : Document}
    (h : request.method = "textDocument/diagnostic") (huri : request.uri? = some uri)
    (hfind : editor.find? uri = some document) :
    (editor.handle request).sent =
      [.reply request.id (diagnosticReport (freshDiagnostics editor.mode document.text))] := by
  have hhandle : editor.handle request = editor.diagnostic request := by
    unfold Editor.handle
    rw [h]
    rfl
  rw [Request.uri?, Request.ownParams?, h] at huri
  obtain ⟨params, hparams, rfl⟩ := Option.map_eq_some_iff.1 huri
  have hown : request.params? Params.documentPlaces = some params := hparams
  simp only [hhandle, diagnostic, withParams, hown, hfind, assemble_eq_fresh]

theorem sent_hover {params : Params} (h : request.method = "textDocument/hover")
    (hparams : request.ownParams? = some params) :
    (editor.handle request).sent = [.reply request.id
      (((editor.find? params.target.uri).bind (·.hover? editor.mode params.place)).elim .null
        fun found => hoverReport found.1 found.2)] := by
  have hhandle : editor.handle request = editor.hover request := by
    unfold Editor.handle
    rw [h]
    rfl
  have hown : request.params? Params.hoverPlaces = some params := by
    rw [Request.ownParams?, h] at hparams
    exact hparams
  simp only [hhandle, hover, withParams, hown]
  cases (editor.find? params.target.uri).bind (·.hover? editor.mode params.place) with
  | none => rfl
  | some found => rfl

end SicXe.Editor
