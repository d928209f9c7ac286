import SicXe.Proofs.HoverTexts
import SicXe.Proofs.Protocol

/-!
# The documents of an editor

A connection keeps for each document what the editor told last, and the assembly of exactly that
text for the machine that the connection has now. The documents are compared with the messages
themselves: `Message.told?` reads the edits in them, `latest?` looks for the last edit of a
document, and `fresh` assembles its text anew. `Keeps` is the invariant, `Keeps.handle` says that
one request preserves it, and `Keeps.after` that a whole conversation does. It needs that the
machine is not chosen again once there are documents, since choosing it leaves their assemblies as
they are.

`Responds` says what the next message does and what is sent for it, member by member.
-/

namespace SicXe.Editor

variable {Id : Type} {editor : Editor} {request : Request Id}

/-! ## Distinct names -/

/-- No two documents have the same name. -/
def Distinct (editor : Editor) : Prop := (editor.documents.map (·.uri)).Nodup

theorem Distinct.erase (h : editor.Distinct) (uri : Text) : (editor.erase uri).Distinct :=
  h.sublist (List.filter_sublist.map _)

theorem Distinct.insert (h : editor.Distinct) (document : Document) :
    (editor.insert document).Distinct := by
  have hnew : document.uri ∉ (editor.erase document.uri).documents.map (·.uri) := by
    intro hmem
    obtain ⟨other, hother, huri⟩ := List.mem_map.1 hmem
    have hne := (List.mem_filter.1 hother).2
    simp [huri] at hne
  unfold Distinct
  rw [show (editor.insert document).documents = (editor.erase document.uri).documents ++ [document]
    from rfl, List.map_append, List.nodup_append]
  refine ⟨h.erase document.uri, List.nodup_singleton _, ?_⟩
  rintro uri huri other hother rfl
  have hdocument : uri = document.uri := List.mem_singleton.1 hother
  exact hnew (hdocument ▸ huri)

theorem Distinct.mem_iff (h : editor.Distinct) {document : Document} :
    document ∈ editor.documents ↔ editor.find? document.uri = some document := by
  constructor
  · intro hmem
    cases hfind : editor.find? document.uri with
    | none => simpa using List.find?_eq_none.1 hfind document hmem
    | some found =>
      have huri : found.uri = document.uri := by simpa using List.find?_some hfind
      rw [List.inj_on_of_nodup_map h (List.mem_of_find?_eq_some hfind) hmem huri]
  · exact List.mem_of_find?_eq_some

/-! ## The last edit of a document -/

/-- The version and the text that a document has after edits, if it is open then. -/
def latest? (uri : Text) (edits : List Edit) : Option (Int × Text) :=
  (edits.reverse.find? (·.uri == uri)).bind Edit.content?

theorem latest?_of_eq {uri : Text} {edits : List Edit} {edit : Edit} (h : uri = edit.uri) :
    latest? uri (edits ++ [edit]) = edit.content? := by
  rw [latest?, List.reverse_append, List.reverse_singleton, List.singleton_append,
    List.find?_cons_of_pos (by simp [h])]
  rfl

theorem latest?_of_ne {uri : Text} {edits : List Edit} {edit : Edit} (h : uri ≠ edit.uri) :
    latest? uri (edits ++ [edit]) = latest? uri edits := by
  rw [latest?, List.reverse_append, List.reverse_singleton, List.singleton_append,
    List.find?_cons_of_neg (by simp [Ne.symm h])]
  rfl

/-! ## The invariant -/

/-- The documents of a connection are those that edits left. -/
structure Keeps (editor : Editor) (edits : List Edit) : Prop where
  distinct : editor.Distinct
  found : ∀ uri, editor.find? uri =
    (latest? uri edits).map fun content => fresh editor.mode uri content.1 content.2

namespace Keeps

variable {edits : List Edit}

theorem start (mode : Mode) : Keeps { mode } [] :=
  ⟨List.nodup_nil, fun _ => rfl⟩

theorem close (h : Keeps editor edits) (uri : Text) :
    Keeps (editor.erase uri) (edits ++ [.close uri]) := by
  refine ⟨h.distinct.erase uri, fun other => ?_⟩
  by_cases hother : other = uri
  · have hlatest : latest? other (edits ++ [.close uri]) = none := latest?_of_eq hother
    rw [find?_erase_of_eq hother, hlatest]
    rfl
  · have hlatest : latest? other (edits ++ [.close uri]) = latest? other edits :=
      latest?_of_ne hother
    rw [find?_erase_of_ne hother, hlatest]
    exact h.found other

theorem write (h : Keeps editor edits) (uri : Text) (version : Int) (text : Text) :
    Keeps (editor.publish { uri, version, text } : Effect Id).editor
      (edits ++ [.write uri version text]) := by
  rw [editor_publish]
  refine ⟨h.distinct.insert _, fun other => ?_⟩
  by_cases hother : other = uri
  · have hlatest : latest? other (edits ++ [.write uri version text]) = some (version, text) :=
      latest?_of_eq hother
    rw [find?_insert_of_eq hother, hlatest, hother]
    rfl
  · have hlatest : latest? other (edits ++ [.write uri version text]) = latest? other edits :=
      latest?_of_ne hother
    rw [find?_insert_of_ne hother, hlatest]
    exact h.found other

theorem apply (h : Keeps editor edits) (edit : Edit) :
    Keeps (edit.apply editor : Effect Id).editor (edits ++ [edit]) := by
  cases edit with
  | write uri version text => exact h.write uri version text
  | close uri => exact h.close uri

/-- Assembling a document again gives what was there. -/
theorem refresh (h : Keeps editor edits) {uri : Text} {document : Document}
    (hfind : editor.find? uri = some document) :
    Keeps (editor.insert (document.assemble editor.mode).1) edits := by
  have hagain : (document.assemble editor.mode).1 = document ∧ document.uri = uri := by
    have hfound := h.found uri
    rw [hfind] at hfound
    obtain ⟨content, -, hdocument⟩ := Option.map_eq_some_iff.1 hfound.symm
    rw [assemble_eq_fresh, ← hdocument]
    exact ⟨rfl, rfl⟩
  rw [hagain.1]
  refine ⟨h.distinct.insert document, fun other => ?_⟩
  refine Eq.trans ?_ (h.found other)
  by_cases hother : other = document.uri
  · rw [find?_insert_of_eq hother, hother, hagain.2, hfind]
  · rw [find?_insert_of_ne hother]

/-- Without documents the machine can be chosen. -/
theorem choose (h : Keeps editor edits) (hnone : ∀ uri, latest? uri edits = none) (mode : Mode) :
    Keeps { editor with mode } edits := by
  refine ⟨h.distinct, fun uri => ?_⟩
  have hfound := h.found uri
  rw [hnone uri] at hfound ⊢
  exact hfound

theorem leave (h : Keeps editor edits) : Keeps { editor with closed := true } edits :=
  ⟨h.distinct, h.found⟩

/-- **One request keeps the documents.** -/
theorem handle (h : Keeps editor edits)
    (hgreet : request.method = "initialize" → ∀ uri, latest? uri edits = none) :
    Keeps (editor.handle request).editor (edits ++ request.edit?.toList) := by
  have houtcome := editor.outcome request
  generalize editor.handle request = effect at houtcome ⊢
  cases houtcome with
  | edited hedit huri =>
    rw [hedit]
    exact h.apply _
  | greeted hmethod hparams hedit heditor hsent =>
    rw [hedit, heditor, Option.toList_none, List.append_nil]
    exact h.choose (hgreet hmethod) _
  | refreshed hmethod hedit huri hfind heditor hsent =>
    rw [hedit, heditor, Option.toList_none, List.append_nil]
    exact h.refresh hfind
  | left hmethod hedit heditor hsent =>
    rw [hedit, heditor, Option.toList_none, List.append_nil]
    exact h.leave
  | kept hedit heditor hsent =>
    rw [hedit, heditor, Option.toList_none, List.append_nil]
    exact h

end Keeps

/-! ## Conversations -/

variable {rpc : Rpc Id} {message : Json}

theorem receive_of_closed (h : editor.closed = true) :
    editor.receive rpc message = { editor } := by
  simp [receive, h]

theorem receive_refused (hopen : editor.closed = false) (h : rpc.receive? message = none) :
    editor.receive rpc message = { editor := { editor with closed := true } } := by
  simp [receive, hopen, h]

theorem receive_reply (hopen : editor.closed = false) (h : rpc.receive? message = some .reply) :
    editor.receive rpc message = { editor } := by
  simp [receive, hopen, h]

theorem receive_request (hopen : editor.closed = false)
    (h : rpc.receive? message = some (.request request)) :
    (editor.receive rpc message).editor = (editor.handle request).editor ∧
      (editor.receive rpc message).sent = (editor.handle request).sent.map rpc.send := by
  simp [receive, hopen, h]

/-- The connection after messages. -/
def after (rpc : Rpc Id) (editor : Editor) (messages : List Json) : Editor :=
  messages.foldl (fun editor message => (editor.receive rpc message).editor) editor

/-- The messages that are handed over as requests, up to the one that ends the connection. What is
no message ends it, too. -/
def heard (rpc : Rpc Id) : List Json → List Json
  | [] => []
  | message :: messages =>
    match rpc.receive? message with
    | none => []
    | some .reply => heard rpc messages
    | some (.request request) =>
      message :: if request.method = "exit" then [] else heard rpc messages

/-- The machine is not chosen once a document was opened or changed. -/
def ChoosesFirst (messages : List Json) : Prop :=
  messages.Pairwise fun earlier later =>
    Message.hasMethod earlier "textDocument/didOpen" = true ∨
        Message.hasMethod earlier "textDocument/didChange" = true →
      Message.hasMethod later "initialize" = false

instance (messages : List Json) : Decidable (ChoosesFirst messages) :=
  inferInstanceAs (Decidable (List.Pairwise _ messages))

theorem after_of_closed (h : editor.closed = true) (messages : List Json) :
    after rpc editor messages = editor := by
  induction messages with
  | nil => rfl
  | cons message messages ih =>
    rw [after, List.foldl_cons, receive_of_closed h]
    exact ih

/-- Only leaving ends the connection. -/
theorem closed_handle (h : request.method ≠ "exit") :
    (editor.handle request).editor.closed = editor.closed := by
  have houtcome := editor.outcome request
  generalize editor.handle request = effect at houtcome ⊢
  cases houtcome with
  | @edited edit hedit huri => cases edit <;> rfl
  | greeted hmethod hparams hedit heditor hsent => rw [heditor]
  | refreshed hmethod hedit huri hfind heditor hsent =>
    rw [heditor]
    rfl
  | left hmethod hedit heditor hsent => exact absurd hmethod h
  | kept hedit heditor hsent => rw [heditor]

theorem closed_of_exit (h : request.method = "exit") :
    (editor.handle request).editor.closed = true := by
  unfold Editor.handle
  rw [h]
  rfl

theorem edits_cons (message : Json) (messages : List Json) :
    (message :: messages).filterMap Message.told? =
      (Message.told? message).toList ++ messages.filterMap Message.told? := by
  cases h : Message.told? message with
  | none => rw [List.filterMap_cons_none h, Option.toList_none, List.nil_append]
  | some edit => rw [List.filterMap_cons_some h, Option.toList_some, List.singleton_append]

namespace Keeps

variable {edits : List Edit}

/-- The machine may be chosen only while no document is open. -/
def Settled (edits : List Edit) (messages : List Json) : Prop :=
  (∀ uri, latest? uri edits = none) ∨
    ∀ message ∈ messages, Message.hasMethod message "initialize" = false

theorem Settled.greet {messages : List Json} (h : Settled edits (message :: messages))
    (hmethod : Message.hasMethod message "initialize" = true) (uri : Text) :
    latest? uri edits = none := by
  rcases h with hnone | hlater
  · exact hnone uri
  · exact absurd hmethod (Bool.not_eq_true _ ▸ hlater message List.mem_cons_self)

theorem Settled.step {messages : List Json} (h : Settled edits (message :: messages))
    (hconveys : Conveys message request) (hfirst : ChoosesFirst (message :: messages)) :
    Settled (edits ++ (Message.told? message).toList) messages := by
  rw [← hconveys.edit?]
  cases hedit : request.edit? with
  | none =>
    rw [Option.toList_none, List.append_nil]
    exact h.imp_right fun hlater later hmem => hlater later (List.mem_cons_of_mem _ hmem)
  | some edit =>
    cases edit with
    | write uri version text =>
      refine .inr fun later hmem => (List.pairwise_cons.1 hfirst).1 later hmem ?_
      rw [hconveys.hasMethod, hconveys.hasMethod]
      exact Request.method_of_write hedit
    | close uri =>
      refine h.imp ?_ fun hlater later hmem => hlater later (List.mem_cons_of_mem _ hmem)
      intro hnone other
      by_cases hother : other = uri
      · exact latest?_of_eq hother
      · exact (latest?_of_ne hother).trans (hnone other)

/-- **A conversation keeps the documents.** -/
theorem after (lawful : rpc.Lawful) (h : Keeps editor edits) (hopen : editor.closed = false)
    (messages : List Json) (hfirst : ChoosesFirst (heard rpc messages))
    (hsettled : Settled edits (heard rpc messages)) :
    Keeps (Editor.after rpc editor messages)
      (edits ++ (heard rpc messages).filterMap Message.told?) := by
  -- by induction on the messages, for every connection and the edits it has seen
  induction messages generalizing editor edits with
  | nil =>
    rw [heard, List.filterMap_nil, List.append_nil]
    exact h
  | cons message messages ih =>
    rw [Editor.after, List.foldl_cons, ← Editor.after]
    cases hreceived : rpc.receive? message with
    | none =>
      rw [receive_refused hopen hreceived, after_of_closed rfl, heard, hreceived,
        List.filterMap_nil, List.append_nil]
      exact h.leave
    | some received =>
      cases received with
      | reply =>
        have hheard : heard rpc (message :: messages) = heard rpc messages := by
          rw [heard, hreceived]
        rw [hheard] at hfirst hsettled ⊢
        rw [receive_reply hopen hreceived]
        exact ih h hopen hfirst hsettled
      | request request =>
        have hconveys := lawful.conveys _ _ hreceived
        have hheard : heard rpc (message :: messages) =
            message :: if request.method = "exit" then [] else heard rpc messages := by
          rw [heard, hreceived]
        rw [hheard] at hfirst hsettled ⊢
        rw [(receive_request hopen hreceived).1, edits_cons, ← List.append_assoc]
        have hstep : Keeps (editor.handle request).editor
            (edits ++ (Message.told? message).toList) := by
          rw [← hconveys.edit?]
          exact h.handle fun hmethod => hsettled.greet (hconveys.hasMethod.2 hmethod)
        by_cases hexit : request.method = "exit"
        · rw [after_of_closed (closed_of_exit hexit), if_pos hexit, List.filterMap_nil,
            List.append_nil]
          exact hstep
        · rw [if_neg hexit] at hfirst hsettled ⊢
          exact ih hstep ((closed_handle hexit).trans hopen) (List.pairwise_cons.1 hfirst).2
            (hsettled.step hconveys hfirst)

end Keeps

/-! ## What is sent, member by member -/

/-- JSON is the diagnostic, member by member. -/
structure IsItem (diagnostic : Diagnostic) (item : Json) : Prop where
  startLine : item.reach? ["range", "start", "line"] = some (.int diagnostic.span.start.line)
  startCharacter :
    item.reach? ["range", "start", "character"] = some (.int diagnostic.span.start.character)
  stopLine : item.reach? ["range", "end", "line"] = some (.int diagnostic.span.stop.line)
  stopCharacter :
    item.reach? ["range", "end", "character"] = some (.int diagnostic.span.stop.character)
  severity : item.reach? ["severity"] = some (.nat 1)
  source : item.reach? ["source"] = some (.string "sicasm")
  message : item.reach? ["message"] = some (.string diagnostic.message)

theorem isItem_toJson (diagnostic : Diagnostic) : IsItem diagnostic diagnostic.toJson :=
  ⟨rfl, rfl, rfl, rfl, rfl, rfl, rfl⟩

/-- A member is the list of diagnostics. -/
def Lists (diagnostics : List Diagnostic) (member : Option Json) : Prop :=
  ∃ items, member = some (.array items) ∧ List.Forall₂ IsItem diagnostics items

theorem lists_toJson (diagnostics : List Diagnostic) :
    Lists diagnostics (some (.array (diagnostics.map Diagnostic.toJson))) := by
  refine ⟨_, rfl, List.forall₂_map_right_iff.2 ?_⟩
  exact List.forall₂_same.2 fun diagnostic _ => isItem_toJson diagnostic

/-- The text that tells of a label: its name and its address. -/
def labelText (name : Text) (address : UInt32) : Text :=
  Text.ofString "**" ++ name ++ Text.ofString "**: label at `" ++
    Numeral.hex 4 address.toNat ++ Text.ofString "`"

theorem labelText_eq (name : Text) (address : UInt32) :
    labelText name address = describeLabel name address := by
  have hjoin : Text.ofString "**: label at `" =
      Text.ofString "**: " ++ Text.ofString "label at `" := by decide
  rw [labelText, describeLabel, describe, hjoin]
  simp only [List.append_assoc]

/-- What a message does to a connection whose documents edits left, and what is sent for it. -/
structure Responds (editor : Editor) (edits : List Edit) (message : Json) (step : Step) :
    Prop where
  /-- Parameters that cannot be read change nothing. -/
  unread : Message.needsFields message = true → Message.fields? message = none →
    step.editor = editor
  /-- A change without a new text changes nothing. -/
  unchanged : Message.hasMethod message "textDocument/didChange" = true →
    Message.told? message = none → step.editor = editor
  /-- A message about one document leaves the others alone. -/
  apart : ∀ uri, Message.uri? message ≠ some uri → step.editor.find? uri = editor.find? uri
  /-- A new text is published once, with its name, its version and the diagnostics of its
  assembly. -/
  published : ∀ uri version text, Message.told? message = some (.write uri version text) →
    ∃ publication, step.sent.filter isPublication = [publication] ∧
      publication.reach? ["params", "uri"] = some (.string uri) ∧
      publication.reach? ["params", "version"] = some (.int version) ∧
      Lists (freshDiagnostics editor.mode text) (publication.reach? ["params", "diagnostics"])
  /-- Nothing else is published. -/
  unpublished : (∀ uri version text, Message.told? message ≠ some (.write uri version text)) →
    step.sent.filter isPublication = []
  /-- The diagnostics of an open document are those of its assembly. -/
  diagnosed : Message.hasMethod message "textDocument/diagnostic" = true →
    ∀ uri version text, Message.uri? message = some uri →
      latest? uri edits = some (version, text) →
      ∃ response, step.sent = [response] ∧
        response.reach? ["result", "kind"] = some (.string "full") ∧
        Lists (freshDiagnostics editor.mode text) (response.reach? ["result", "items"])
  /-- A label is shown exactly if the word at the place is a label of the assembly, with its
  address. -/
  hovered : Message.hasMethod message "textDocument/hover" = true →
    ∀ params name address, Message.fields? message = some params →
      ((∃ response, step.sent = [response] ∧
          response.reach? ["result", "contents", "value"] =
            some (.string (labelText name address))) ↔
        ∃ version text assembly,
          latest? (Json.textAt ["textDocument", "uri"] params) edits = some (version, text) ∧
            Assembly.ofInput editor.mode { text } = .ok assembly ∧
            pointedWord? text (Message.placeOf params) = some name ∧ name ≠ [] ∧
            assembly.symbols.get? name = some address)

/-! ## What a message shows -/

namespace Keeps

variable {edits : List Edit}

theorem find?_eq_some_iff (h : Keeps editor edits) {uri : Text} {document : Document} :
    editor.find? uri = some document ↔ ∃ version text,
      latest? uri edits = some (version, text) ∧ document = fresh editor.mode uri version text := by
  rw [h.found, Option.map_eq_some_iff]
  constructor
  · rintro ⟨⟨version, text⟩, hlatest, hdocument⟩
    exact ⟨version, text, hlatest, hdocument.symm⟩
  · rintro ⟨version, text, hlatest, hdocument⟩
    exact ⟨(version, text), hlatest, hdocument.symm⟩

theorem mem_iff (h : Keeps editor edits) {document : Document} :
    document ∈ editor.documents ↔ ∃ uri version text,
      latest? uri edits = some (version, text) ∧ document = fresh editor.mode uri version text := by
  rw [h.distinct.mem_iff, h.find?_eq_some_iff]
  constructor
  · rintro ⟨version, text, hdocument⟩
    exact ⟨document.uri, version, text, hdocument⟩
  · rintro ⟨uri, version, text, hlatest, rfl⟩
    exact ⟨version, text, hlatest, rfl⟩

end Keeps

/-- A new text is published once. -/
theorem filter_isPublication_of_write (lawful : rpc.Lawful) {uri text : Text} {version : Int}
    (h : request.edit? = some (.write uri version text)) :
    ∃ publication, ((editor.handle request).sent.map rpc.send).filter isPublication =
        [publication] ∧
      publication.reach? ["params", "uri"] = some (.string uri) ∧
      publication.reach? ["params", "version"] = some (.int version) ∧
      Lists (freshDiagnostics editor.mode text) (publication.reach? ["params", "diagnostics"]) := by
  rw [sent_of_write h, List.map_singleton,
    List.filter_cons_of_pos (lawful.isPublication_publication _ _)]
  refine ⟨_, rfl, lawful.reach?_notify _ _ _, lawful.reach?_notify _ _ _, ?_⟩
  rw [publication, lawful.reach?_notify]
  exact lists_toJson _

/-- Without a new text nothing is published. -/
theorem filter_isPublication_of_not_givesText (lawful : rpc.Lawful) (h : ¬ request.GivesText) :
    ((editor.handle request).sent.map rpc.send).filter isPublication = [] := by
  rw [List.filter_eq_nil_iff]
  intro message hmessage
  obtain ⟨answer, hanswer, rfl⟩ := List.mem_map.1 hmessage
  rw [lawful.isPublication_of_isAnswer (isAnswer_of_not_givesText h answer hanswer)]
  exact Bool.false_ne_true

/-- The label that an answer tells of. -/
theorem sent_hover_iff (lawful : rpc.Lawful) {params : Params} {name : Text} {address : UInt32}
    (h : request.method = "textDocument/hover") (hparams : request.ownParams? = some params) :
    (∃ response, (editor.handle request).sent.map rpc.send = [response] ∧
        response.reach? ["result", "contents", "value"] =
          some (.string (labelText name address))) ↔
      ∃ document, editor.find? params.target.uri = some document ∧
        ∃ span, document.hover? editor.mode params.place =
          some (describeLabel name address, span) := by
  rw [sent_hover h hparams, List.map_singleton, labelText_eq]
  simp only [List.cons.injEq, and_true, exists_eq_left']
  rw [lawful.reach?_reply]
  cases hfound : (editor.find? params.target.uri).bind (·.hover? editor.mode params.place) with
  | none =>
    refine iff_of_false (by simp [Json.reach?, Json.member?]) ?_
    rintro ⟨document, hfind, span, hhover⟩
    rw [hfind, Option.bind_some, hhover] at hfound
    cases hfound
  | some found =>
    obtain ⟨document, hfind, hhover⟩ := Option.bind_eq_some_iff.1 hfound
    have hvalue : (hoverReport found.1 found.2).reach? ["contents", "value"] =
        some (.string found.1) := rfl
    rw [Option.elim_some, hvalue, hfind]
    simp only [Option.some.injEq, exists_eq_left', hhover, Json.string.injEq]
    constructor
    · intro htext
      exact ⟨found.2, by rw [← htext]⟩
    · rintro ⟨span, hspan⟩
      rw [hspan]

theorem bind_symbols_eq_some {mode : Mode} {text name : Text} {address : UInt32} :
    (Assembly.ofInput mode { text }).toOption.bind (·.symbols.get? name) = some address ↔
      ∃ assembly, Assembly.ofInput mode { text } = .ok assembly ∧
        assembly.symbols.get? name = some address := by
  cases Assembly.ofInput mode { text } with
  | ok assembly => simp [Except.toOption]
  | error error => simp [Except.toOption]

/-- **What a message does** to a connection that keeps its documents. -/
theorem Keeps.responds {edits : List Edit} (lawful : rpc.Lawful) (h : Keeps editor edits)
    (hopen : editor.closed = false) (hreceived : rpc.receive? message = some (.request request)) :
    Responds editor edits message (editor.receive rpc message) := by
  have hconveys := lawful.conveys _ _ hreceived
  obtain ⟨heditor, hsent⟩ := receive_request hopen hreceived
  refine ⟨?_, ?_, ?_, ?_, ?_, ?_, ?_⟩
  · intro hneeds hnone
    rw [heditor]
    exact editor_of_no_params (hconveys.placesFor?_ne_none hneeds)
      (hconveys.ownParams?_eq_none_iff.2 hnone)
  · intro hmethod hnone
    rw [heditor]
    exact editor_of_no_change (hconveys.hasMethod.1 hmethod) (hconveys.edit?.trans hnone)
  · intro uri hne
    rw [heditor]
    exact find?_handle_of_ne (hconveys.uri? ▸ hne)
  · intro uri version text htold
    rw [hsent]
    exact filter_isPublication_of_write lawful (hconveys.edit?.trans htold)
  · intro hnone
    rw [hsent]
    refine filter_isPublication_of_not_givesText lawful ?_
    rintro ⟨uri, version, text, hedit⟩
    exact hnone uri version text (hconveys.edit?.symm.trans hedit)
  · intro hmethod uri version text huri hlatest
    have hfind := h.find?_eq_some_iff.2 ⟨version, text, hlatest, rfl⟩
    rw [hsent, sent_diagnostic (hconveys.hasMethod.1 hmethod) (hconveys.uri?.trans huri) hfind,
      List.map_singleton]
    refine ⟨_, rfl, lawful.reach?_reply _ _ _, ?_⟩
    rw [lawful.reach?_reply]
    exact lists_toJson _
  · intro hmethod fields name address hfields
    have hhover := hconveys.hasMethod.1 hmethod
    obtain ⟨params, hparams, huri, hplace⟩ := hconveys.hover hhover hfields
    rw [hsent, sent_hover_iff lawful hhover hparams, ← huri, ← hplace]
    constructor
    · rintro ⟨document, hfind, hlabel⟩
      obtain ⟨version, text, hlatest, rfl⟩ := h.find?_eq_some_iff.1 hfind
      obtain ⟨hword, hname, hsymbol⟩ := hover?_eq_label.1 hlabel
      obtain ⟨assembly, hassembly, haddress⟩ := bind_symbols_eq_some.1 hsymbol
      exact ⟨version, text, assembly, hlatest, hassembly, hword, hname, haddress⟩
    · rintro ⟨version, text, assembly, hlatest, hassembly, hword, hname, haddress⟩
      refine ⟨_, h.find?_eq_some_iff.2 ⟨version, text, hlatest, rfl⟩, ?_⟩
      refine hover?_eq_label.2 ⟨hword, hname, ?_⟩
      exact bind_symbols_eq_some.2 ⟨assembly, hassembly, haddress⟩

/-! ## The documents are current -/

/-- A connection whose documents are what messages told last, and what the next message does. -/
structure Current (rpc : Rpc Id) (editor : Editor) (messages : List Json) : Prop where
  distinct : editor.Distinct
  /-- The documents are those that were opened or changed and not closed since, each with what was
  told last and with the assembly of that text. -/
  documents : ∀ document, document ∈ editor.documents ↔ ∃ uri version text,
    latest? uri (messages.filterMap Message.told?) = some (version, text) ∧
      document = fresh editor.mode uri version text
  next : editor.closed = false → ∀ message, rpc.Takes message →
    Responds editor (messages.filterMap Message.told?) message (editor.receive rpc message)

/-- **The documents of a connection are current after every conversation** in which the machine is
not chosen once a document was opened or changed. -/
theorem documents_current (lawful : rpc.Lawful) (mode : Mode) (messages : List Json)
    (hfirst : ChoosesFirst (heard rpc messages)) :
    Current rpc (after rpc { mode } messages) (heard rpc messages) := by
  have hkeeps : Keeps (after rpc { mode } messages)
      ((heard rpc messages).filterMap Message.told?) :=
    (Keeps.start mode).after lawful rfl messages hfirst (.inl fun _ => rfl)
  refine ⟨hkeeps.distinct, fun document => hkeeps.mem_iff, ?_⟩
  rintro hopen message ⟨request, hreceived⟩
  exact hkeeps.responds lawful hopen hreceived

/-- A conversation in which one document is changed before it is opened, opened, changed twice at
once and changed to nothing, and another is opened and closed. -/
def changingMessages : List Json :=
  let target (uri : String) (version : Nat) (text : String) : String × Json :=
    ("textDocument", Json.record [("uri", .string uri), ("languageId", .string "sic"),
      ("version", .nat version), ("text", .string text)])
  let changes (texts : List Text) : String × Json := ("contentChanges", Message.changes texts)
  [Message.written "initialize"
      [("initializationOptions", Json.record [("mode", .string "xe")])],
    Message.written "textDocument/didChange" [target "a" 1 "", changes ["A START 0"]],
    Message.written "textDocument/didOpen" [target "b" 1 "B START 0"],
    Message.written "textDocument/didOpen" [target "a" 2 "A START 8"],
    Message.written "textDocument/didChange" [target "a" 3 "", changes ["A", "A WORD 1"]],
    Message.written "textDocument/didClose" [target "b" 0 ""],
    Message.written "textDocument/didChange" [target "a" 4 "", changes []]]

theorem documents_current_changing :
    ChoosesFirst (heard .standard changingMessages) ∧
      latest? "a" ((heard .standard changingMessages).filterMap Message.told?) =
        some (3, Text.ofString "A WORD 1") ∧
      latest? "b" ((heard .standard changingMessages).filterMap Message.told?) = none ∧
      Current .standard (after .standard { mode := .sic } changingMessages)
        (heard .standard changingMessages) := by
  have hfirst : ChoosesFirst (heard .standard changingMessages) := by decide +kernel
  refine ⟨hfirst, by decide +kernel, by decide +kernel, ?_⟩
  exact documents_current Rpc.standard_lawful .sic changingMessages hfirst

end SicXe.Editor
