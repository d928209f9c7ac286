import SicXe.Proofs.EditorDocuments

/-!
# Answers and publications

Each message that an editor sends gets what it is owed, and nothing else is sent. `Sends` says what
handling a request can send: one answer, one publication of diagnostics or nothing, and which of
these. `sends` shows it for every request, `Served` says what a message is owed in terms of the
message alone, and `messages_served` follows a whole conversation.

Some answers are not asked for: the methods that always answer do so to a notification, too. Some
requests with an id are not answered: they have a method of which the editor only tells, and
parameters that can be read. An id that is a negative number does not come back
(`negative_id_not_echoed`).
-/

namespace SicXe.Editor

variable {Id : Type} {editor : Editor} {request : Request Id}

/-! ## What a request sends -/

/-- The methods of which an editor only tells. -/
def tellingMethods : List Text :=
  ["initialized", "textDocument/didOpen", "textDocument/didChange", "textDocument/didClose", "exit"]

/-- The methods that answer whether they are asked to or not. -/
def answeringMethods : List Text :=
  ["initialize", "textDocument/diagnostic", "textDocument/hover", "shutdown"]

theorem Request.not_givesText (hopen : request.method ≠ "textDocument/didOpen")
    (hchange : request.method ≠ "textDocument/didChange") : ¬ request.GivesText := by
  rintro ⟨uri, version, text, hedit⟩
  rcases Request.method_of_write hedit with hmethod | hmethod
  · exact hopen hmethod
  · exact hchange hmethod

/-- What handling a request sends. -/
inductive Sends (request : Request Id) : List (Outgoing Id) → Prop where
  | answer {message : Outgoing Id} (hanswer : IsAnswer request message)
      (hasked : request.notifies = false ∨ request.method ∈ answeringMethods)
      (htext : ¬ request.GivesText) : Sends request [message]
  | publication (document : Document) (diagnostics : List Diagnostic)
      (htold : request.method ∈ tellingMethods) (htext : request.GivesText) :
      Sends request [publication document diagnostics]
  | nothing (htold : request.notifies = true ∨ request.method ∈ tellingMethods)
      (htext : ¬ request.GivesText) : Sends request []

/-- A request that wants an answer is refused. -/
theorem sends_refuse {refusal : Refusal} (hasked : ¬ request.notifies = true)
    (htext : ¬ request.GivesText) : Sends request [.refuse request.id refusal] :=
  .answer rfl (.inl (Bool.eq_false_iff.2 hasked)) htext

theorem sends_rejectParams (htext : ¬ request.GivesText) :
    Sends request (editor.rejectParams request).sent := by
  unfold rejectParams
  split
  case isTrue hnotifies => exact .nothing (.inl hnotifies) htext
  case isFalse hasked => exact sends_refuse hasked htext

theorem sends_unknownMethod (htext : ¬ request.GivesText) :
    Sends request (editor.unknownMethod request).sent := by
  unfold unknownMethod
  split
  case isTrue hnotifies => exact .nothing (.inl hnotifies) htext
  case isFalse hasked => exact sends_refuse hasked htext

/-- A method that needs parameters sends what it sends with them, or refuses the request. -/
theorem sends_withParams {places : List (Json.Place Params)} {use : Params → Effect Id}
    (hplaces : placesFor? request.method = some places)
    (h : ∀ params, request.ownParams? = some params → Sends request (use params).sent) :
    Sends request (editor.withParams request places use).sent := by
  have hown : request.ownParams? = request.params? places := by
    rw [Request.ownParams?, hplaces]
    rfl
  unfold withParams
  cases hparams : request.params? places with
  | none =>
    refine sends_rejectParams ?_
    rintro ⟨uri, version, text, hedit⟩
    rw [Request.edit?_of_no_params (hown.trans hparams)] at hedit
    cases hedit
  | some params => exact h params (hown.trans hparams)

theorem sends_publish {document : Document} (htold : request.method ∈ tellingMethods)
    (htext : request.GivesText) : Sends request (editor.publish document).sent :=
  .publication _ _ htold htext

/-- A method that always answers. -/
theorem sends_reply {result : Json} (hmethod : request.method ∈ answeringMethods)
    (htext : ¬ request.GivesText) : Sends request [.reply request.id result] :=
  .answer rfl (.inr hmethod) htext

theorem sends_didOpen (hmethod : request.method = "textDocument/didOpen") :
    Sends request (editor.didOpen request).sent := by
  refine sends_withParams (by rw [hmethod]; rfl) fun params hparams => ?_
  have hedit : request.edit? =
      some (.write params.target.uri params.target.version params.target.text) := by
    rw [Request.edit?, hparams, hmethod]
    rfl
  exact sends_publish (by rw [hmethod]; decide) ⟨_, _, _, hedit⟩

theorem sends_didChange (hmethod : request.method = "textDocument/didChange") :
    Sends request (editor.didChange request).sent := by
  have htold : request.method ∈ tellingMethods := by rw [hmethod]; decide
  refine sends_withParams (by rw [hmethod]; rfl) fun params hparams => ?_
  have hedit : request.edit? = params.changes.items.getLast?.map
      (.write params.target.uri params.target.version) := by
    rw [Request.edit?, hparams, hmethod]
    rfl
  cases hlast : params.changes.items.getLast? with
  | none =>
    refine .nothing (.inr htold) ?_
    rintro ⟨uri, version, text, hwrite⟩
    rw [hedit, hlast] at hwrite
    cases hwrite
  | some text =>
    rw [hlast] at hedit
    exact sends_publish htold ⟨_, _, _, hedit⟩

/-- **What handling a request sends.** -/
theorem sends (editor : Editor) (request : Request Id) :
    Sends request (editor.handle request).sent := by
  have hhandling := editor.handling request
  generalize editor.handle request = effect at hhandling ⊢
  -- apart from opening and changing a document no method gives a text
  have hquiet {method : Text} (hmethod : request.method = method)
      (hopen : method ≠ "textDocument/didOpen") (hchange : method ≠ "textDocument/didChange") :
      ¬ request.GivesText :=
    Request.not_givesText (hmethod ▸ hopen) (hmethod ▸ hchange)
  cases hhandling with
  | greet hmethod =>
    refine sends_withParams (by rw [hmethod]; rfl) fun params _ => ?_
    exact sends_reply (by rw [hmethod]; decide) (hquiet hmethod (by decide) (by decide))
  | greeted hmethod =>
    exact .nothing (.inr (by rw [hmethod]; decide)) (hquiet hmethod (by decide) (by decide))
  | didOpen hmethod => exact sends_didOpen hmethod
  | didChange hmethod => exact sends_didChange hmethod
  | didClose hmethod =>
    refine sends_withParams (by rw [hmethod]; rfl) fun params _ => ?_
    exact .nothing (.inr (by rw [hmethod]; decide)) (hquiet hmethod (by decide) (by decide))
  | diagnostic hmethod =>
    refine sends_withParams (by rw [hmethod]; rfl) fun params _ => ?_
    cases editor.find? params.target.uri <;>
      exact sends_reply (by rw [hmethod]; decide) (hquiet hmethod (by decide) (by decide))
  | hover hmethod =>
    refine sends_withParams (by rw [hmethod]; rfl) fun params _ => ?_
    cases (editor.find? params.target.uri).bind (·.hover? editor.mode params.place) <;>
      exact sends_reply (by rw [hmethod]; decide) (hquiet hmethod (by decide) (by decide))
  | shutdown hmethod =>
    exact sends_reply (by rw [hmethod]; decide) (hquiet hmethod (by decide) (by decide))
  | exit hmethod =>
    exact .nothing (.inr (by rw [hmethod]; decide)) (hquiet hmethod (by decide) (by decide))
  | unknown hmethod =>
    refine sends_unknownMethod (Request.not_givesText ?_ ?_) <;>
      exact fun heq => hmethod (heq ▸ by decide)

/-! ## What a message is owed -/

variable {rpc : Rpc Id} {message : Json}

/-- A message gets what it is owed. -/
structure Served (rpc : Rpc Id) (message : Json) (sent : List Json) : Prop where
  /-- A request reaches the server. -/
  taken : Message.isRequest message = true → rpc.Takes message
  /-- A request with an id gets one answer, which names the id, unless its method only tells. -/
  answered : ∀ id method, rpc.Takes message → Message.id? message = some id →
    Message.method? message = some method → method ∉ tellingMethods →
      ∃ response echo, sent.filter isResponse = [response] ∧
        response.member? "id" = some echo ∧ Echoes id echo
  /-- A notification gets no answer, unless its method always answers. -/
  unanswered : ∀ method, Message.id? message = none →
    Message.method? message = some method → method ∉ answeringMethods →
      sent.filter isResponse = []
  /-- A new text is published once. -/
  published : rpc.Takes message → Message.givesText message = true →
    (sent.filter isPublication).length = 1
  /-- Nothing else is published. -/
  unpublished : Message.givesText message = false → sent.filter isPublication = []
  /-- What does not reach the server gets nothing. -/
  ignored : ¬ rpc.Takes message → sent = []

/-- What is ignored is served. -/
theorem served_of_not_takes (lawful : rpc.Lawful) (h : ¬ rpc.Takes message) :
    Served rpc message [] where
  taken := lawful.accepts message
  answered _ _ htakes := absurd htakes h
  unanswered _ _ _ _ := rfl
  published htakes := absurd htakes h
  unpublished _ := rfl
  ignored _ := rfl

theorem givesText_iff_request (hconveys : Conveys message request) :
    Message.givesText message = true ↔ request.GivesText := by
  rw [Message.givesText_iff, Request.GivesText, hconveys.edit?]

/-- **A request is served.** -/
theorem Sends.served (lawful : rpc.Lawful)
    (hreceived : rpc.receive? message = some (.request request)) {sent : List (Outgoing Id)}
    (h : Sends request sent) : Served rpc message (sent.map rpc.send) := by
  have hconveys := lawful.conveys _ _ hreceived
  have htakes : rpc.Takes message := ⟨request, hreceived⟩
  have hmethod {method : Text} (hname : Message.method? message = some method) :
      request.method = method := Option.some.inj (hconveys.method?.symm.trans hname)
  have hgives := givesText_iff_request hconveys
  have hnotifies := lawful.notifies _ _ hreceived
  cases h with
  | @answer answer hanswer hasked htext =>
    have hresponse : [rpc.send answer].filter isResponse = [rpc.send answer] :=
      List.filter_cons_of_pos (lawful.isResponse_of_isAnswer hanswer)
    have hpublication : [rpc.send answer].filter isPublication = [] :=
      List.filter_cons_of_neg (by simp [lawful.isPublication_of_isAnswer hanswer])
    refine ⟨lawful.accepts message, fun id method _ hid _ _ => ?_, fun method hid hname hnot => ?_,
      fun _ hnew => absurd (hgives.1 hnew) htext, fun _ => hpublication,
      fun hnot => absurd htakes hnot⟩
    · obtain ⟨echo, hecho, hechoes⟩ := lawful.echoes _ _ _ hreceived hid answer hanswer
      exact ⟨rpc.send answer, echo, hresponse, hecho, hechoes⟩
    · rcases hasked with hasked | hasked
      · exact absurd (hnotifies.2 hid) (by simp [hasked])
      · exact absurd (hmethod hname ▸ hasked) hnot
  | publication document diagnostics htold htext =>
    have hresponse : [rpc.send (Editor.publication document diagnostics)].filter isResponse = [] :=
      List.filter_cons_of_neg (by simp [Editor.publication, lawful.isResponse_notify])
    have hpublication :
        ([rpc.send (Editor.publication document diagnostics)].filter isPublication).length = 1 := by
      rw [List.filter_cons_of_pos (lawful.isPublication_publication _ _)]
      rfl
    exact ⟨lawful.accepts message,
      fun id method _ _ hname hnot => absurd (hmethod hname ▸ htold) hnot,
      fun _ _ _ _ => hresponse, fun _ _ => hpublication,
      fun hold => absurd (hgives.2 htext) (by simp [hold]), fun hnot => absurd htakes hnot⟩
  | nothing htold htext =>
    refine ⟨lawful.accepts message, fun id method _ hid hname hnot => ?_, fun _ _ _ _ => rfl,
      fun _ hnew => absurd (hgives.1 hnew) htext, fun _ => rfl, fun hnot => absurd htakes hnot⟩
    rcases htold with hsilent | htold
    · rw [hnotifies.1 hsilent] at hid
      cases hid
    · exact absurd (hmethod hname ▸ htold) hnot

/-! ## Conversations -/

/-- What is sent for each of the messages that a connection receives. -/
def transcript (rpc : Rpc Id) (editor : Editor) : List Json → List (List Json)
  | [] => []
  | message :: messages =>
    (editor.receive rpc message).sent ::
      transcript rpc (editor.receive rpc message).editor messages

/-- A message ends the connection: the library refuses it, or it is the request to leave. -/
def Rpc.Ends (rpc : Rpc Id) (message : Json) : Prop :=
  rpc.receive? message = none ∨ rpc.Takes message ∧ Message.hasMethod message "exit" = true

/-- Messages and what is sent for each of them, in the order of arrival. Once one of them ended the
connection, nothing is sent any more. -/
inductive Conversation (rpc : Rpc Id) : List Json → List (List Json) → Prop where
  | nil : Conversation rpc [] []
  | next {message : Json} {messages : List Json} {sent : List Json} {rest : List (List Json)}
      (hserved : Served rpc message sent) (hgoes : ¬ rpc.Ends message)
      (hrest : Conversation rpc messages rest) :
      Conversation rpc (message :: messages) (sent :: rest)
  | last {message : Json} {messages : List Json} {sent : List Json}
      (hserved : Served rpc message sent) (hends : rpc.Ends message) :
      Conversation rpc (message :: messages) (sent :: messages.map fun _ => [])

theorem transcript_of_closed (h : editor.closed = true) (messages : List Json) :
    transcript rpc editor messages = messages.map fun _ => [] := by
  induction messages with
  | nil => rfl
  | cons message messages ih =>
    rw [transcript, receive_of_closed h, ih]
    rfl

/-- **One message is served**, and the connection is open behind it unless the message ended
it. -/
theorem served_receive (lawful : rpc.Lawful) (hopen : editor.closed = false) (message : Json) :
    Served rpc message (editor.receive rpc message).sent ∧
      ((editor.receive rpc message).editor.closed = true ↔ rpc.Ends message) := by
  cases hreceived : rpc.receive? message with
  | none =>
    have hnot : ¬ rpc.Takes message := by simp [Rpc.Takes, hreceived]
    rw [receive_refused hopen hreceived]
    exact ⟨served_of_not_takes lawful hnot, iff_of_true rfl (.inl hreceived)⟩
  | some received =>
    cases received with
    | reply =>
      have hnot : ¬ rpc.Takes message := by simp [Rpc.Takes, hreceived]
      rw [receive_reply hopen hreceived]
      refine ⟨served_of_not_takes lawful hnot, ?_⟩
      simp [Rpc.Ends, hreceived, hnot, hopen]
    | request request =>
      have htakes : rpc.Takes message := ⟨request, hreceived⟩
      obtain ⟨heditor, hsent⟩ := receive_request hopen hreceived
      rw [heditor, hsent]
      refine ⟨(editor.sends request).served lawful hreceived, ?_⟩
      simp only [Rpc.Ends, hreceived, reduceCtorEq, htakes, true_and, false_or,
        (lawful.conveys _ _ hreceived).hasMethod]
      by_cases hexit : request.method = "exit"
      · exact iff_of_true (closed_of_exit hexit) hexit
      · rw [closed_handle hexit, hopen]
        exact iff_of_false Bool.false_ne_true hexit

/-- **Every message gets what it is owed**, in the order of arrival, as long as the connection is
open. -/
theorem messages_served (lawful : rpc.Lawful) (mode : Mode) (documents : List Document)
    (messages : List Json) :
    Conversation rpc messages (transcript rpc { mode, documents } messages) := by
  have hopen : Editor.closed { mode, documents } = false := rfl
  generalize ({ mode, documents } : Editor) = editor at hopen ⊢
  induction messages generalizing editor with
  | nil => exact .nil
  | cons message messages ih =>
    obtain ⟨hserved, hends⟩ := served_receive lawful hopen message
    rw [transcript]
    cases hclosed : (editor.receive rpc message).editor.closed with
    | true =>
      rw [transcript_of_closed hclosed]
      exact .last hserved (hends.1 hclosed)
    | false => exact .next hserved (fun h => by simp [hends.2 h] at hclosed) (ih _ hclosed)

/-- Requests without parameters, with wrong ones, about a document that is not open and with a
method that the server does not know, with ids of both kinds; notifications with and without an
effect; a reply; and an id of the wrong kind, which ends the connection. -/
def mixedMessages : List Json :=
  let request (id : Json) (method : String) (params : List (String × Json)) : Json :=
    Json.record [("id", id), ("method", .string method), ("params", Json.record params)]
  let notify (method : String) (params : Json) : Json :=
    Json.record [("method", .string method), ("params", params)]
  let target (uri : String) : String × Json :=
    ("textDocument", Json.record [("uri", .string uri), ("text", .string "A WORD B")])
  [Json.record [("id", .int (-1)), ("method", .string "initialize")],
    request (.string "a") "textDocument/hover" [("position", .bool true)],
    request (.nat 1) "textDocument/diagnostic" [target "b"],
    request (.string "a") "textDocument/rename" [],
    notify "textDocument/rename" .null,
    notify "textDocument/didOpen" (Json.record [target "b"]),
    notify "textDocument/didOpen" (.bool true),
    request (.nat 1) "textDocument/didOpen" [("textDocument", .bool true)],
    request (.nat 1) "textDocument/didChange" [target "b", ("contentChanges", .array [])],
    Json.record [("id", .nat 1), ("result", .null)],
    notify "shutdown" .null,
    request (.bool true) "shutdown" [],
    request (.nat 1) "shutdown" []]

theorem messages_served_mixed :
    Conversation .standard mixedMessages (transcript .standard { mode := .sic } mixedMessages) ∧
      ((transcript .standard { mode := .sic } mixedMessages).map fun sent =>
        ((sent.filter isResponse).length, (sent.filter isPublication).length)) =
          [(1, 0), (1, 0), (1, 0), (1, 0), (0, 0), (0, 1), (0, 0), (1, 0), (0, 0), (0, 0),
            (1, 0), (0, 0), (0, 0)] :=
  ⟨messages_served Rpc.standard_lawful .sic [] mixedMessages, by decide +kernel⟩

/-- A request with a negative id is answered once, and the answer names another id. A request whose
id is no whole number is not answered. -/
theorem negative_id_not_echoed :
    let negative := Json.record [("id", .int (-1)), ("method", .string "shutdown")]
    let fraction := Json.record [("id", .number "1.5"), ("method", .string "shutdown")]
    (∃ response, transcript .standard { mode := .sic } [negative] = [[response]] ∧
      response.member? "id" = some (.nat 18446744073709551615) ∧
      response.member? "id" ≠ negative.member? "id") ∧
    transcript .standard { mode := .sic } [fraction] = [[]] := by
  refine ⟨⟨_, rfl, rfl, ?_⟩, rfl⟩
  intro h
  injection h with h
  injection h with h
  exact absurd h (by decide)

end SicXe.Editor
