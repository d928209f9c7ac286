import SicXe.Proofs.MessageFields

/-!
# What the server needs of its library

The server does not read or write messages itself. `Rpc.Lawful` says what it needs of the library
that does, in terms of the messages alone:

* A request is accepted (`isRequest`) and conveyed as it is.
* A reply has a result, a refusal an error, and a notification a method and parameters.
* An answer names the request (`Echoes`). A text comes back as it was, and so does a whole number
  that is not negative; a negative one comes back as if it had 64 bits and no sign.

`Rpc.standard_lawful` shows that the library the server is run with is such a library.
-/

namespace SicXe.Editor

open Json (Checks Tracks children spares_part spares_any)

variable {Id : Type}

/-! ## Requests -/

namespace Message

/-- The id of a message that wants an answer. -/
def id? (message : Json) : Option Json :=
  match message.member? "id" with
  | none | some .null => none
  | some id => some id

/-- Whether an id is a text or a whole number of 64 bits. -/
def isId : Json → Bool
  | .string _ => true
  | .number literal => (Json.wholeNumber? literal).isSome
  | _ => false

/-- Whether a message is a request: it has a method, neither a result nor an error, and an id only
of the right kind. The names count in any case. -/
def isRequest (message : Json) : Bool :=
  (method? message).isSome &&
    (children (.member "method") message).all (fun method => (Json.text? method).isSome) &&
    (children (.member "result") message).isEmpty &&
    (children (.member "error") message).isEmpty && (id? message).all isId

end Message

/-- Whether a message is an answer: it has a result or an error. -/
def isResponse (message : Json) : Bool :=
  (message.member? "result").isSome || (message.member? "error").isSome

/-- Whether a message publishes diagnostics. -/
def isPublication (message : Json) : Bool :=
  Message.hasMethod message "textDocument/publishDiagnostics"

/-! ## Laws -/

/-- The id that an answer names, for the id of a request. -/
inductive Echoes : Json → Json → Prop where
  | text (t : Text) : Echoes (.string t) (.string t)
  | natural {literal : Text} {n : Nat} (h : Json.wholeNumber? literal = some (n : Int)) :
      Echoes (.number literal) (.nat n)
  | negative {literal : Text} {n : Nat} (hpos : 0 < n)
      (h : Json.wholeNumber? literal = some (-n : Int)) :
      Echoes (.number literal) (.nat (2 ^ 64 - n))

/-- What the server needs of a library. -/
structure Rpc.Lawful (rpc : Rpc Id) : Prop where
  /-- A request is handed over. -/
  accepts : ∀ message, Message.isRequest message = true →
    ∃ request, rpc.receive? message = some (.request request)
  /-- What is handed over has the method and the parameters of the message. -/
  conveys : ∀ message request, rpc.receive? message = some (.request request) →
    Conveys message request
  /-- It wants an answer if the message has an id. -/
  notifies : ∀ message request, rpc.receive? message = some (.request request) →
    (request.notifies = true ↔ Message.id? message = none)
  /-- A reply has the result that is given. -/
  reply : ∀ id result, (rpc.send (.reply id result)).member? "result" = some result ∧
    (rpc.send (.reply id result)).member? "error" = none ∧
    (rpc.send (.reply id result)).member? "method" = none
  /-- A refusal has an error instead. -/
  refuse : ∀ id refusal, (rpc.send (.refuse id refusal)).member? "result" = none ∧
    ((rpc.send (.refuse id refusal)).member? "error").isSome = true ∧
    (rpc.send (.refuse id refusal)).member? "method" = none
  /-- A notification has the method and the parameters that are given. -/
  notify : ∀ method params, (rpc.send (.notify method params)).member? "result" = none ∧
    (rpc.send (.notify method params)).member? "error" = none ∧
    (rpc.send (.notify method params)).member? "method" = some (.string method) ∧
    (rpc.send (.notify method params)).member? "params" = some params
  /-- An answer names the message that it answers. -/
  echoes : ∀ message request id, rpc.receive? message = some (.request request) →
    Message.id? message = some id → ∀ answer, IsAnswer request answer →
      ∃ echo, (rpc.send answer).member? "id" = some echo ∧ Echoes id echo

/-- The library hands a message over as a request. -/
def Rpc.Takes (rpc : Rpc Id) (message : Json) : Prop :=
  ∃ request, rpc.receive? message = some (.request request)

namespace Rpc.Lawful

variable {rpc : Rpc Id} {request : Request Id} {answer : Outgoing Id}

theorem isResponse_of_isAnswer (lawful : rpc.Lawful) (h : IsAnswer request answer) :
    isResponse (rpc.send answer) = true := by
  cases answer with
  | reply id result => simp [isResponse, (lawful.reply id result).1]
  | refuse id refusal => simp [isResponse, (lawful.refuse id refusal).2.1]
  | notify method params => cases h

theorem isPublication_of_isAnswer (lawful : rpc.Lawful) (h : IsAnswer request answer) :
    isPublication (rpc.send answer) = false := by
  have hnone (hmethod : (rpc.send answer).member? "method" = none) :
      isPublication (rpc.send answer) = false := by
    rw [isPublication, Message.hasMethod, Message.method?, hmethod]
    rfl
  cases answer with
  | reply id result => exact hnone (lawful.reply id result).2.2
  | refuse id refusal => exact hnone (lawful.refuse id refusal).2.2
  | notify method params => cases h

/-- A notification is no answer, and its name tells whether it publishes diagnostics. -/
theorem isResponse_notify (lawful : rpc.Lawful) (method : String) (params : Json) :
    isResponse (rpc.send (.notify method params)) = false := by
  simp [isResponse, (lawful.notify method params).1, (lawful.notify method params).2.1]

theorem isPublication_publication (lawful : rpc.Lawful) (document : Document)
    (diagnostics : List Diagnostic) :
    isPublication (rpc.send (publication document diagnostics)) = true := by
  unfold publication isPublication Message.hasMethod Message.method?
  rw [(lawful.notify _ _).2.2.1]
  rfl

theorem reach?_reply (lawful : rpc.Lawful) (id : Id) (result : Json) (names : List String) :
    (rpc.send (.reply id result)).reach? ("result" :: names) = result.reach? names := by
  rw [Json.reach?, (lawful.reply id result).1, Option.bind_some]

theorem reach?_notify (lawful : rpc.Lawful) (method : String) (params : Json)
    (names : List String) :
    (rpc.send (.notify method params)).reach? ("params" :: names) = params.reach? names := by
  rw [Json.reach?, (lawful.notify method params).2.2.2, Option.bind_some]

end Rpc.Lawful

/-! ## The standard library -/

theorem wholeNumber?_bounds {literal : Text} {n : Int} (h : Json.wholeNumber? literal = some n) :
    -2 ^ 63 ≤ n ∧ n < 2 ^ 63 := by
  simp only [Json.wholeNumber?, Option.ite_none_right_eq_some, Option.some.injEq] at h
  obtain ⟨-, ⟨hlow, hhigh⟩, rfl⟩ := h
  exact ⟨hlow, hhigh⟩

theorem toNat_toUInt64_ofInt (n : Int) :
    (Int64.ofInt n).toUInt64.toNat = (n % 2 ^ 64).toNat := by
  show (Int64.ofInt n).toBitVec.toNat = _
  rw [Int64.toBitVec_ofInt, BitVec.toNat_ofInt]
  rfl

/-- An id is named by its answers. -/
theorem echoes_requestId {json : Json} {id : RequestId}
    (h : requestId? (some json) = some (some id)) : Echoes json id.toJson := by
  cases json with
  | string t =>
    cases h
    exact .text t
  | number literal =>
    obtain ⟨n, hn, hid⟩ := Option.map_eq_some_iff.1 h
    cases hid
    obtain ⟨hlow, hhigh⟩ := wholeNumber?_bounds hn
    rw [RequestId.toJson, toNat_toUInt64_ofInt]
    by_cases hsign : 0 ≤ n
    · obtain ⟨k, rfl⟩ := Int.eq_ofNat_of_zero_le hsign
      have hk : ((k : Int) % 2 ^ 64).toNat = k := by omega
      rw [hk]
      exact .natural hn
    · obtain ⟨k, hk⟩ := Int.eq_ofNat_of_zero_le (Int.neg_nonneg.2 (Int.le_of_not_le hsign))
      obtain rfl : n = -(k : Int) := by omega
      have hk : (-(k : Int) % 2 ^ 64).toNat = 2 ^ 64 - k := by omega
      rw [hk]
      exact .negative (by omega) hn
  | _ => cases h

/-- An id of the right kind is read, and whether there is one. -/
theorem requestId?_member {message : Json} {id : Option RequestId}
    (h : requestId? (message.member? "id") = some id) :
    Message.id? message = none ∧ id = none ∨
      ∃ json named, Message.id? message = some json ∧ id = some named ∧
        requestId? (some json) = some (some named) := by
  unfold Message.id?
  cases hmember : message.member? "id" with
  | none =>
    rw [hmember] at h
    cases h
    exact .inl ⟨rfl, rfl⟩
  | some json =>
    rw [hmember] at h
    cases json with
    | null =>
      cases h
      exact .inl ⟨rfl, rfl⟩
    | string t =>
      cases h
      exact .inr ⟨_, _, rfl, rfl, rfl⟩
    | number literal =>
      obtain ⟨n, hn, hid⟩ := Option.map_eq_some_iff.1 h
      cases hid
      exact .inr ⟨_, _, rfl, rfl, h⟩
    | _ => cases h

theorem isSome_requestId? {message : Json} (h : (Message.id? message).all Message.isId = true) :
    ∃ id, requestId? (message.member? "id") = some id := by
  unfold Message.id? at h
  cases hmember : message.member? "id" with
  | none => exact ⟨none, rfl⟩
  | some json =>
    rw [hmember] at h
    cases json with
    | null => exact ⟨none, rfl⟩
    | string t => exact ⟨_, rfl⟩
    | number literal =>
      obtain ⟨n, hn⟩ := Option.isSome_iff_exists.1 h
      exact ⟨some (.number (Int64.ofInt n).toUInt64), by rw [requestId?, hn]; rfl⟩
    | _ => cases h

/-- What is read of a request. -/
theorem ofJson?_eq_some {message : Json} {request : Request RequestId}
    (h : Request.ofJson? message = some request) :
    ∃ id, requestId? (message.member? "id") = some id ∧
      message.member? "method" = some (.string request.method) ∧
      request.id = id.getD (.number 0) ∧ request.notifies = id.isNone ∧
      request.params = (message.member? "params").map Json.canonical := by
  obtain ⟨json, hmethod, h⟩ := Option.bind_eq_some_iff.1 h
  cases json with
  | string method =>
    obtain ⟨id, hid, hrequest⟩ := Option.bind_eq_some_iff.1 h
    cases hrequest
    exact ⟨id, hid, hmethod, rfl, rfl, rfl⟩
  | _ => cases h

/-- Every object has marks if its methods are texts. -/
theorem checks_marks :
    Checks Marks.decode (.record [("method", .text), ("result", []), ("error", [])]) :=
  Checks.record (by decide +kernel)
    (.cons ((Json.checks_string.option (by decide) []).part _ _)
      (.cons (Json.checks_any _) (.cons (Json.checks_any _) .nil)))

theorem tracks_method : Tracks Marks.decode Marks.method [.member "method"]
    fun held json => (Json.decodeOption [] Json.decodeString held json).getD held :=
  .record (by decide +kernel) List.mem_cons_self
    ((Json.tracks_self _).part (fun _ => rfl) fun _ _ => rfl)
    (.self rfl (.other (spares_any fun _ _ => rfl) (.other (spares_any fun _ _ => rfl) .nil)))

theorem tracks_result : Tracks Marks.decode Marks.result [.member "result"] fun _ _ => true :=
  .record (by decide +kernel) (List.mem_cons_of_mem _ List.mem_cons_self)
    (Json.tracks_any fun _ _ => rfl)
    (.other (spares_part fun _ _ => rfl) (.self rfl (.other (spares_any fun _ _ => rfl) .nil)))

theorem tracks_error :
    Tracks Marks.decode Marks.error [.member "error"] fun _ json => !(json matches .null) :=
  .record (by decide +kernel)
    (List.mem_cons_of_mem _ (List.mem_cons_of_mem _ List.mem_cons_self))
    (Json.tracks_any fun _ _ => rfl)
    (.other (spares_part fun _ _ => rfl) (.other (spares_any fun _ _ => rfl) (.self rfl .nil)))

/-- The last of several texts is one. -/
theorem isSome_foldl_method {values : List Json} {held : Option Text}
    (htext : ∀ value ∈ values, (Json.text? value).isSome = true)
    (h : held.isSome = true ∨ values ≠ []) :
    (values.foldl (fun held json =>
      (Json.decodeOption [] Json.decodeString held json).getD held) held).isSome = true := by
  induction values generalizing held with
  | nil => exact h.resolve_right fun hne => hne rfl
  | cons value values ih =>
    rw [List.foldl_cons]
    refine ih (fun value hvalue => htext value (List.mem_cons_of_mem _ hvalue)) (.inl ?_)
    have hvalue := htext value List.mem_cons_self
    cases value with
    | string t => rfl
    | _ => cases hvalue

/-- A request is told from a reply. -/
theorem marks_of_isRequest {message : Json} (h : Message.isRequest message = true) :
    ∃ marks, Marks.decode {} message = some marks ∧ marks.method.isSome = true ∧
      marks.result = false ∧ marks.error = false := by
  simp only [Message.isRequest, Bool.and_eq_true, List.all_eq_true, List.isEmpty_iff] at h
  obtain ⟨⟨⟨⟨hmethod, hmethods⟩, hresult⟩, herror⟩, -⟩ := h
  obtain ⟨method, hmethod⟩ := Option.isSome_iff_exists.1 hmethod
  obtain ⟨value, hmember, -⟩ := Option.bind_eq_some_iff.1 hmethod
  have hvalue := Json.mem_children_of_member? hmember
  have hfits : Json.Fits (.record [("method", .text), ("result", []), ("error", [])]) message := by
    refine Json.fits_record.2 ⟨?_, ?_⟩
    · cases message with
      | object members => rfl
      | _ => cases hmember
    · simp only [List.mem_cons, List.not_mem_nil, or_false]
      rintro field (rfl | rfl | rfl) child hchild
      · have htext := hmethods child hchild
        cases child with
        | string t => exact Json.fits_kind.2 rfl
        | _ => cases htext
      · rw [hresult] at hchild
        cases hchild
      · rw [herror] at hchild
        cases hchild
  obtain ⟨marks, hmarks⟩ := Option.isSome_iff_exists.1 ((checks_marks {} message).2 hfits)
  refine ⟨marks, hmarks, ?_, ?_, ?_⟩
  · rw [tracks_method _ _ _ hmarks, Json.valuesAt_step]
    exact isSome_foldl_method hmethods (.inr (List.ne_nil_of_mem hvalue))
  · rw [tracks_result _ _ _ hmarks, Json.valuesAt_step, hresult]
    rfl
  · rw [tracks_error _ _ _ hmarks, Json.valuesAt_step, herror]
    rfl

theorem request_of_receive? {message : Json} {request : Request RequestId}
    (h : Rpc.standard.receive? message = some (.request request)) :
    Request.ofJson? message = some request := by
  obtain ⟨marks, -, h⟩ := Option.bind_eq_some_iff.1 h
  split at h
  · obtain ⟨other, hother, heq⟩ := Option.map_eq_some_iff.1 h
    cases heq
    exact hother
  · split at h <;> cases h
  · cases h

/-- **The library that the server is run with** is what it needs. -/
theorem Rpc.standard_lawful : Rpc.standard.Lawful where
  accepts message hrequest := by
    obtain ⟨marks, hmarks, hmethod, hresult, herror⟩ := marks_of_isRequest hrequest
    simp only [Message.isRequest, Bool.and_eq_true] at hrequest
    obtain ⟨⟨⟨⟨hname, -⟩, -⟩, -⟩, hid⟩ := hrequest
    obtain ⟨id, hid⟩ := isSome_requestId? hid
    obtain ⟨method, hname⟩ := Option.isSome_iff_exists.1 hname
    obtain ⟨value, hmember, hvalue⟩ := Option.bind_eq_some_iff.1 hname
    cases value with
    | string t =>
      simp [Rpc.standard, Incoming.ofJson?, hmarks, hmethod, hresult, herror, Request.ofJson?,
        hmember, hid]
    | _ => cases hvalue
  conveys message request h := by
    obtain ⟨id, -, hmethod, -, -, hparams⟩ := ofJson?_eq_some (request_of_receive? h)
    exact ⟨hmethod, hparams⟩
  notifies message request h := by
    obtain ⟨id, hid, -, -, hnotifies, -⟩ := ofJson?_eq_some (request_of_receive? h)
    rw [hnotifies]
    rcases requestId?_member hid with ⟨hnone, rfl⟩ | ⟨json, named, hsome, rfl, -⟩
    · simp [hnone]
    · simp [hsome]
  reply id result := ⟨rfl, rfl, rfl⟩
  refuse id refusal := ⟨rfl, rfl, rfl⟩
  notify method params := ⟨rfl, rfl, rfl, rfl⟩
  echoes message request json h hjson answer hanswer := by
    obtain ⟨id, hid, -, hrequest, -, -⟩ := ofJson?_eq_some (request_of_receive? h)
    rcases requestId?_member hid with ⟨hnone, -⟩ | ⟨json', named, hsome, rfl, hnamed⟩
    · rw [hjson] at hnone
      cases hnone
    rw [hjson] at hsome
    cases hsome
    refine ⟨named.toJson, ?_, echoes_requestId hnamed⟩
    cases answer with
    | reply other result =>
      rw [show other = named from hanswer.trans hrequest]
      rfl
    | refuse other refusal =>
      rw [show other = named from hanswer.trans hrequest]
      rfl
    | notify method params => cases hanswer

end SicXe.Editor
