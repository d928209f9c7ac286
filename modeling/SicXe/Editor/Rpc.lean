import SicXe.Json.Decode

/-!
# The protocol

An editor and its server send each other JSON objects. A request has a method and parameters; with
an id it wants a reply, and without one it is a notification. A reply has a result or an error. The
server leaves it to a library to take such objects apart and to put them together: `Rpc` is what it
needs of one, and `Rpc.standard` the library that it is run with.
-/

namespace SicXe.Editor

/-- A request. -/
structure Request (Id : Type) where
  /-- What a reply names. -/
  id : Id
  /-- Whether the request wants no reply. -/
  notifies : Bool
  method : Text
  /-- The parameters, if there are any; they may be null. -/
  params : Option Json

/-- What arrives. -/
inductive Incoming (Id : Type) where
  | request (request : Request Id)
  /-- A reply, though nothing was asked. -/
  | reply

/-- Why a request failed. -/
structure Refusal where
  code : Int
  message : Text := []
  data : Option Json := none

/-- What is sent: the reply to a request, the reply that it failed, or a notification. -/
inductive Outgoing (Id : Type) where
  | reply (id : Id) (result : Json)
  | refuse (id : Id) (refusal : Refusal)
  | notify (method : String) (params : Json)

/-- A library for the protocol. -/
structure Rpc (Id : Type) where
  /-- What JSON stands for, if it is a message. -/
  receive? : Json → Option (Incoming Id)
  /-- The message as JSON. -/
  send : Outgoing Id → Json

/-! ## The standard library -/

/-- What identifies a request. -/
inductive RequestId where
  | number (n : UInt64)
  | text (t : Text)
  deriving DecidableEq, Repr

/-- An id as JSON. -/
def RequestId.toJson : RequestId → Json
  | .number n => .nat n.toNat
  | .text t => .string t

/-- The marks that tell requests from replies. -/
structure Marks where
  method : Option Text := none
  result : Bool := false
  error : Bool := false

/-- Which marks an object has. -/
def Marks.decode : Json.Decoder Marks :=
  Json.decodeRecord
    [⟨"method", fun marks json =>
        (Json.decodeOption [] Json.decodeString marks.method json).map fun method =>
          { marks with method }⟩,
     ⟨"result", fun marks _ => some { marks with result := true }⟩,
     ⟨"error", fun marks json => some { marks with error := !(json matches .null) }⟩]

/-- The id of a request: absent, a whole number or a text. A negative number counts modulo
`2 ^ 64`. -/
def requestId? : Option Json → Option (Option RequestId)
  | none | some .null => some none
  | some (.number literal) =>
    (Json.wholeNumber? literal).map fun n => some (.number (Int64.ofInt n).toUInt64)
  | some (.string s) => some (some (.text s))
  | some _ => none

/-- The request that JSON with a method stands for. A reply to a notification would name the number
zero. -/
def Request.ofJson? (json : Json) : Option (Request RequestId) := do
  let .string method ← json.member? "method" | none
  let id ← requestId? (json.member? "id")
  return {
    id := id.getD (.number 0)
    notifies := id.isNone
    method
    params := (json.member? "params").map Json.canonical }

/-- Whether a literal is a whole number of 64 bits without a sign. -/
def isReplyNumber (literal : Text) : Bool :=
  literal.all (fun b => (Numeral.digit? 10 b).isSome) &&
    literal.foldl (fun n b => n * 10 + (Numeral.digit? 10 b).getD 0) 0 < 0x10000000000000000

/-- The id of a reply: a number that is not negative, or a text. -/
def decodeReplyId : Json.Decoder Unit
  | _, .null | _, .string _ => some ()
  | _, .number literal => if isReplyNumber literal then some () else none
  | _, _ => none

/-- The error of a reply: a code and a message, with anything else. -/
def decodeReplyError : Json.Decoder Unit :=
  Json.decodeRecord
    [⟨"code", fun _ json => (Json.decodeInt 0 json).map fun _ => ()⟩,
     ⟨"message", fun _ json => (Json.decodeString [] json).map fun _ => ()⟩]

/-- Whether JSON with a result or an error is a reply. -/
def isReply (json : Json) : Bool :=
  (Json.decodeRecord [⟨"id", decodeReplyId⟩, ⟨"error", decodeReplyError⟩] () json).isSome

/-- The message that JSON stands for: a request has a method, and a reply a result or an error
instead. -/
def Incoming.ofJson? (json : Json) : Option (Incoming RequestId) := do
  let marks ← Marks.decode {} json
  match marks.method.isSome, marks.result || marks.error with
  | true, false => (Request.ofJson? json).map .request
  | false, true => if isReply json then some .reply else none
  | _, _ => none

/-- A refusal as JSON. -/
def Refusal.toJson (refusal : Refusal) : Json :=
  Json.record ([("code", .int refusal.code), ("message", .string refusal.message)] ++
    refusal.data.toList.map fun data => ("data", data))

/-- A message as JSON. -/
def Outgoing.toJson : Outgoing RequestId → Json
  | .reply id result =>
    Json.record [("id", id.toJson), ("result", result), ("jsonrpc", .string "2.0")]
  | .refuse id refusal =>
    Json.record [("id", id.toJson), ("error", refusal.toJson), ("jsonrpc", .string "2.0")]
  | .notify method params =>
    Json.record [("jsonrpc", .string "2.0"), ("method", .string method), ("params", params)]

/-- The library that the server is run with. -/
def Rpc.standard : Rpc RequestId where
  receive? := Incoming.ofJson?
  send := Outgoing.toJson

end SicXe.Editor
