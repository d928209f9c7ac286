import SicXe.Json.Decode
import SicXe.Json.Reader
import SicXe.Report.ObjectProgram
import SicXe.Session
import SicXe.Text.Log

/-!
# The assemble service

A client sends a source as a JSON message and receives the listings, the object program and the
messages of its assembly as another. Every message is answered on its own.
-/

namespace SicXe.Service

/-- A message of a client. -/
structure Request where
  kind : Text := []
  mode : Text := []
  source : Text := []

/-- The message that JSON stands for. -/
def Request.decode : Json.Decoder Request :=
  Json.decodeRecord
    [⟨"type", fun request json =>
        (Json.decodeString request.kind json).map ({ request with kind := · })⟩,
     ⟨"mode", fun request json =>
        (Json.decodeString request.mode json).map ({ request with mode := · })⟩,
     ⟨"source", fun request json =>
        (Json.decodeString request.source json).map ({ request with source := · })⟩]

/-- The message in a text. -/
def Request.read? (t : Text) : Option Request := (Json.read? t).bind (decode {})

/-- The answer to a message. -/
structure Response where
  kind : Text
  text : Text := []
  errorFree : Bool := false
  listing : Text := []
  objectListing : Text := []
  objectProgram : Text := []
  errors : List Text := []
  deriving DecidableEq, Repr

/-- The answer that a message cannot be served. -/
def Response.error (text : Text) : Response := { kind := "error", text }

/-- The answer that holds an assembly with its listings. -/
def Response.result (run : Run) : Response :=
  let report := run.assembly.report
  { kind := "result"
    errorFree := run.assembly.program.errorFree
    listing := run.listing
    objectListing := run.objectListing.getD []
    objectProgram := report.objectProgram.toOption.getD []
    errors := report.messages }

/-- A member with a text, left out when the text is empty. -/
def textMember (name : String) (t : Text) : List (String × Json) :=
  if t = [] then [] else [(name, .string t)]

/-- An answer as JSON. -/
def Response.toJson (response : Response) : Json :=
  Json.record
    ([("type", .string response.kind)] ++ textMember "text" response.text ++
      [("errorFree", .bool response.errorFree)] ++ textMember "listing" response.listing ++
      textMember "objectListing" response.objectListing ++
      textMember "objectProgram" response.objectProgram ++
      if response.errors = [] then []
      else [("errors", .array (response.errors.map Json.string))])

/-- An answer, and what the service logs about it. -/
structure Answer where
  response : Response
  log : Option Text := none

/-- The machine that a message asks for; no name stands for the service's own. -/
def modeOf (mode : Mode) (name : Text) : Option Mode :=
  if name = [] then some mode else Mode.ofName? name

/-- What the service logs about an assembly. -/
def assembled (assembly : Assembly) : Text :=
  Text.ofString "assembled " ++ Numeral.decimal assembly.program.records.length ++
    Text.ofString " lines (" ++ assembly.mode.name ++ Text.ofString "): " ++
    Numeral.decimal assembly.faults.length ++ Text.ofString " errors"

/-- Assembles the source of a message. -/
def assemble (mode : Mode) (request : Request) : Answer :=
  match modeOf mode request.mode with
  | none => { response := .error (Text.ofString "unknown mode: " ++ request.mode) }
  | some mode =>
    let (session, failure) := Session.assemble { text := request.source, mode }
    match failure, session.last with
    | none, some run => { response := .result run, log := some (assembled run.assembly) }
    | failure, _ => { response := .error (failure.elim [] SourceError.message) }

/-- Answers a message. -/
def respond (mode : Mode) (message : Text) : Answer :=
  match Request.read? message with
  | none =>
    { response := .error "malformed message", log := some "json: malformed message" }
  | some request =>
    if request.kind = "assemble" then assemble mode request
    else
      let text := Text.ofString "unknown message type: " ++ request.kind
      { response := .error text, log := some text }

end SicXe.Service
