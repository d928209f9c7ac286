import SicXe.Editor.Hover
import SicXe.Editor.Request
import SicXe.Text.Log

/-!
# The editor's server

The server keeps the documents that the editor has open. Opening and changing a document publishes
its diagnostics; the editor can also ask for them, and for the description of a word. Each message
is handled on its own, in the order of arrival, until the connection is closed.
-/

namespace SicXe

/-- A connection to an editor. -/
structure Editor where
  mode : Mode
  documents : List Editor.Document := []
  closed : Bool := false

namespace Editor

/-! ## Documents -/

/-- The document with the given name. -/
def find? (editor : Editor) (uri : Text) : Option Document :=
  editor.documents.find? (·.uri == uri)

/-- The connection without the document of the given name. -/
def erase (editor : Editor) (uri : Text) : Editor :=
  { editor with documents := editor.documents.filter (·.uri != uri) }

/-- The connection with a document in place of the one with the same name. -/
def insert (editor : Editor) (document : Document) : Editor :=
  { editor with documents := (editor.erase document.uri).documents ++ [document] }

/-! ## Messages to the editor -/

variable {Id : Type}

/-- What the server tells about itself. -/
def capabilities : Json :=
  Json.record
    [("capabilities", Json.record
      [("textDocumentSync", .nat 1),
       ("diagnosticProvider", Json.record
         [("interFileDependencies", .bool false), ("workspaceDiagnostics", .bool false)]),
       ("hoverProvider", .bool true)]),
     ("serverInfo", Json.record [("name", .string serverName)])]

/-- The diagnostics of a document as a message that was not asked for. -/
def publication (document : Document) (diagnostics : List Diagnostic) : Outgoing Id :=
  .notify "textDocument/publishDiagnostics" (Json.record
    [("uri", .string document.uri), ("version", .int document.version),
     ("diagnostics", .array (diagnostics.map Diagnostic.toJson))])

/-- The diagnostics of a document as a reply. -/
def diagnosticReport (diagnostics : List Diagnostic) : Json :=
  Json.record [("kind", .string "full"), ("items", .array (diagnostics.map Diagnostic.toJson))]

/-- The description of a word as a reply. -/
def hoverReport (text : Text) (span : Span) : Json :=
  Json.record
    [("contents", Json.record [("kind", .string "markdown"), ("value", .string text)]),
     ("range", span.toJson)]

/-! ## Methods -/

/-- What handling a request does: the connection after it, and the messages that are sent. -/
structure Effect (Id : Type) where
  editor : Editor
  sent : List (Outgoing Id) := []

/-- A request whose parameters are missing or wrong; a notification gets no reply. -/
def rejectParams (editor : Editor) (request : Request Id) : Effect Id :=
  if request.notifies then { editor }
  else
    { editor
      sent := [.refuse request.id { code := -32602, data := some (.string "invalid parameters") }] }

/-- A method that needs parameters from the given places. -/
def withParams (editor : Editor) (request : Request Id) (places : List (Json.Place Params))
    (use : Params → Effect Id) : Effect Id :=
  match request.params? places with
  | some params => use params
  | none => editor.rejectParams request

/-- Assembles a document, keeps it and publishes its diagnostics. -/
def publish (editor : Editor) (document : Document) : Effect Id :=
  let (document, diagnostics) := document.assemble editor.mode
  { editor := editor.insert document, sent := [publication document diagnostics] }

/-- The editor says hello and may choose the machine. -/
def greet (editor : Editor) (request : Request Id) : Effect Id :=
  editor.withParams request Params.greetPlaces fun params =>
    let mode := (params.modeName.bind Mode.ofName?).getD editor.mode
    { editor := { editor with mode }, sent := [.reply request.id capabilities] }

/-- The editor opened a document. -/
def didOpen (editor : Editor) (request : Request Id) : Effect Id :=
  editor.withParams request Params.openPlaces fun params =>
    let { uri, version, text } := params.target
    editor.publish { uri, version, text }

/-- The editor changed a document. Each change carries the whole text, so the last one counts; no
change at all does nothing. -/
def didChange (editor : Editor) (request : Request Id) : Effect Id :=
  editor.withParams request Params.changePlaces fun params =>
    match params.changes.items.getLast? with
    | none => { editor }
    | some text =>
      let { uri, version, .. } := params.target
      editor.publish { uri, version, text }

/-- The editor closed a document. -/
def didClose (editor : Editor) (request : Request Id) : Effect Id :=
  editor.withParams request Params.documentPlaces fun params =>
    { editor := editor.erase params.target.uri }

/-- The editor asks for the diagnostics of a document. A document that is not open has none. -/
def diagnostic (editor : Editor) (request : Request Id) : Effect Id :=
  editor.withParams request Params.documentPlaces fun params =>
    match editor.find? params.target.uri with
    | none => { editor, sent := [.reply request.id (diagnosticReport [])] }
    | some document =>
      let (document, diagnostics) := document.assemble editor.mode
      { editor := editor.insert document
        sent := [.reply request.id (diagnosticReport diagnostics)] }

/-- The editor asks for the description of a word. -/
def hover (editor : Editor) (request : Request Id) : Effect Id :=
  editor.withParams request Params.hoverPlaces fun params =>
    let found := (editor.find? params.target.uri).bind (·.hover? editor.mode params.place)
    match found with
    | some (text, span) => { editor, sent := [.reply request.id (hoverReport text span)] }
    | none => { editor, sent := [.reply request.id .null] }

/-- A method that the server does not know; a notification gets no reply. -/
def unknownMethod (editor : Editor) (request : Request Id) : Effect Id :=
  if request.notifies then { editor }
  else
    { editor
      sent := [.refuse request.id
        { code := -32601, message := Text.ofString "method not supported: " ++ request.method }] }

/-- Handles a request. -/
def handle (editor : Editor) (request : Request Id) : Effect Id :=
  let method := request.method
  if method = "initialize" then editor.greet request
  else if method = "initialized" then { editor }
  else if method = "textDocument/didOpen" then editor.didOpen request
  else if method = "textDocument/didChange" then editor.didChange request
  else if method = "textDocument/didClose" then editor.didClose request
  else if method = "textDocument/diagnostic" then editor.diagnostic request
  else if method = "textDocument/hover" then editor.hover request
  else if method = "shutdown" then { editor, sent := [.reply request.id .null] }
  else if method = "exit" then { editor := { editor with closed := true } }
  else editor.unknownMethod request

/-! ## The connection -/

/-- What receiving a message does: the connection after it, the messages that are sent, and the log
entry. -/
structure Step where
  editor : Editor
  sent : List Json := []
  log : Option Text := none

/-- Receives a message. A reply is ignored. What is no message closes the connection, and on a
closed connection nothing happens. -/
def receive (rpc : Rpc Id) (editor : Editor) (message : Json) : Step :=
  if editor.closed then { editor }
  else match rpc.receive? message with
    | none => { editor := { editor with closed := true } }
    | some .reply => { editor }
    | some (.request request) =>
      let { editor, sent } := editor.handle request
      { editor
        sent := sent.map rpc.send
        log := some (Text.ofString "received request: " ++ request.method) }

end Editor

end SicXe
