import SicXe.Command.Console
import SicXe.Editor.Frame
import SicXe.Editor.Server

/-!
# The commands that serve

One command serves an editor, over its input and output or at an address; the other serves the web
at an address. An address is a host and a service with a colon between them; a host that
holds colons stands in brackets, and a service is a number or a name.
-/

namespace SicXe

/-! ## Addresses -/

/-- What is wrong with an address. -/
inductive AddressFlaw where
  | missingService
  | tooManyColons
  | missingBracket
  | unexpectedOpening
  | unexpectedClosing
  | invalidService (service : Text)
  deriving DecidableEq, Repr

namespace AddressFlaw

/-- The wording of a flaw of the given address. -/
def message (address : Text) (flaw : AddressFlaw) : Text :=
  let subject : Text :=
    match flaw with
    | .invalidService service => service
    | _ => address
  let reason : Text :=
    match flaw with
    | .missingService => "missing port in address"
    | .tooManyColons => "too many colons in address"
    | .missingBracket => "missing ']' in address"
    | .unexpectedOpening => "unexpected '[' in address"
    | .unexpectedClosing => "unexpected ']' in address"
    | .invalidService _ => "invalid port"
  Text.ofString "listen tcp: address " ++ subject ++ Text.ofString ": " ++ reason

end AddressFlaw

namespace Address

/-- The colon, which stands before a service. -/
def colon : UInt8 := 0x3A

/-- The bracket before a host. -/
def opening : UInt8 := 0x5B

/-- The bracket behind a host. -/
def closing : UInt8 := 0x5D

/-- The service of an address whose host stands in brackets. -/
def bracketedService (address : Text) : Except AddressFlaw Text :=
  let host := address.takeWhile (· != closing)
  match address.drop host.length with
  | [] => .error .missingBracket
  | _ :: [] => .error .missingService
  | _ :: b :: service =>
    if b ≠ colon then .error .missingService
    else if colon ∈ service then .error .tooManyColons
    else if opening ∈ host.drop 1 ∨ opening ∈ service then .error .unexpectedOpening
    else if closing ∈ service then .error .unexpectedClosing
    else .ok service

/-- The service of an address. An empty address has an empty service. -/
def service (address : Text) : Except AddressFlaw Text :=
  if address = [] then .ok []
  else if colon ∉ address then .error .missingService
  else if address.head? = some opening then bracketedService address
  else if 1 < address.count colon then .error .tooManyColons
  else if opening ∈ address then .error .unexpectedOpening
  else if closing ∈ address then .error .unexpectedClosing
  else .ok ((address.dropWhile (· != colon)).drop 1)

/-- The greatest number of a service. -/
def maxService : Nat := 65535

/-- Whether a service is a number that is too large. -/
def isInvalidService (service : Text) : Bool :=
  match Numeral.scan 10 service with
  | .ok n => maxService < n
  | .error .tooLarge => true
  | .error .notDigit => false

/-- Why nothing can listen at an address. Connections are not accepted here, so there is a reason
for every address. -/
def refusal (address : Text) : Text :=
  match service address with
  | .error flaw => flaw.message address
  | .ok service =>
    if isInvalidService service then (AddressFlaw.invalidService service).message address
    else Text.ofString "listen tcp " ++ address ++ Text.ofString ": not supported"

end Address

/-! ## Serving an editor -/

/-- What an editor's service writes: frames, and log entries behind a label. -/
structure Conversation where
  output : Text := []
  log : Text := []
  deriving DecidableEq, Repr

namespace Editor

/-- What is written for one step. -/
def Step.written (label : Text) (step : Step) : Conversation :=
  { output := step.sent.flatMap fun message => Frame.render message.render
    log := step.log.elim [] (Text.logEntry label) }

/-- What is written for messages, received one after the other. -/
def converse (label : Text) : Editor → List Json → Conversation
  | _, [] => {}
  | editor, message :: messages =>
    let step := editor.receive .standard message
    let first := step.written label
    let rest := converse label step.editor messages
    { output := first.output ++ rest.output, log := first.log ++ rest.log }

end Editor

namespace Listen

/-- The name of the editor's service in its messages. -/
def editorName : Text := "sicasm lsp"

/-- The name of the web service in its messages. -/
def webName : Text := "sicasm serve"

/-- Serves an editor at an address, or over input and output if the address is empty. -/
def editor (console : Console) (mode : Mode) (address : Text) : Script :=
  let label := console.label editorName
  if address = [] then
    .readInput fun input =>
      let { output, log } := Editor.converse label { mode } (Frame.messages input)
      .log log (.print output (.exit 0))
  else Console.fail label [Address.refusal address]

/-- Serves the web at an address. -/
def web (console : Console) (address : Text) : Script :=
  Console.fail (console.label webName)
    [Text.ofString "assemble service at http://" ++ address, Address.refusal address]

end Listen

end SicXe
