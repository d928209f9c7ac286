import SicXe.Editor.ByteStream
import SicXe.Json.Reader
import SicXe.Numeral.Decode
import SicXe.Text.Blank

/-!
# Frames

Messages follow each other in a stream, each behind header lines that end with carriage return and
line feed. One of them gives the number of bytes of the content; an empty line ends them. A message
is the JSON value at the beginning of the content.

The content is received in portions, into a store that begins with room for 64 bytes. A portion
fills the store at most; one that is full to three quarters is doubled before the next portion. Once
the value is complete no further portion is received: the rest of the last one is dropped, and what
was not received of the content is taken for the next header.
-/

namespace SicXe.Frame

/-- The header line that gives the length of the content, up to the length. -/
def lengthMark : Text := "Content-Length: "

/-- A content with its header. -/
def render (content : Text) : Text :=
  lengthMark ++ Numeral.decimal content.length ++ Text.ofString "\r\n\r\n" ++ content

/-- The end of a header line. -/
def lineEnd : Text := "\r\n"

/-- The first header line of a stream, and what follows it. -/
def headerLine? (stream : ByteStream) : Option (Text × ByteStream) :=
  let line := stream.bytes.takeWhile (· != Text.carriageReturn)
  if lineEnd.isPrefixOf (stream.bytes.drop line.length) then
    some (line, (stream.pass (line.length + 1)).pass 1)
  else none

/-- The length that a header line gives, if it gives one. -/
def lengthOf (line : Text) : Except Numeral.Flaw (Option Nat) :=
  if lengthMark.isPrefixOf line then
    (Numeral.scan 10 (Text.trim (line.drop lengthMark.length))).map some
  else .ok none

/-- The length that header lines give, of several the last, and what follows the empty line. A
header has at most so many lines. -/
def header? (length : Nat) : (fuel : Nat) → ByteStream → Option (Nat × ByteStream)
  | 0, _ => none
  | fuel + 1, stream =>
    match headerLine? stream with
    | none => none
    | some ([], rest) => if length = 0 then none else some (length, rest)
    | some (line, rest) =>
      match lengthOf line with
      | .error _ => none
      | .ok found => header? (found.getD length) fuel rest

/-- The bytes for which the store of a content has room at first. -/
def firstRoom : Nat := 64

/-- The room of a store that holds so many bytes, for the next portion. -/
def nextRoom (room held : Nat) : Nat := if 3 * room / 4 ≤ held then 2 * room else room

/-- The stream behind the portions that complete a value of `value` bytes, at most so many. The
store holds `held` bytes, and `left` bytes of the content are not received. -/
def receiveUpTo (value : Nat) : (fuel room held left : Nat) → ByteStream → ByteStream
  | 0, _, _, _, stream => stream
  | fuel + 1, room, held, left, stream =>
    if value ≤ held then stream
    else
      let room := nextRoom room held
      let (count, stream) := stream.portion (min (room - held) left)
      receiveUpTo value fuel room (held + count) (left - count) stream

/-- The stream behind what is received of a content of the given length, whose value ends after so
many bytes. A portion has at least one byte, so there are no more of them than bytes. -/
def receive (length value : Nat) (stream : ByteStream) : ByteStream :=
  receiveUpTo value value firstRoom 0 length stream

/-- The first message of a stream, and what follows it. The stream may end before the content
does. -/
def next? (stream : ByteStream) : Option (Json × ByteStream) :=
  match header? 0 (stream.bytes.length + 1) stream with
  | none => none
  | some (length, stream) =>
    match Json.lead? (stream.bytes.take length) with
    | none => none
    | some (message, value) => some (message, receive length value stream)

/-- At most so many messages of a stream. -/
def messagesUpTo : (fuel : Nat) → ByteStream → List Json
  | 0, _ => []
  | fuel + 1, stream =>
    match next? stream with
    | none => []
    | some (message, rest) => message :: messagesUpTo fuel rest

/-- The messages of a stream up to the first that is incomplete. Every frame has at least one byte,
so there are no more of them than bytes. -/
def messages (t : Text) : List Json := messagesUpTo t.length { bytes := t }

end SicXe.Frame
