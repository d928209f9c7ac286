import SicXe.Text.Basic

/-!
# Byte streams

A stream of bytes that is received in blocks. How much of it is received at a time shows only in
where a portion ends: a portion never reaches past the bytes of one block.
-/

namespace SicXe

/-- A stream of bytes. -/
structure ByteStream where
  /-- The bytes that are not used yet. -/
  bytes : Text
  /-- How many of them are received already, at most a block. -/
  received : Nat := 0
  deriving DecidableEq, Repr

namespace ByteStream

/-- The bytes of a block. -/
def blockSize : Nat := 4096

/-- The stream behind its first `count` bytes, when these are looked through for the last of them.
If they are not all received, blocks are received that begin with the first of them. -/
def pass (stream : ByteStream) (count : Nat) : ByteStream :=
  let rest := stream.bytes.drop count
  if count ≤ stream.received then { bytes := rest, received := stream.received - count }
  else
    let used := (count - 1) % blockSize + 1
    { bytes := rest, received := (rest.take (blockSize - used)).length }

/-- The stream with a block received. -/
def fill (stream : ByteStream) : ByteStream :=
  { stream with received := (stream.bytes.take blockSize).length }

/-- The number of bytes in the next portion of at most `limit` bytes, and the stream behind it. A
portion is taken from what is received; if that is used up, from the next block, or from the stream
itself if a whole block fits into it. -/
def portion (stream : ByteStream) (limit : Nat) : Nat × ByteStream :=
  if stream.received = 0 ∧ blockSize ≤ limit then
    let count := (stream.bytes.take limit).length
    (count, { bytes := stream.bytes.drop count })
  else
    let stream := if stream.received = 0 then stream.fill else stream
    let count := min limit stream.received
    (count, { bytes := stream.bytes.drop count, received := stream.received - count })

end ByteStream

end SicXe
