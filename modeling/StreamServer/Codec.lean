/-
The buffer between a byte stream and the words on it. Bytes are fed in any
pieces; a word comes out as soon as its four bytes are there. When the stream
has ended, one to three bytes left over are an error.
-/
import StreamServer.Command
import StreamServer.Error

namespace StreamServer.Codec

/-- Takes the next word, if it is complete. -/
def decode (buffer : List UInt8) : Option Word × List UInt8 :=
  match Word.take? buffer with
  | some (w, rest) => (some w, rest)
  | none => (none, buffer)

/-- Takes the next word of a stream that has ended: `none` when nothing is left over. -/
def decodeEnd (buffer : List UInt8) : Except ProtocolError (Option Word) × List UInt8 :=
  match decode buffer with
  | (some w, rest) => (.ok (some w), rest)
  | (none, []) => (.ok none, [])
  | (none, rest) => (.error (.truncated rest.length), rest)

/-- Appends a command. -/
def encode (buffer : List UInt8) (c : Command) : List UInt8 := buffer ++ c.encode

/-- What is done with a buffer. -/
inductive Step where
  | feed (data : List UInt8)
  | encode (c : Command)
  | decode
  | decodeEnd
deriving DecidableEq, Repr

/-- What comes of it. -/
inductive Reply where
  | done
  | word (w : Option Word)
  | failed (e : ProtocolError)
deriving DecidableEq, Repr

/-- Does one thing with a buffer. -/
def perform (buffer : List UInt8) : Step → Reply × List UInt8
  | .feed data => (.done, buffer ++ data)
  | .encode c => (.done, encode buffer c)
  | .decode =>
    let (w, rest) := decode buffer
    (.word w, rest)
  | .decodeEnd =>
    match decodeEnd buffer with
    | (.ok w, rest) => (.word w, rest)
    | (.error e, rest) => (.failed e, rest)

end StreamServer.Codec
