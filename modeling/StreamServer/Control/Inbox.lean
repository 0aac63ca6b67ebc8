/-
Waiting for the next word of a control connection. Bytes that have come in
stay in a buffer until their word is complete, however long that takes; what
is buffered is decoded before more is read.
-/
import StreamServer.Codec
import StreamServer.Stream

namespace StreamServer.Control

/-- What comes of a stream of words. -/
inductive Received where
  | word (w : Word)
  /-- The stream ended between two words. -/
  | closed
  | failed (error : ProtocolError)
deriving DecidableEq, Repr

/-- Bytes that have come in and those that are still to come. -/
structure Inbox where
  buffer : List UInt8
  arrivals : List Arrival
deriving DecidableEq, Repr

/-- How waiting for a word ends. -/
inductive Awaited where
  | received (time : Instant) (what : Received) (rest : Inbox)
  /-- No word was complete by the deadline. -/
  | silence (time : Instant) (rest : Inbox)
  | never
deriving DecidableEq, Repr

/-- The end of a stream with these bytes left over. -/
def atEnd (buffer : List UInt8) : Received :=
  match (Codec.decodeEnd buffer).1 with
  | .ok (some w) => .word w
  | .ok none => .closed
  | .error e => .failed e

/-- The deadline passes before `due`. -/
def passesBefore (deadline : Option Instant) (due : Instant) : Option Instant :=
  deadline.filter (· < due)

/-- Waits for the next word, beginning at `now`. What is due at the deadline is still read. -/
def await (deadline : Option Instant) : Instant → List UInt8 → List Arrival → Awaited
  | now, buffer, [] =>
    match Codec.decode buffer with
    | (some w, rest) => .received now (.word w) ⟨rest, []⟩
    | (none, _) =>
      match deadline with
      | some t => .silence t ⟨buffer, []⟩
      | none => .never
  | now, buffer, a :: arrivals =>
    match Codec.decode buffer with
    | (some w, rest) => .received now (.word w) ⟨rest, a :: arrivals⟩
    | (none, _) =>
      match passesBefore deadline a.due with
      | some t => .silence t ⟨buffer, a :: arrivals⟩
      | none =>
        let now := max now a.due
        match a.input with
        | .bytes data => await deadline now (buffer ++ data) arrivals
        | .ended => .received now (atEnd buffer) ⟨[], a :: arrivals⟩
        | .fault reason => .received now (.failed (.io reason)) ⟨buffer, arrivals⟩

end StreamServer.Control
