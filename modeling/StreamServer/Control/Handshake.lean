/-
Establishing a control connection: the peer is dialled, and on the stream the
server says START and the peer answers with the port for data connections.
-/
import StreamServer.Control.Link

namespace StreamServer.Control

/-- Where control connections are dialled, and how long a ping may stay unanswered on them. -/
structure Target where
  host : String
  port : UInt16
  pingTimeout : Duration
deriving DecidableEq, Repr

namespace Target

def text (t : Target) : String := t.host ++ ":" ++ toString t.port.toNat

/-- What is said when the target is dialled. -/
def dialEntry (t : Target) (now : Instant) : Log.Entry :=
  Log.debug now ("Dialing control endpoint " ++ t.text)

end Target

/-- How the exchange ends. -/
inductive Handshake where
  | linked (time : Instant) (link : Link)
  | failed (time : Instant) (error : ConnectionError) (stream : Stream)
  | never (stream : Stream)
deriving DecidableEq, Repr

/-- A word that is a port. -/
def portOf? (w : Word) : Option UInt16 :=
  if 0 < w ∧ w ≤ 65535 then some w.toUInt16 else none

/-- The answer to START. -/
def answered (timeout : Duration) (stream : Stream) : Awaited → Handshake
  | .received t (.word w) rest =>
    let stream := { stream with arrivals := rest.arrivals }
    match portOf? w with
    | some port => .linked t ⟨stream, rest.buffer, port, .fresh timeout⟩
    | none => .failed t (.handshake (.invalidPort w)) stream
  | .received t .closed _ => .failed t (.handshake (.truncated 0)) stream
  | .received t (.failed e) _ => .failed t (.handshake e) stream
  | .silence .. | .never => .never stream

/-- Exchanges START for the data port on a stream, beginning at `now`. The answer is waited for
without a limit. -/
def handshake (timeout : Duration) (stream : Stream) (now : Instant) : Handshake :=
  let (sent, outlet) := stream.outlet.send now Command.start.encode
  let stream := { stream with outlet := outlet }
  match sent with
  | .done t => answered timeout stream (await none t [] stream.arrivals)
  | .failed t fault => .failed t (.handshake (.io (Link.faultText fault))) stream
  | .never => .never stream

/-- How an attempt to reach the peer goes. -/
inductive Attempt where
  /-- The peer was dialled; how hands were shaken on the stream. -/
  | dialled (opened : Instant) (handshake : Handshake)
  /-- The peer could not be dialled. -/
  | failed (time : Instant) (error : ConnectionError)
  /-- The dial neither succeeds nor fails. -/
  | never
deriving DecidableEq, Repr

/-- Dials the target at `now` and shakes hands. -/
def connect (target : Target) (opening : Opening) (serial : Nat) (now : Instant) : Attempt :=
  match opening.ask serial target.text now with
  | .stream t stream => .dialled t (handshake target.pingTimeout stream t)
  | .failed t reason => .failed t (.dial target.text reason)
  | .never => .never

end StreamServer.Control
