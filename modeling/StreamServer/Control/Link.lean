/-
An established control connection. Each turn waits for the next word, at most
for the ping timeout, and acts on the word or on the silence.
-/
import StreamServer.Control.Inbox
import StreamServer.Liveness
import StreamServer.Log

namespace StreamServer

namespace Control

/-- What a turn means for the server. -/
inductive Event where
  /-- The peer wants a data connection. -/
  | openData
  /-- The peer wants the server to stop. -/
  | stop
  /-- The peer was silent and has been sent a ping. -/
  | pingSent
  /-- Nothing is to be done. -/
  | idle
deriving DecidableEq, Repr

end Control

/-- An established control connection. -/
structure Link where
  stream : Stream
  /-- Bytes that have come in and are not yet a word. -/
  buffer : List UInt8
  /-- Port the peer accepts data connections on. -/
  dataPort : UInt16
  liveness : Liveness
deriving DecidableEq, Repr

namespace Link

/-- What one turn comes to: the connection afterwards, when the turn is over and how, unless it
never is, and what is said. -/
structure Turn where
  link : Link
  outcome : Option (Instant × Except ConnectionError Control.Event)
  log : Log

/-- The connection with what is left to be read. -/
def withInbox (l : Link) (rest : Control.Inbox) : Link :=
  { l with buffer := rest.buffer, stream := { l.stream with arrivals := rest.arrivals } }

/-- The reason of a failed write of a command. -/
def faultText (fault : WriteFault) : String := fault.text "failed to write frame to transport"

/-- What is said when a command is written. -/
def encodeEntry (now : Instant) (c : Command) : Log.Entry :=
  Log.trace now ("Encoding control command " ++ c.text)

/-- Sends a command. -/
def send (l : Link) (now : Instant) (c : Command) : Sent × Link :=
  let (sent, outlet) := l.stream.outlet.send now c.encode
  (sent, { l with stream := { l.stream with outlet := outlet } })

/-- A turn that ends by sending `c`: `after` says what follows when it was sent. -/
def sending (l : Link) (now : Instant) (c : Command) (log : Log)
    (after : Link → Instant → Turn) : Turn :=
  let log := log ++ [encodeEntry now c]
  match l.send now c with
  | (.done t, l) =>
    let turn := after l t
    { turn with log := log ++ turn.log }
  | (.failed t fault, l) =>
    ⟨l, some (t, .error (.send c.text (.io (faultText fault)))), log⟩
  | (.never, l) => ⟨l, none, log⟩

/-- A turn that ends at once. -/
def turn (l : Link) (now : Instant) (result : Except ConnectionError Control.Event) (log : Log) :
    Turn :=
  ⟨l, some (now, result), log⟩

/-- Acts on a silence noticed at `now`. The ping counts from then, however long writing it takes. -/
def onSilence (l : Link) (now : Instant) : Turn :=
  match l.liveness.check now.elapsed with
  | .sendPing =>
    l.sending now .ping [] fun l t =>
      { l with liveness := l.liveness.pingSent now.elapsed }.turn t (.ok .pingSent)
        [Log.trace t "PING sent"]
  | .waiting => l.turn now (.ok .idle) []
  | .dead waited =>
    l.turn now (.error (.pingTimeout waited)) [Log.warn now "PING timed out"]

/-- Acts on a command received at `now`. -/
def dispatch (l : Link) (now : Instant) (c : Command) : Turn :=
  let log := [Log.debug now ("Got control command " ++ c.text)]
  match c with
  | .new => l.turn now (.ok .openData) log
  | .stop => l.turn now (.ok .stop) log
  | .ping => l.sending now .pong log fun l t => l.turn t (.ok .idle) []
  | .pong => { l with liveness := l.liveness.pongReceived }.turn now (.ok .idle) log
  | .start | .unknown _ =>
    l.turn now (.ok .idle)
      (log ++ [Log.warn now ("Unknown control command " ++ toString c.toWord.toNat)])

/-- Acts on what came of waiting for a word. -/
def react (l : Link) : Control.Awaited → Turn
  | .received t (.word w) rest => (l.withInbox rest).dispatch t (Command.ofWord w)
  | .received t .closed rest => (l.withInbox rest).turn t (.error .closed) []
  | .received t (.failed e) rest => (l.withInbox rest).turn t (.error (.receive e)) []
  | .silence t rest => (l.withInbox rest).onSilence t
  | .never => ⟨l, none, []⟩

/-- One turn, beginning at `now`. -/
def next (l : Link) (now : Instant) : Turn :=
  l.react (Control.await (now.timeout? l.liveness.timeout) now l.buffer l.stream.arrivals)

/-- What is said when the connection is closed on purpose. -/
def closeLog (l : Link) (now : Instant) : Log :=
  match l.stream.closeFault with
  | some reason => [Log.debug now ("Control connection shutdown: " ++ reason)]
  | none => []

/-- Record of the connection once it is closed on purpose. -/
def closedTranscript (l : Link) (now : Instant) : Transcript :=
  { l.stream.transcript (some now) with closed := some now }

/-- A ping waits for its answer. -/
def pingOutstanding (l : Link) : Bool := l.liveness.isOutstanding

end Link

end StreamServer
