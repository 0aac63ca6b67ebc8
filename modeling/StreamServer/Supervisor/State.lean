/-
A server at work: what it is doing, what it keeps, what the outside will
still do, and the record of what has happened.
-/
import StreamServer.Config
import StreamServer.Control.Handshake
import StreamServer.Greeting
import StreamServer.Registry
import StreamServer.Retry
import StreamServer.Supervisor.Event
import StreamServer.Worker

namespace StreamServer

namespace Supervisor

/-- What a server runs on. -/
structure Host where
  worker : Worker
  /-- How long the step with this number is held up before it begins. A server that has the
  machine to itself is never held up. -/
  lag : Nat → Nat := fun _ => 0
  /-- Nanoseconds that the host has been up when the clock starts. -/
  uptime : UInt64 := 0

/-- What stays the same during a run. -/
structure World extends Host where
  config : Config

namespace World

/-- Where control connections are dialled. -/
def target (w : World) : Control.Target :=
  ⟨w.config.host, w.config.remotePort, w.config.pingTimeout⟩

end World

/-- What a server is doing. Streams that come from a control connection are handled between two of
its turns, so the connection is kept beside them. -/
inductive Phase where
  /-- Waits for a client. -/
  | accepting
  /-- Dials the peer and shakes hands. -/
  | dialling
  /-- Takes a turn on the control connection. -/
  | serving (link : Link)
  /-- Dials the data port. -/
  | fetching (link : Link)
  /-- Reads the flags of a stream. -/
  | greeting (stream : Stream) (link : Option Link)
  /-- A number was given to the stream; is there room for a session? -/
  | admitting (id : SessionId) (stream : Stream) (link : Option Link)
  /-- There is room; the worker is handed the stream. -/
  | creating (id : SessionId) (stream : Stream) (link : Option Link)
  /-- The session runs; it is about to be tracked. -/
  | tracking (session : Session) (link : Option Link)
  /-- Pauses before the peer is dialled again. -/
  | pausing
  /-- Waits for all sessions. -/
  | draining
  /-- The run is over. -/
  | ended (exit : Exit)
  /-- Waits for something that never happens, holding these streams. -/
  | stuck (streams : List Stream)
deriving DecidableEq, Repr

/-- A dialled address. -/
structure Dial where
  time : Instant
  host : String
  port : UInt16
deriving DecidableEq, Repr

/-- A stream that was handed to the worker, and the course of its job if one was made. -/
structure Job where
  id : SessionId
  created : Instant
  course : Option Worker.Course
deriving DecidableEq, Repr

/-- What has happened in a run. -/
structure Record where
  /-- Events, whether or not somebody got them. -/
  events : List (Instant × Event) := []
  dials : List Dial := []
  /-- Streams opened so far. -/
  opened : Nat := 0
  /-- Streams that were let go of or handed to a job. -/
  transcripts : List Transcript := []
  jobs : List Job := []
  /-- Sessions that were started. -/
  started : List Session := []
  /-- Sessions that were let go of after they had finished. -/
  reaped : List Session := []
  /-- Sessions that were waited for at the end. -/
  joined : List Session := []
  /-- When the worker was told that no more streams come. -/
  finalized : List Instant := []
  log : Log := []

end Supervisor

/-- A server at work. -/
structure Supervisor where
  clock : Instant
  /-- Steps made so far. -/
  steps : Nat
  phase : Supervisor.Phase
  registry : Registry
  /-- A client has asked the server to exit. -/
  exiting : Bool
  retry : Retry
  /-- What happens when the server dials. -/
  dials : Openings
  /-- What happens when the server accepts. -/
  accepts : Openings
  /-- The subscriber's mailbox, if there is a subscriber. -/
  mailbox : Option Supervisor.Mailbox
  record : Supervisor.Record

namespace Supervisor

/-- The server with its clock moved on. -/
def moveTo (s : Supervisor) (t : Instant) : Supervisor := { s with clock := t }

/-- Goes on with a phase. -/
def become (s : Supervisor) (phase : Phase) : Supervisor := { s with phase := phase }

/-- Writes to the log. -/
def say (s : Supervisor) (log : Log) : Supervisor :=
  { s with record := { s.record with log := s.record.log ++ log } }

/-- What is said when an event went into no mailbox. -/
def lostEntry (now : Instant) : Log.Entry := Log.trace now "Event subscriber gone or full"

/-- Tells an event. -/
def emit (s : Supervisor) (e : Event) : Supervisor :=
  let s := { s with record := { s.record with events := s.record.events ++ [(s.clock, e)] } }
  match s.mailbox with
  | none => s
  | some m =>
    match m.post s.clock e with
    | (true, m) => { s with mailbox := some m }
    | (false, m) => { s with mailbox := some m }.say [lostEntry s.clock]

/-- Notes what a stream leaves behind. -/
def retire (s : Supervisor) (t : Transcript) : Supervisor :=
  { s with record := { s.record with transcripts := s.record.transcripts ++ [t] } }

/-- Lets go of a stream. -/
def drop (s : Supervisor) (stream : Stream) : Supervisor :=
  s.retire (stream.transcript (some s.clock))

/-- Counts a stream that was opened. -/
def countStream (s : Supervisor) : Supervisor :=
  { s with record := { s.record with opened := s.record.opened + 1 } }

/-- Notes a dial. -/
def noteDial (s : Supervisor) (host : String) (port : UInt16) : Supervisor :=
  { s with record := { s.record with dials := s.record.dials ++ [⟨s.clock, host, port⟩] } }

/-- A server that is about to run. -/
def start (w : World) (dials accepts : Openings) (mailbox : Option Mailbox) : Supervisor where
  clock := 0
  steps := 0
  phase := if w.config.mode.isListening then .accepting else .dialling
  registry := .empty w.config.maxSessions
  exiting := false
  retry := .fresh w.config.retryDelay
  dials := dials
  accepts := accepts
  mailbox := mailbox
  record :=
    { log := [Log.info 0 ("Render server running in " ++ w.config.mode.text ++ " mode")] }

end Supervisor

end StreamServer
