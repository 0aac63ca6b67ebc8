/-
The steps of a server. Each does one thing: it waits for one happening, or it
takes one decision that the clock could fall into. The next step depends on
nothing but the state it finds.
-/
import StreamServer.Supervisor.State

namespace StreamServer.Supervisor

/-- Closes the control connection on purpose. -/
def closeLink (s : Supervisor) (link : Link) : Supervisor :=
  (s.say (link.closeLog s.clock)).retire (link.closedTranscript s.clock)

/-- Goes on after a stream was dealt with: where it came from, or to the end if a client has asked
for it. -/
def resume (s : Supervisor) (link : Option Link) : Supervisor :=
  match link, s.exiting with
  | none, false => s.become .accepting
  | some l, false => s.become (.serving l)
  | none, true => s.become .draining
  | some l, true => (s.closeLink l).become .draining

/-- Waits for a client. -/
def accept (s : Supervisor) : Supervisor :=
  let (opening, accepts) := s.accepts.take
  let s := { s with accepts := accepts }
  match opening.ask s.record.opened "accept" s.clock with
  | .stream t stream => ((s.moveTo t).countStream).become (.greeting stream none)
  | .failed t reason =>
    ((s.moveTo t).say [Log.error t ("Error accepting connection, aborting: " ++ reason)]).become
      .draining
  | .never => s.become (.stuck [])

/-- The control connection could not be established. -/
def unreached (s : Supervisor) (e : ConnectionError) : Supervisor :=
  ((s.say [Log.warn s.clock e.message]).emit (.controlLost e.message)).become .pausing

/-- The control connection is established. -/
def connected (s : Supervisor) (target : Control.Target) (link : Link) : Supervisor :=
  ((s.say [Log.info s.clock ("Connected to " ++ target.text),
      Log.info s.clock ("Port " ++ toString link.dataPort.toNat
        ++ " will be used for data connections")]).emit
    (.controlConnected link.dataPort)).become (.serving link)

/-- Goes on after hands were shaken. -/
def shaken (s : Supervisor) (target : Control.Target) : Control.Handshake → Supervisor
  | .linked t link => (s.moveTo t).connected target link
  | .failed t e stream => ((s.moveTo t).drop stream).unreached e
  | .never stream => s.become (.stuck [stream])

/-- Dials the peer. -/
def dial (w : World) (s : Supervisor) : Supervisor :=
  let target := w.target
  let (opening, dials) := s.dials.take
  let s := { s with dials := dials }.say [target.dialEntry s.clock]
  let s := s.noteDial target.host target.port
  match Control.connect target opening s.record.opened s.clock with
  | .dialled t handshake =>
    ((s.moveTo t).countStream.say [Link.encodeEntry t .start]).shaken target handshake
  | .failed t e => (s.moveTo t).unreached e
  | .never => s.become (.stuck [])

/-- The control connection is lost. -/
def lost (s : Supervisor) (link : Link) (e : ConnectionError) : Supervisor :=
  (((s.say [Log.warn s.clock ("Control connection lost: " ++ e.message)]).emit
    (.controlLost e.message)).drop link.stream).become .pausing

/-- The peer wants the server to stop. -/
def stop (s : Supervisor) (link : Link) : Supervisor :=
  ((s.closeLink link).say
    [Log.info s.clock ("Stopped by peer, abandoning " ++ toString s.registry.size
      ++ " session(s)")]).become (.ended .stopped)

/-- Does what a turn asks for. -/
def obey (s : Supervisor) (link : Link) : Control.Event → Supervisor
  | .openData => s.become (.fetching link)
  | .stop => s.stop link
  | .pingSent => (s.emit .pingSent).become (.serving link)
  | .idle => s.become (.serving link)

/-- Takes a turn on the control connection. -/
def takeTurn (s : Supervisor) (link : Link) : Supervisor :=
  let turn := link.next s.clock
  let s := s.say turn.log
  match turn.outcome with
  | some (t, .ok event) => (s.moveTo t).obey turn.link event
  | some (t, .error e) => (s.moveTo t).lost turn.link e
  | none => s.become (.stuck [turn.link.stream])

/-- Dials the data port of the control connection. -/
def fetch (w : World) (s : Supervisor) (link : Link) : Supervisor :=
  let host := w.config.host
  let address := host ++ ":" ++ toString link.dataPort.toNat
  let (opening, dials) := s.dials.take
  let s := { s with dials := dials }.noteDial host link.dataPort
  match opening.ask s.record.opened address s.clock with
  | .stream t stream => ((s.moveTo t).countStream).become (.greeting stream (some link))
  | .failed t reason =>
    ((s.moveTo t).say
      [Log.warn t ("Failed to open data connection to " ++ address ++ ": " ++ reason)]).resume
      (some link)
  | .never => s.become (.stuck [link.stream])

/-- A client asks the server to exit. -/
def requestExit (s : Supervisor) (stream : Stream) (link : Option Link) : Supervisor :=
  (({ s with exiting := true }.say [Log.info s.clock "Client requested server exit"]).emit
    .exitRequested).drop stream |>.resume link

/-- A stream becomes a session or not: it is given a number. -/
def number (s : Supervisor) (stream : Stream) (link : Option Link) : Supervisor :=
  let (id, registry) := s.registry.allocate
  { s with registry := registry }.become (.admitting id stream link)

/-- Reads the flags of a stream. -/
def greet (s : Supervisor) (stream : Stream) (link : Option Link) : Supervisor :=
  match Greeting.read stream s.clock with
  | .flags t flags stream =>
    if flags.requestsExit then (s.moveTo t).requestExit stream link
    else (s.moveTo t).number stream link
  | .failed t e =>
    ((s.moveTo t).say [Log.warn t ("Error reading client flags: " ++ e.message)]).drop stream
      |>.resume link
  | .never => s.become (.stuck (stream :: (link.map (·.stream)).toList))

/-- A stream does not become a session. -/
def reject (s : Supervisor) (id : SessionId) (stream : Stream) (link : Option Link)
    (e : SessionError) : Supervisor :=
  (((s.say [Log.warn s.clock ("Failed to start " ++ id.text ++ ": " ++ e.message)]).emit
    (.sessionRejected e.message)).drop stream).resume link

/-- Is there room for a session? -/
def checkRoom (s : Supervisor) (id : SessionId) (stream : Stream) (link : Option Link) :
    Supervisor :=
  match s.registry.checkCapacity s.clock with
  | .ok _ => s.become (.creating id stream link)
  | .error e => s.reject id stream link e

/-- Notes a stream that was handed to the worker. -/
def noteJob (s : Supervisor) (id : SessionId) (course : Option Worker.Course) : Supervisor :=
  { s with record := { s.record with jobs := s.record.jobs ++ [⟨id, s.clock, course⟩] } }

/-- Starts a session on the job that was made. -/
def launch (s : Supervisor) (id : SessionId) (course : Worker.Course) (link : Option Link) :
    Supervisor :=
  let session := Session.start id s.clock course.ending
  let s := (s.say (Session.startEntry id s.clock :: course.log)).retire course.transcript
  { s with record := { s.record with started := s.record.started ++ [session] } }.become
    (.tracking session link)

/-- Hands the stream to the worker. -/
def create (w : World) (s : Supervisor) (id : SessionId) (stream : Stream) (link : Option Link) :
    Supervisor :=
  match w.worker.create id stream s.clock with
  | .ok course => (s.noteJob id (some course)).launch id course link
  | .error e => (s.noteJob id none).reject id stream link e

/-- Lets go of finished sessions and tracks the new one. -/
def track (s : Supervisor) (session : Session) (link : Option Link) : Supervisor :=
  let sweep := s.registry.sweep s.clock
  let s := { s with registry := sweep.registry,
                    record := { s.record with
                      reaped := s.record.reaped ++ sweep.gone } }.say sweep.log
  match s.registry.insert session with
  | .error session =>
    (s.say [Log.error s.clock (session.id.text ++ " is already tracked")]).resume link
  | .ok registry =>
    let tracked := registry.size
    (({ s with registry := registry }.say
      [Log.debug s.clock ("Started " ++ session.id.text ++ " (" ++ toString tracked
        ++ " tracked)")]).emit (.sessionStarted session.id sweep.gone.length tracked)).resume link

/-- Pauses before the peer is dialled again. -/
def pause (w : World) (s : Supervisor) : Supervisor :=
  let retry := s.retry.next
  let s := { s with retry := retry }.say [retry.announcement s.clock]
  (s.moveTo (retry.resumeAt w.uptime s.clock)).become .dialling

/-- Tells the worker that no more streams come, and ends the run. -/
def finalize (s : Supervisor) (joined : Nat) : Supervisor :=
  let s := { s with record := { s.record with finalized := s.record.finalized ++ [s.clock] } }
  ((s.say [Worker.finalizeEntry s.clock,
      Log.info s.clock ("Render server drained " ++ toString joined ++ " session(s)")]).emit
    (.drained joined)).become (.ended (.drained joined))

/-- Waits for all sessions. -/
def drain (s : Supervisor) : Supervisor :=
  let joined := s.registry.size
  let (d, registry) := s.registry.drain s.clock
  let s := { s with registry := registry,
                    record := { s.record with
                      joined := s.record.joined ++ d.sessions } }.say d.log
  match d.time with
  | some t => (s.moveTo t).finalize joined
  | none => s.become (.stuck [])

/-- Does what the phase asks for. -/
def act (w : World) (s : Supervisor) : Supervisor :=
  match s.phase with
  | .accepting => s.accept
  | .dialling => s.dial w
  | .serving link => s.takeTurn link
  | .fetching link => s.fetch w link
  | .greeting stream link => s.greet stream link
  | .admitting id stream link => s.checkRoom id stream link
  | .creating id stream link => s.create w id stream link
  | .tracking session link => s.track session link
  | .pausing => s.pause w
  | .draining => s.drain
  | .ended _ | .stuck _ => s

/-- Nothing more will happen. -/
def Phase.isFinal : Phase → Bool
  | .ended _ | .stuck _ => true
  | _ => false

/-- One step. It begins when the server is no longer held up. -/
def step (w : World) (s : Supervisor) : Supervisor :=
  if s.phase.isFinal then s
  else { s with clock := s.clock + w.lag s.steps, steps := s.steps + 1 }.act w

end StreamServer.Supervisor
