/-
What a step of a server can do, said once: every fact about whole runs comes
from the transitions listed here. They leave out what is only written down
for others (the log, the mailbox of a subscriber, the transcripts of streams),
which no step ever looks at: `quiet` forgets it on both sides.
-/
import StreamServer.Supervisor.Run

namespace StreamServer.Supervisor

/-- The server without what is only written down for others. -/
def quiet (s : Supervisor) : Supervisor :=
  { s with mailbox := none, record := { s.record with log := [], transcripts := [] } }

/-- Where a server comes by the next stream: from its clients, or from its peer. -/
def Phase.back : Option Link → Phase
  | none => .accepting
  | some link => .serving link

/-- What a server does after it has dealt with a stream. -/
def afterStream (s : Supervisor) (link : Option Link) : Phase :=
  if s.exiting then .draining else .back link

/-! ## The transitions -/

/-- What one step can come to, by the phase it finds. -/
inductive Transition (w : World) (s : Supervisor) : Supervisor → Prop
  | accepted {o rest t stream} (hp : s.phase = .accepting) (ho : s.accepts.take = (o, rest))
      (ha : o.ask s.record.opened "accept" s.clock = .stream t stream) :
      Transition w s { s with
        clock := t, phase := .greeting stream none, accepts := rest
        record := { s.record with opened := s.record.opened + 1 } }
  | acceptFailed {o rest t reason} (hp : s.phase = .accepting) (ho : s.accepts.take = (o, rest))
      (ha : o.ask s.record.opened "accept" s.clock = .failed t reason) :
      Transition w s { s with clock := t, phase := .draining, accepts := rest }
  | acceptHung {o rest} (hp : s.phase = .accepting) (ho : s.accepts.take = (o, rest))
      (ha : o.ask s.record.opened "accept" s.clock = .never) :
      Transition w s { s with phase := .stuck [], accepts := rest }
  | unreached {o rest t reason} (hp : s.phase = .dialling) (ho : s.dials.take = (o, rest))
      (ha : o.ask s.record.opened w.target.text s.clock = .failed t reason) :
      Transition w s { s with
        clock := t, phase := .pausing, dials := rest
        record := { s.record with
          dials := s.record.dials ++ [⟨s.clock, w.target.host, w.target.port⟩]
          events := s.record.events ++
            [(t, .controlLost (ConnectionError.dial w.target.text reason).message)] } }
  | unanswered {o rest t stream u e stream'} (hp : s.phase = .dialling)
      (ho : s.dials.take = (o, rest))
      (ha : o.ask s.record.opened w.target.text s.clock = .stream t stream)
      (hh : Control.handshake w.target.pingTimeout stream t = .failed u e stream') :
      Transition w s { s with
        clock := u, phase := .pausing, dials := rest
        record := { s.record with
          dials := s.record.dials ++ [⟨s.clock, w.target.host, w.target.port⟩]
          opened := s.record.opened + 1
          events := s.record.events ++ [(u, .controlLost e.message)] } }
  | connected {o rest t stream u link} (hp : s.phase = .dialling) (ho : s.dials.take = (o, rest))
      (ha : o.ask s.record.opened w.target.text s.clock = .stream t stream)
      (hh : Control.handshake w.target.pingTimeout stream t = .linked u link) :
      Transition w s { s with
        clock := u, phase := .serving link, dials := rest
        record := { s.record with
          dials := s.record.dials ++ [⟨s.clock, w.target.host, w.target.port⟩]
          opened := s.record.opened + 1
          events := s.record.events ++ [(u, .controlConnected link.dataPort)] } }
  | dialHung {o rest} (hp : s.phase = .dialling) (ho : s.dials.take = (o, rest))
      (ha : o.ask s.record.opened w.target.text s.clock = .never) :
      Transition w s { s with
        phase := .stuck [], dials := rest
        record := { s.record with
          dials := s.record.dials ++ [⟨s.clock, w.target.host, w.target.port⟩] } }
  | handshakeHung {o rest t stream stream'} (hp : s.phase = .dialling)
      (ho : s.dials.take = (o, rest))
      (ha : o.ask s.record.opened w.target.text s.clock = .stream t stream)
      (hh : Control.handshake w.target.pingTimeout stream t = .never stream') :
      Transition w s { s with
        clock := t, phase := .stuck [stream'], dials := rest
        record := { s.record with
          dials := s.record.dials ++ [⟨s.clock, w.target.host, w.target.port⟩]
          opened := s.record.opened + 1 } }
  | ordered {link t} (hp : s.phase = .serving link)
      (ho : (link.next s.clock).outcome = some (t, .ok .openData)) :
      Transition w s { s with clock := t, phase := .fetching (link.next s.clock).link }
  | stopped {link t} (hp : s.phase = .serving link)
      (ho : (link.next s.clock).outcome = some (t, .ok .stop)) :
      Transition w s { s with clock := t, phase := .ended .stopped }
  | pinged {link t} (hp : s.phase = .serving link)
      (ho : (link.next s.clock).outcome = some (t, .ok .pingSent)) :
      Transition w s { s with
        clock := t, phase := .serving (link.next s.clock).link
        record := { s.record with events := s.record.events ++ [(t, .pingSent)] } }
  | idled {link t} (hp : s.phase = .serving link)
      (ho : (link.next s.clock).outcome = some (t, .ok .idle)) :
      Transition w s { s with clock := t, phase := .serving (link.next s.clock).link }
  | lost {link t e} (hp : s.phase = .serving link)
      (ho : (link.next s.clock).outcome = some (t, .error e)) :
      Transition w s { s with
        clock := t, phase := .pausing
        record := { s.record with events := s.record.events ++ [(t, .controlLost e.message)] } }
  | turnHung {link} (hp : s.phase = .serving link) (ho : (link.next s.clock).outcome = none) :
      Transition w s { s with phase := .stuck [(link.next s.clock).link.stream] }
  | fetched {link o rest t stream} (hp : s.phase = .fetching link) (ho : s.dials.take = (o, rest))
      (ha : o.ask s.record.opened (w.config.host ++ ":" ++ toString link.dataPort.toNat) s.clock
        = .stream t stream) :
      Transition w s { s with
        clock := t, phase := .greeting stream (some link), dials := rest
        record := { s.record with
          dials := s.record.dials ++ [⟨s.clock, w.config.host, link.dataPort⟩]
          opened := s.record.opened + 1 } }
  | notFetched {link o rest t reason} (hp : s.phase = .fetching link)
      (ho : s.dials.take = (o, rest))
      (ha : o.ask s.record.opened (w.config.host ++ ":" ++ toString link.dataPort.toNat) s.clock
        = .failed t reason) :
      Transition w s { s with
        clock := t, phase := s.afterStream (some link), dials := rest
        record := { s.record with
          dials := s.record.dials ++ [⟨s.clock, w.config.host, link.dataPort⟩] } }
  | fetchHung {link o rest} (hp : s.phase = .fetching link) (ho : s.dials.take = (o, rest))
      (ha : o.ask s.record.opened (w.config.host ++ ":" ++ toString link.dataPort.toNat) s.clock
        = .never) :
      Transition w s { s with
        phase := .stuck [link.stream], dials := rest
        record := { s.record with
          dials := s.record.dials ++ [⟨s.clock, w.config.host, link.dataPort⟩] } }
  | exitAsked {stream link t flags stream'} (hp : s.phase = .greeting stream link)
      (hg : Greeting.read stream s.clock = .flags t flags stream')
      (hf : flags.requestsExit = true) :
      Transition w s { s with
        clock := t, phase := .draining, exiting := true
        record := { s.record with events := s.record.events ++ [(t, .exitRequested)] } }
  | numbered {stream link t flags stream'} (hp : s.phase = .greeting stream link)
      (hg : Greeting.read stream s.clock = .flags t flags stream')
      (hf : flags.requestsExit = false) :
      Transition w s { s with
        clock := t, phase := .admitting s.registry.nextId stream' link
        registry := { s.registry with nextId := s.registry.nextId.next } }
  | dismissed {stream link t e} (hp : s.phase = .greeting stream link)
      (hg : Greeting.read stream s.clock = .failed t e) :
      Transition w s { s with clock := t, phase := s.afterStream link }
  | greetHung {stream link streams} (hp : s.phase = .greeting stream link)
      (hg : Greeting.read stream s.clock = .never) :
      Transition w s { s with phase := .stuck streams }
  | admitted {id stream link} (hp : s.phase = .admitting id stream link)
      (hc : s.registry.checkCapacity s.clock = .ok ()) :
      Transition w s { s with phase := .creating id stream link }
  | full {id stream link e} (hp : s.phase = .admitting id stream link)
      (hc : s.registry.checkCapacity s.clock = .error e) :
      Transition w s { s with
        phase := s.afterStream link
        record := { s.record with
          events := s.record.events ++ [(s.clock, .sessionRejected e.message)] } }
  | launched {id stream link course} (hp : s.phase = .creating id stream link)
      (hc : w.worker.create id stream s.clock = .ok course) :
      Transition w s { s with
        phase := .tracking (Session.start id s.clock course.ending) link
        record := { s.record with
          jobs := s.record.jobs ++ [⟨id, s.clock, some course⟩]
          started := s.record.started ++ [Session.start id s.clock course.ending] } }
  | refused {id stream link e} (hp : s.phase = .creating id stream link)
      (hc : w.worker.create id stream s.clock = .error e) :
      Transition w s { s with
        phase := s.afterStream link
        record := { s.record with
          jobs := s.record.jobs ++ [⟨id, s.clock, none⟩]
          events := s.record.events ++ [(s.clock, .sessionRejected e.message)] } }
  | tracked {session link registry} (hp : s.phase = .tracking session link)
      (hi : (s.registry.sweep s.clock).registry.insert session = .ok registry) :
      Transition w s { s with
        phase := s.afterStream link, registry := registry
        record := { s.record with
          reaped := s.record.reaped ++ (s.registry.sweep s.clock).gone
          events := s.record.events ++ [(s.clock, .sessionStarted session.id
            (s.registry.sweep s.clock).gone.length registry.size)] } }
  | duplicate {session link other} (hp : s.phase = .tracking session link)
      (hi : (s.registry.sweep s.clock).registry.insert session = .error other) :
      Transition w s { s with
        phase := s.afterStream link, registry := (s.registry.sweep s.clock).registry
        record := { s.record with
          reaped := s.record.reaped ++ (s.registry.sweep s.clock).gone } }
  | rested (hp : s.phase = .pausing) :
      Transition w s { s with
        clock := s.retry.next.resumeAt w.uptime s.clock, phase := .dialling, retry := s.retry.next }
  | drained {t} (hp : s.phase = .draining)
      (ht : (Registry.joinAll s.clock s.registry.sessions).time = some t) :
      Transition w s { s with
        clock := t, phase := .ended (.drained s.registry.size)
        registry := { s.registry with entries := [] }
        record := { s.record with
          joined := s.record.joined ++ (Registry.joinAll s.clock s.registry.sessions).sessions
          finalized := s.record.finalized ++ [t]
          events := s.record.events ++ [(t, .drained s.registry.size)] } }
  | drainHung (hp : s.phase = .draining)
      (ht : (Registry.joinAll s.clock s.registry.sessions).time = none) :
      Transition w s { s with
        phase := .stuck []
        registry := { s.registry with entries := [] }
        record := { s.record with
          joined := s.record.joined ++ (Registry.joinAll s.clock s.registry.sessions).sessions } }

/-! ## What is only written down -/

@[simp] theorem quiet_say (s : Supervisor) (log : Log) : (s.say log).quiet = s.quiet := rfl

@[simp] theorem quiet_drop (s : Supervisor) (stream : Stream) : (s.drop stream).quiet = s.quiet :=
  rfl

@[simp] theorem quiet_closeLink (s : Supervisor) (link : Link) :
    (s.closeLink link).quiet = s.quiet := rfl

@[simp] theorem quiet_become (s : Supervisor) (phase : Phase) :
    (s.become phase).quiet = { s.quiet with phase := phase } := rfl

/-- A subscriber does not change what the server does next, whatever becomes of the event. -/
@[simp] theorem quiet_emit (s : Supervisor) (e : Event) :
    (s.emit e).quiet = { s.quiet with
      record := { s.quiet.record with events := s.quiet.record.events ++ [(s.quiet.clock, e)] } } := by
  unfold emit
  dsimp only
  split
  · rfl
  · split <;> rfl

@[simp] theorem quiet_resume (s : Supervisor) (link : Option Link) :
    (s.resume link).quiet = { s.quiet with phase := s.quiet.afterStream link } := by
  have hx : s.quiet.exiting = s.exiting := rfl
  unfold resume afterStream
  rw [hx]
  cases link <;> cases s.exiting <;> rfl

/-! ## Every step is a transition -/

variable {w : World} {s : Supervisor}

theorem accept_transition (hp : s.phase = .accepting) : Transition w s.quiet s.accept.quiet := by
  unfold accept
  rcases ho : s.accepts.take with ⟨o, rest⟩
  dsimp only
  split <;> rename_i ha
  · exact .accepted hp ho ha
  · exact .acceptFailed hp ho ha
  · exact .acceptHung hp ho ha

theorem dial_transition (hp : s.phase = .dialling) : Transition w s.quiet (s.dial w).quiet := by
  unfold dial Control.connect
  rcases ho : s.dials.take with ⟨o, rest⟩
  rcases ha : o.ask s.record.opened w.target.text s.clock with ⟨t, stream⟩ | ⟨t, reason⟩ | _
  · rcases hh : Control.handshake w.target.pingTimeout stream t with
      ⟨u, link⟩ | ⟨u, e, stream'⟩ | stream'
    · simp only [noteDial, say, ha, hh, shaken, connected, quiet_become, quiet_emit]
      exact .connected hp ho ha hh
    · simp only [noteDial, say, ha, hh, shaken, unreached, quiet_become, quiet_emit]
      exact .unanswered hp ho ha hh
    · simp only [noteDial, say, ha, hh, shaken]
      exact .handshakeHung hp ho ha hh
  · simp only [noteDial, say, ha, unreached, quiet_become, quiet_emit]
    exact .unreached hp ho ha
  · simp only [noteDial, say, ha]
    exact .dialHung hp ho ha

theorem takeTurn_transition {link} (hp : s.phase = .serving link) :
    Transition w s.quiet (s.takeTurn link).quiet := by
  unfold takeTurn
  dsimp only
  split <;> rename_i ho
  · rename_i t event
    cases event with
    | openData => exact .ordered hp ho
    | stop =>
      simp only [obey, stop, quiet_become, quiet_say, quiet_closeLink]
      exact .stopped hp ho
    | pingSent =>
      simp only [obey, quiet_become, quiet_emit]
      exact .pinged hp ho
    | idle => exact .idled hp ho
  · simp only [lost, quiet_become, quiet_drop, quiet_emit, quiet_say]
    exact .lost hp ho
  · exact .turnHung hp ho

theorem fetch_transition {link} (hp : s.phase = .fetching link) :
    Transition w s.quiet (s.fetch w link).quiet := by
  unfold fetch
  rcases ho : s.dials.take with ⟨o, rest⟩
  dsimp only
  split <;> rename_i ha
  · exact .fetched hp ho ha
  · simp only [quiet_resume]
    exact .notFetched hp ho ha
  · exact .fetchHung hp ho ha

theorem greet_transition {stream link} (hp : s.phase = .greeting stream link) :
    Transition w s.quiet (s.greet stream link).quiet := by
  unfold greet
  split <;> rename_i hg
  · split <;> rename_i hf
    · simp only [requestExit, quiet_resume, quiet_drop, quiet_emit]
      exact .exitAsked hp hg hf
    · exact .numbered hp hg (by simpa using hf)
  · simp only [quiet_resume]
    exact .dismissed hp hg
  · exact .greetHung hp hg

theorem checkRoom_transition {id stream link} (hp : s.phase = .admitting id stream link) :
    Transition w s.quiet (s.checkRoom id stream link).quiet := by
  unfold checkRoom
  split <;> rename_i hc
  · exact .admitted hp hc
  · simp only [reject, quiet_resume, quiet_drop, quiet_emit, quiet_say]
    exact .full hp hc

theorem create_transition {id stream link} (hp : s.phase = .creating id stream link) :
    Transition w s.quiet (s.create w id stream link).quiet := by
  unfold create
  split <;> rename_i hc
  · dsimp only [launch, noteJob, say, retire, become, quiet]
    exact .launched hp hc
  · simp only [reject, quiet_resume, quiet_drop, quiet_emit, quiet_say]
    exact .refused hp hc

theorem track_transition {session link} (hp : s.phase = .tracking session link) :
    Transition w s.quiet (s.track session link).quiet := by
  unfold track
  dsimp only
  split <;> rename_i hi
  · simp only [quiet_resume]
    exact .duplicate hp hi
  · simp only [quiet_resume, quiet_emit, quiet_say]
    exact .tracked hp hi

theorem drain_transition (hp : s.phase = .draining) : Transition w s.quiet s.drain.quiet := by
  unfold drain Registry.drain
  dsimp only
  split <;> rename_i ht
  · simp only [finalize, quiet_become, quiet_emit, quiet_say]
    exact .drained hp ht
  · exact .drainHung hp ht

/-- Whatever a server does, it is one of the transitions. -/
theorem act_transition (hp : s.phase.isFinal = false) : Transition w s.quiet (s.act w).quiet := by
  unfold act
  split <;> rename_i h
  · exact accept_transition h
  · exact dial_transition h
  · exact takeTurn_transition h
  · exact fetch_transition h
  · exact greet_transition h
  · exact checkRoom_transition h
  · exact create_transition h
  · exact track_transition h
  · exact .rested h
  · exact drain_transition h
  · simp [Phase.isFinal, h] at hp
  · simp [Phase.isFinal, h] at hp

end StreamServer.Supervisor
