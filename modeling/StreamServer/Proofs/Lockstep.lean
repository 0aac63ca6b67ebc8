/-
Two servers side by side. They are alike in some way that no step can tell:
what a step looks at is the same for both, and the few things that steps are
made of leave them alike. Then so does every step, whatever the likeness is.

Their control connections may differ, as long as the turns and the attempts
that come of it go the same way.
-/
import Mathlib.Data.List.Forall2
import StreamServer.Proofs.Runs

namespace StreamServer.Supervisor

open Control

/-! ## What they are doing -/

/-- Connections and streams that may stand for each other. -/
structure Kinship where
  /-- From a time on. -/
  link : Instant → Link → Link → Prop
  /-- Streams on which nothing more happens. -/
  stream : Stream → Stream → Prop
  mono {t u l m} : link t l m → t ≤ u → link u l m
  dataPort {t l m} : link t l m → m.dataPort = l.dataPort
  closeLog {t l m} : link t l m → m.closeLog = l.closeLog
  held {t l m} : link t l m → stream l.stream m.stream
  refl (x) : stream x x
  transcript {x y} : stream x y → y.transcript = x.transcript

section Phases

variable {K : Kinship} {t u : Instant} {p p' : Phase} {link link' : Option Link}

/-- Both have a connection or none has. -/
abbrev SameLink (K : Kinship) (t : Instant) : Option Link → Option Link → Prop :=
  Option.Rel (K.link t)

/-- The servers do the same. -/
inductive Phase.AlikeBy (K : Kinship) (t : Instant) : Phase → Phase → Prop
  | accepting : AlikeBy K t .accepting .accepting
  | dialling : AlikeBy K t .dialling .dialling
  | serving {l m} (h : K.link t l m) : AlikeBy K t (.serving l) (.serving m)
  | fetching {l m} (h : K.link t l m) : AlikeBy K t (.fetching l) (.fetching m)
  | greeting {stream link link'} (h : SameLink K t link link') :
    AlikeBy K t (.greeting stream link) (.greeting stream link')
  | admitting {id stream link link'} (h : SameLink K t link link') :
    AlikeBy K t (.admitting id stream link) (.admitting id stream link')
  | creating {id stream link link'} (h : SameLink K t link link') :
    AlikeBy K t (.creating id stream link) (.creating id stream link')
  | tracking {session link link'} (h : SameLink K t link link') :
    AlikeBy K t (.tracking session link) (.tracking session link')
  | pausing : AlikeBy K t .pausing .pausing
  | draining : AlikeBy K t .draining .draining
  | ended {exit} : AlikeBy K t (.ended exit) (.ended exit)
  | stuck {streams streams'} (h : List.Forall₂ K.stream streams streams') :
    AlikeBy K t (.stuck streams) (.stuck streams')

theorem SameLink.mono (h : SameLink K t link link') (htu : t ≤ u) : SameLink K u link link' := by
  cases h with
  | none => exact .none
  | some h => exact .some (K.mono h htu)

theorem SameLink.held (h : SameLink K t link link') :
    List.Forall₂ K.stream (link.map (·.stream)).toList (link'.map (·.stream)).toList := by
  cases h with
  | none => exact .nil
  | some h => exact .cons (K.held h) .nil

theorem Kinship.transcripts {streams streams' : List Stream}
    (h : List.Forall₂ K.stream streams streams') :
    streams'.map (·.transcript) = streams.map (·.transcript) := by
  induction h with
  | nil => rfl
  | cons h _ ih => rw [List.map_cons, List.map_cons, K.transcript h, ih]

namespace Phase.AlikeBy

theorem mono (h : p.AlikeBy K t p') (htu : t ≤ u) : p.AlikeBy K u p' := by
  cases h with
  | accepting => exact .accepting
  | dialling => exact .dialling
  | serving h => exact .serving (K.mono h htu)
  | fetching h => exact .fetching (K.mono h htu)
  | greeting h => exact .greeting (h.mono htu)
  | admitting h => exact .admitting (h.mono htu)
  | creating h => exact .creating (h.mono htu)
  | tracking h => exact .tracking (h.mono htu)
  | pausing => exact .pausing
  | draining => exact .draining
  | ended => exact .ended
  | stuck h => exact .stuck h

/-- Nothing that was written differs, nor when. -/
theorem transcripts (h : p.AlikeBy K t p') :
    p'.streams.map (·.transcript) = p.streams.map (·.transcript) := by
  cases h with
  | serving h | fetching h => exact K.transcripts (.cons (K.held h) .nil)
  | greeting h | admitting h | creating h => exact K.transcripts (.cons (K.refl _) h.held)
  | tracking h => exact K.transcripts h.held
  | stuck h => exact K.transcripts h
  | accepting | dialling | pausing | draining | ended => rfl

theorem isFinal_eq (h : p.AlikeBy K t p') : p'.isFinal = p.isFinal := by
  cases h <;> rfl

theorem ended_iff (h : p.AlikeBy K t p') (exit : Exit) : p' = .ended exit ↔ p = .ended exit := by
  cases h <;> simp

end Phase.AlikeBy

end Phases

/-- Both turns are the same for an onlooker. -/
structure Kinship.Turned (K : Kinship) (turn turn' : Link.Turn) : Prop where
  outcome : turn'.outcome = turn.outcome
  log : turn'.log = turn.log
  held : K.stream turn.link.stream turn'.link.stream
  link : ∀ t e, turn.outcome = some (t, .ok e) → K.link t turn.link turn'.link

/-- Both attempts to reach the peer go the same way. -/
inductive Kinship.Tried (K : Kinship) : Attempt → Attempt → Prop
  | linked {opened t l m} (h : K.link t l m) :
    Tried K (.dialled opened (.linked t l)) (.dialled opened (.linked t m))
  | unanswered {opened t e stream stream'} (h : K.stream stream stream') :
    Tried K (.dialled opened (.failed t e stream)) (.dialled opened (.failed t e stream'))
  | hung {opened stream stream'} (h : K.stream stream stream') :
    Tried K (.dialled opened (.never stream)) (.dialled opened (.never stream'))
  | failed {t e} : Tried K (.failed t e) (.failed t e)
  | never : Tried K .never .never

/-! ## Likeness that a step keeps -/

/-- The server with something else in the places where servers that are alike may differ. -/
def recast (s : Supervisor) (steps : Nat) (phase : Phase) (dials : Openings) (mailbox : Option Mailbox)
    (log : Log) : Supervisor :=
  { s with
    steps := steps, phase := phase, dials := dials, mailbox := mailbox
    record := { s.record with log := log } }

/-- `f` neither looks at those places nor fills them, and tells no event. -/
structure Blind (f : Supervisor → Supervisor) : Prop where
  recast : ∀ s steps phase dials mailbox log,
    f (s.recast steps phase dials mailbox log) = (f s).recast steps phase dials mailbox log
  events : ∀ s, (f s).record.events = s.record.events

/-- Those places are left as they were. -/
theorem Blind.recast_self {f : Supervisor → Supervisor} (hf : Blind f) (s : Supervisor) :
    f s = (f s).recast s.steps s.phase s.dials s.mailbox s.record.log :=
  hf.recast s s.steps s.phase s.dials s.mailbox s.record.log

/-- A likeness of servers that no step breaks. The first fields are what a step looks at, the others what
it does. -/
structure Lockstep (K : Kinship) (A : Supervisor → Supervisor → Prop) : Prop where
  clock {s s'} : A s s' → s'.clock = s.clock
  registry {s s'} : A s s' → s'.registry = s.registry
  exiting {s s'} : A s s' → s'.exiting = s.exiting
  retry {s s'} : A s s' → s'.retry = s.retry
  accepts {s s'} : A s s' → s'.accepts = s.accepts
  opened {s s'} : A s s' → s'.record.opened = s.record.opened
  map {s s' f} : A s s' → Blind f → A (f s) (f s')
  say {s s'} : A s s' → ∀ log, A (s.say log) (s'.say log)
  emit {s s'} : A s s' → ∀ e, A (s.emit e) (s'.emit e)
  become {s s' t p p'} : A s s' → p.AlikeBy K t p' → A (s.become p) (s'.become p')
  takeDial {s s'} : A s s' →
    A { s with dials := s.dials.take.2 } { s' with dials := s'.dials.take.2 }

/-- The servers are alike and do the same. -/
structure Abreast (K : Kinship) (A : Supervisor → Supervisor → Prop) (s s' : Supervisor) : Prop where
  alike : A s s'
  phase : s.phase.AlikeBy K s.clock s'.phase

theorem clock_drop (s : Supervisor) (stream : Stream) : (s.drop stream).clock = s.clock := rfl

theorem clock_emit (s : Supervisor) (e : Event) : (s.emit e).clock = s.clock :=
  (congrArg (·.clock) (quiet_emit s e) :)

namespace Lockstep

variable {K : Kinship} {A : Supervisor → Supervisor → Prop} {s s' : Supervisor} {w : World}
  {link link' : Option Link}

/-! ### What steps are made of -/

theorem moveTo (C : Lockstep K A) (h : A s s') (t : Instant) : A (s.moveTo t) (s'.moveTo t) :=
  C.map (f := (·.moveTo t)) h ⟨fun _ _ _ _ _ _ => rfl, fun _ => rfl⟩

theorem countStream (C : Lockstep K A) (h : A s s') : A s.countStream s'.countStream :=
  C.map (f := (·.countStream)) h ⟨fun _ _ _ _ _ _ => rfl, fun _ => rfl⟩

theorem noteDial (C : Lockstep K A) (h : A s s') (host : String) (port : UInt16) :
    A (s.noteDial host port) (s'.noteDial host port) :=
  C.map (f := (·.noteDial host port)) h ⟨fun _ _ _ _ _ _ => rfl, fun _ => rfl⟩

theorem noteJob (C : Lockstep K A) (h : A s s') (id : SessionId) (course : Option Worker.Course) :
    A (s.noteJob id course) (s'.noteJob id course) :=
  C.map (f := (·.noteJob id course)) h ⟨fun _ _ _ _ _ _ => rfl, fun _ => rfl⟩

theorem retire (C : Lockstep K A) (h : A s s') (t : Transcript) : A (s.retire t) (s'.retire t) :=
  C.map (f := (·.retire t)) h ⟨fun _ _ _ _ _ _ => rfl, fun _ => rfl⟩

theorem setRegistry (C : Lockstep K A) (h : A s s') (registry : Registry) :
    A { s with registry := registry } { s' with registry := registry } :=
  C.map (f := fun x => { x with registry := registry }) h ⟨fun _ _ _ _ _ _ => rfl, fun _ => rfl⟩

theorem sayAt (C : Lockstep K A) (h : A s s') (log : Instant → Log) :
    A (s.say (log s.clock)) (s'.say (log s'.clock)) := by
  rw [C.clock h]
  exact C.say h _

theorem drop (C : Lockstep K A) (h : A s s') {stream stream' : Stream}
    (hs : stream'.transcript = stream.transcript) : A (s.drop stream) (s'.drop stream') := by
  unfold Supervisor.drop
  rw [hs, C.clock h]
  exact C.retire h _

theorem closeLink {t : Instant} {l m : Link} (C : Lockstep K A) (h : A s s') (hl : K.link t l m) :
    A (s.closeLink l) (s'.closeLink m) := by
  unfold Supervisor.closeLink Link.closedTranscript
  rw [K.transcript (K.held hl), K.closeLog hl, C.clock h]
  exact C.retire (C.say h _) _

theorem goOn {p p' : Phase} (C : Lockstep K A) (h : A s s') (hp : p.AlikeBy K s.clock p') :
    Abreast K A (s.become p) (s'.become p') :=
  ⟨C.become h hp, hp⟩

theorem resume (C : Lockstep K A) (h : A s s') (hl : SameLink K s.clock link link') :
    Abreast K A (s.resume link) (s'.resume link') := by
  unfold Supervisor.resume
  rw [C.exiting h]
  cases hl with
  | none =>
    cases s.exiting with
    | false => exact C.goOn h .accepting
    | true => exact C.goOn h .draining
  | some hl =>
    cases s.exiting with
    | false => exact C.goOn h (.serving hl)
    | true => exact C.goOn (C.closeLink h hl) .draining

/-! ### Steps -/

theorem accept (C : Lockstep K A) (h : A s s') : Abreast K A s.accept s'.accept := by
  unfold Supervisor.accept
  rw [C.accepts h]
  rcases s.accepts.take with ⟨o, rest⟩
  have hrest : A { s with accepts := rest } { s' with accepts := rest } :=
    C.map (f := fun x => { x with accepts := rest }) h ⟨fun _ _ _ _ _ _ => rfl, fun _ => rfl⟩
  dsimp -proj only
  generalize { s with accepts := rest } = x at hrest ⊢
  generalize { s' with accepts := rest } = x' at hrest ⊢
  rw [C.opened hrest, C.clock hrest]
  cases o.ask x.record.opened "accept" x.clock with
  | stream t stream => exact C.goOn (C.countStream (C.moveTo hrest t)) (.greeting .none)
  | failed t reason => exact C.goOn (C.say (C.moveTo hrest t) _) .draining
  | never => exact C.goOn hrest (.stuck .nil)

theorem unreached (C : Lockstep K A) (h : A s s') (e : ConnectionError) :
    Abreast K A (s.unreached e) (s'.unreached e) :=
  C.goOn (C.emit (C.sayAt h fun now => [Log.warn now e.message]) _) .pausing

theorem connected {l m : Link} (C : Lockstep K A) (h : A s s') (hl : K.link s.clock l m)
    (target : Target) : Abreast K A (s.connected target l) (s'.connected target m) := by
  unfold Supervisor.connected
  rw [K.dataPort hl, C.clock h]
  refine C.goOn (C.emit (C.say h _) _) ?_
  rw [clock_emit]
  exact .serving hl

theorem dial (C : Lockstep K A) (h : A s s')
    (hc : K.Tried (connect w.target s.dials.take.1 s.record.opened s.clock)
      (connect w.target s'.dials.take.1 s.record.opened s.clock)) :
    Abreast K A (s.dial w) (s'.dial w) := by
  have htaken := C.takeDial h
  unfold Supervisor.dial
  generalize s.dials.take = taken at hc htaken ⊢
  generalize s'.dials.take = taken' at hc htaken ⊢
  obtain ⟨o, rest⟩ := taken
  obtain ⟨o', rest'⟩ := taken'
  have hnoted := C.noteDial (C.sayAt htaken fun now => [w.target.dialEntry now])
    w.target.host w.target.port
  dsimp -proj only at hnoted ⊢
  generalize hx : ({ s with dials := rest }.say [w.target.dialEntry s.clock]).noteDial
    w.target.host w.target.port = x at hnoted ⊢
  generalize ({ s' with dials := rest' }.say [w.target.dialEntry s'.clock]).noteDial
    w.target.host w.target.port = x' at hnoted ⊢
  have hx : x.record.opened = s.record.opened ∧ x.clock = s.clock := by
    rw [← hx]
    exact ⟨rfl, rfl⟩
  rw [C.opened hnoted, C.clock hnoted, hx.1, hx.2]
  generalize connect w.target o s.record.opened s.clock = a at hc ⊢
  generalize connect w.target o' s.record.opened s.clock = b at hc ⊢
  have hsaid := fun t => C.say (C.countStream (C.moveTo hnoted t)) [Link.encodeEntry t .start]
  cases hc with
  | linked hl => exact C.connected (C.moveTo (hsaid _) _) hl w.target
  | unanswered hs => exact C.unreached (C.drop (C.moveTo (hsaid _) _) (K.transcript hs)) _
  | hung hs => exact C.goOn (hsaid _) (.stuck (.cons hs .nil))
  | failed => exact C.unreached (C.moveTo hnoted _) _
  | never => exact C.goOn hnoted (.stuck .nil)

theorem lost {l m : Link} (C : Lockstep K A) (h : A s s')
    (hl : K.stream l.stream m.stream) (e : ConnectionError) :
    Abreast K A (s.lost l e) (s'.lost m e) :=
  C.goOn (C.drop (C.emit (C.sayAt h fun now =>
    [Log.warn now ("Control connection lost: " ++ e.message)]) _) (K.transcript hl)) .pausing

theorem obey {l m : Link} (C : Lockstep K A) (h : A s s') (hl : K.link s.clock l m)
    (e : Control.Event) : Abreast K A (s.obey l e) (s'.obey m e) := by
  cases e with
  | openData => exact C.goOn h (.fetching hl)
  | stop =>
    simp only [Supervisor.obey, Supervisor.stop, C.clock h, C.registry h]
    exact C.goOn (C.say (C.closeLink h hl) _) .ended
  | pingSent =>
    refine C.goOn (C.emit h _) ?_
    rw [clock_emit]
    exact .serving hl
  | idle => exact C.goOn h (.serving hl)

theorem takeTurn {l m : Link} (C : Lockstep K A) (h : A s s')
    (hturn : K.Turned (l.next s.clock) (m.next s.clock)) :
    Abreast K A (s.takeTurn l) (s'.takeTurn m) := by
  unfold Supervisor.takeTurn
  rw [C.clock h]
  generalize l.next s.clock = turn at hturn ⊢
  generalize m.next s.clock = turn' at hturn ⊢
  have hsaid := C.say h turn.log
  dsimp only
  rw [hturn.outcome, hturn.log]
  rcases ho : turn.outcome with _ | ⟨t, result⟩
  · exact C.goOn hsaid (.stuck (.cons hturn.held .nil))
  · cases result with
    | error e => exact C.lost (C.moveTo hsaid t) hturn.held e
    | ok e => exact C.obey (C.moveTo hsaid t) (hturn.link t e ho) e

theorem fetch {l m : Link} (C : Lockstep K A) (h : A s s') (hl : K.link s.clock l m)
    (hd : s'.dials.take.1 = s.dials.take.1) : Abreast K A (s.fetch w l) (s'.fetch w m) := by
  have htaken := C.takeDial h
  unfold Supervisor.fetch
  generalize s.dials.take = taken at hd htaken ⊢
  generalize s'.dials.take = taken' at hd htaken ⊢
  obtain ⟨o, rest⟩ := taken
  obtain ⟨_, rest'⟩ := taken'
  cases hd
  have hnoted := C.noteDial htaken w.config.host l.dataPort
  have hnow : ({ s with dials := rest }.noteDial w.config.host l.dataPort).clock = s.clock := rfl
  dsimp -proj only at hnoted ⊢
  rw [K.dataPort hl]
  generalize { s with dials := rest }.noteDial w.config.host l.dataPort = x at hnoted hnow ⊢
  generalize { s' with dials := rest' }.noteDial w.config.host l.dataPort = x' at hnoted ⊢
  rw [C.opened hnoted, C.clock hnoted]
  rw [← hnow] at hl
  cases ha : o.ask x.record.opened (w.config.host ++ ":" ++ toString l.dataPort.toNat) x.clock with
  | stream t stream =>
    have hl := K.mono hl (le_of_ask_stream ha)
    exact C.goOn (C.countStream (C.moveTo hnoted t)) (.greeting (.some hl))
  | failed t reason =>
    have hl := K.mono hl (le_of_ask_failed ha)
    exact C.resume (C.say (C.moveTo hnoted t) _) (.some hl)
  | never => exact C.goOn hnoted (.stuck (.cons (K.held hl) .nil))

theorem requestExit {stream : Stream} (C : Lockstep K A) (h : A s s')
    (hl : SameLink K s.clock link link') :
    Abreast K A (s.requestExit stream link) (s'.requestExit stream link') := by
  have hexit : A { s with exiting := true } { s' with exiting := true } :=
    C.map (f := fun x => { x with exiting := true }) h ⟨fun _ _ _ _ _ _ => rfl, fun _ => rfl⟩
  have hsaid := C.sayAt hexit fun now => [Log.info now "Client requested server exit"]
  refine C.resume (C.drop (C.emit hsaid _) rfl) ?_
  rw [clock_drop, clock_emit]
  exact hl

theorem number {stream : Stream} (C : Lockstep K A) (h : A s s') (hl : SameLink K s.clock link link') :
    Abreast K A (s.number stream link) (s'.number stream link') := by
  unfold Supervisor.number
  rw [C.registry h]
  exact C.goOn (C.setRegistry h _) (.admitting hl)

theorem greet {stream : Stream} (C : Lockstep K A) (h : A s s') (hl : SameLink K s.clock link link') :
    Abreast K A (s.greet stream link) (s'.greet stream link') := by
  unfold Supervisor.greet
  rw [C.clock h]
  cases hg : Greeting.read stream s.clock with
  | flags t flags rest =>
    have hl := hl.mono (Greeting.le_of_read_flags hg)
    dsimp only
    split
    · exact C.requestExit (C.moveTo h t) hl
    · exact C.number (C.moveTo h t) hl
  | failed t e =>
    have hl := hl.mono (Greeting.le_of_read_failed hg)
    exact C.resume (C.drop (C.say (C.moveTo h t) _) rfl) hl
  | never => exact C.goOn h (.stuck (.cons (K.refl stream) hl.held))

theorem reject {stream : Stream} (C : Lockstep K A) (h : A s s') (hl : SameLink K s.clock link link')
    (id : SessionId) (e : SessionError) :
    Abreast K A (s.reject id stream link e) (s'.reject id stream link' e) := by
  have hsaid := C.sayAt h fun now => [Log.warn now ("Failed to start " ++ id.text ++ ": " ++ e.message)]
  refine C.resume (C.drop (C.emit hsaid _) rfl) ?_
  rw [clock_drop, clock_emit]
  exact hl

theorem checkRoom {stream : Stream} (C : Lockstep K A) (h : A s s')
    (hl : SameLink K s.clock link link') (id : SessionId) :
    Abreast K A (s.checkRoom id stream link) (s'.checkRoom id stream link') := by
  unfold Supervisor.checkRoom
  rw [C.registry h, C.clock h]
  cases s.registry.checkCapacity s.clock with
  | ok _ => exact C.goOn h (.creating hl)
  | error e => exact C.reject h hl id e

theorem launch (C : Lockstep K A) (h : A s s') (hl : SameLink K s.clock link link') (id : SessionId)
    (course : Worker.Course) : Abreast K A (s.launch id course link) (s'.launch id course link') := by
  unfold Supervisor.launch
  rw [C.clock h]
  have hretired := C.retire (C.say h (Session.startEntry id s.clock :: course.log)) course.transcript
  exact C.goOn (C.map (f := fun x => { x with record := { x.record with
    started := x.record.started ++ [Session.start id s.clock course.ending] } }) hretired
    ⟨fun _ _ _ _ _ _ => rfl, fun _ => rfl⟩) (.tracking hl)

theorem create {stream : Stream} (C : Lockstep K A) (h : A s s') (hl : SameLink K s.clock link link')
    (id : SessionId) : Abreast K A (s.create w id stream link) (s'.create w id stream link') := by
  unfold Supervisor.create
  rw [C.clock h]
  cases w.worker.create id stream s.clock with
  | ok course => exact C.launch (C.noteJob h id _) hl id course
  | error e => exact C.reject (C.noteJob h id _) hl id e

theorem track (C : Lockstep K A) (h : A s s') (hl : SameLink K s.clock link link')
    (session : Session) : Abreast K A (s.track session link) (s'.track session link') := by
  have hsweep : s'.registry.sweep s'.clock = s.registry.sweep s.clock := by
    rw [C.registry h, C.clock h]
  unfold Supervisor.track
  rw [hsweep]
  generalize s.registry.sweep s.clock = sweep
  have hswept := C.say (C.map (f := fun x => { x with
    registry := sweep.registry
    record := { x.record with reaped := x.record.reaped ++ sweep.gone } }) h
    ⟨fun _ _ _ _ _ _ => rfl, fun _ => rfl⟩) sweep.log
  dsimp -proj only at hswept ⊢
  generalize hx : Supervisor.say { s with
    registry := sweep.registry
    record := { s.record with reaped := s.record.reaped ++ sweep.gone } } sweep.log = x at hswept ⊢
  generalize Supervisor.say { s' with
    registry := sweep.registry
    record := { s'.record with reaped := s'.record.reaped ++ sweep.gone } } sweep.log = x' at hswept ⊢
  have hnow : s.clock = x.clock := by rw [← hx]; rfl
  rw [hnow] at hl
  rw [C.registry hswept]
  cases x.registry.insert session with
  | error other =>
    exact C.resume (C.sayAt hswept fun now =>
      [Log.error now (other.id.text ++ " is already tracked")]) hl
  | ok registry =>
    have hsaid := C.sayAt (C.setRegistry hswept registry) fun now =>
      [Log.debug now ("Started " ++ session.id.text ++ " (" ++ toString registry.size ++ " tracked)")]
    refine C.resume (C.emit hsaid _) ?_
    rw [clock_emit]
    exact hl

theorem pause (C : Lockstep K A) (h : A s s') : Abreast K A (s.pause w) (s'.pause w) := by
  have hsaid := C.sayAt (C.map (f := fun x => { x with retry := s.retry.next }) h
    ⟨fun _ _ _ _ _ _ => rfl, fun _ => rfl⟩) fun now => [s.retry.next.announcement now]
  unfold Supervisor.pause
  rw [C.retry h]
  dsimp -proj only at hsaid ⊢
  generalize { s with retry := s.retry.next }.say [s.retry.next.announcement s.clock] = x at hsaid ⊢
  generalize { s' with retry := s.retry.next }.say [s.retry.next.announcement s'.clock] = x' at hsaid ⊢
  rw [C.clock hsaid]
  exact C.goOn (C.moveTo hsaid _) .dialling

theorem finalize (C : Lockstep K A) (h : A s s') (joined : Nat) :
    Abreast K A (s.finalize joined) (s'.finalize joined) := by
  have hnoted := C.map (f := fun x => { x with record := { x.record with
    finalized := x.record.finalized ++ [x.clock] } }) h ⟨fun _ _ _ _ _ _ => rfl, fun _ => rfl⟩
  have hsaid := C.sayAt hnoted fun now => [Worker.finalizeEntry now,
    Log.info now ("Render server drained " ++ toString joined ++ " session(s)")]
  exact C.goOn (C.emit hsaid _) .ended

theorem drain (C : Lockstep K A) (h : A s s') : Abreast K A s.drain s'.drain := by
  have hdrain : s'.registry.drain s'.clock = s.registry.drain s.clock := by
    rw [C.registry h, C.clock h]
  have hsize : s'.registry.size = s.registry.size := by rw [C.registry h]
  unfold Supervisor.drain
  rw [hdrain, hsize]
  rcases s.registry.drain s.clock with ⟨d, registry⟩
  have hjoined := C.say (C.map (f := fun x => { x with
    registry := registry
    record := { x.record with joined := x.record.joined ++ d.sessions } }) h
    ⟨fun _ _ _ _ _ _ => rfl, fun _ => rfl⟩) d.log
  dsimp -proj only at hjoined ⊢
  cases d.time with
  | some t => exact C.finalize (C.moveTo hjoined t) _
  | none => exact C.goOn hjoined (.stuck .nil)

/-- What the one does next is what the other does, if it takes the same turn, dials the peer to the same
end, and comes upon the same stream for data. -/
theorem act (C : Lockstep K A) (h : Abreast K A s s')
    (hturn : ∀ l m, s.phase = .serving l → s'.phase = .serving m →
      K.Turned (l.next s.clock) (m.next s.clock))
    (hdial : s.phase = .dialling → K.Tried (connect w.target s.dials.take.1 s.record.opened s.clock)
      (connect w.target s'.dials.take.1 s.record.opened s.clock))
    (hdata : ∀ link, s.phase = .fetching link → s'.dials.take.1 = s.dials.take.1) :
    Abreast K A (s.act w) (s'.act w) := by
  have hphase := h.phase
  unfold Supervisor.act
  generalize hp : s.phase = p at hphase ⊢
  generalize hp' : s'.phase = p' at hphase ⊢
  cases hphase with
  | accepting => exact C.accept h.alike
  | dialling => exact C.dial h.alike (hdial hp)
  | serving => exact C.takeTurn h.alike (hturn _ _ hp hp')
  | fetching hl => exact C.fetch h.alike hl (hdata _ hp)
  | greeting hl => exact C.greet h.alike hl
  | admitting hl => exact C.checkRoom h.alike hl _
  | creating hl => exact C.create h.alike hl _
  | tracking hl => exact C.track h.alike hl _
  | pausing => exact C.pause h.alike
  | draining => exact C.drain h.alike
  | ended | stuck => exact h

end Lockstep

end StreamServer.Supervisor
