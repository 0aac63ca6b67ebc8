/-
The streams a server opens to its peer. There is at most one at a time: the
stream of the control connection stays the same from one turn to the next and
while data streams are dealt with, and it is let go of, and that is noted,
before the peer is dialled again.
-/
import StreamServer.Proofs.Runs

namespace StreamServer

/-! ## A connection keeps its stream -/

section

variable {α : Type} {p : Link → α} (hin : ∀ l inbox, p (l.withInbox inbox) = p l)
  (hsend : ∀ l now c, p (Link.send l now c).2 = p l)
  (hlive : ∀ (l : Link) v, p { l with liveness := v } = p l)

include hsend

theorem Link.sending_keeps {l : Link} {now : Instant} {c : Command} {log : Log}
    {after : Link → Instant → Turn} (hafter : ∀ l t, p (after l t).link = p l) :
    p (l.sending now c log after).link = p l := by
  have h := hsend l now c
  unfold sending
  dsimp only
  split <;> rename_i hs <;> rw [hs] at h
  · exact (hafter _ _).trans h
  · exact h
  · exact h

include hlive

theorem Link.dispatch_keeps (l : Link) (now : Instant) (c : Command) :
    p (l.dispatch now c).link = p l := by
  cases c with
  | ping => exact sending_keeps hsend fun _ _ => rfl
  | pong => exact hlive ..
  | new | stop | start | unknown _ => rfl

theorem Link.onSilence_keeps (l : Link) (now : Instant) : p (l.onSilence now).link = p l := by
  unfold onSilence
  split
  · exact sending_keeps hsend fun _ _ => hlive ..
  · rfl
  · rfl

include hin

/-- A turn reads, writes and looks after the ping; whatever does not depend on these, it keeps. -/
theorem Link.next_keeps (l : Link) (now : Instant) : p (l.next now).link = p l := by
  unfold next
  cases Control.await (now.timeout? l.liveness.timeout) now l.buffer l.stream.arrivals with
  | received t what rest =>
    cases what with
    | word w => exact (dispatch_keeps hsend hlive _ t (.ofWord w)).trans (hin l rest)
    | closed | failed _ => exact hin l rest
  | silence t rest => exact (onSilence_keeps hsend hlive _ t).trans (hin l rest)
  | never => rfl

end

theorem Link.serial_next (l : Link) (now : Instant) :
    (l.next now).link.stream.serial = l.stream.serial :=
  next_keeps (p := fun l => l.stream.serial) (fun _ _ => rfl) (fun _ _ _ => rfl) (fun _ _ => rfl) l now

theorem Link.dataPort_next (l : Link) (now : Instant) : (l.next now).link.dataPort = l.dataPort :=
  next_keeps (p := Link.dataPort) (fun _ _ => rfl) (fun _ _ _ => rfl) (fun _ _ => rfl) l now

/-- The stream that shaking hands ends with. -/
def Control.Handshake.stream : Control.Handshake → Stream
  | .linked _ link => link.stream
  | .failed _ _ stream | .never stream => stream

theorem Control.serial_handshake (timeout : Duration) (stream : Stream) (now : Instant) :
    (Control.handshake timeout stream now).stream.serial = stream.serial := by
  unfold Control.handshake
  dsimp only
  split
  · unfold Control.answered
    split
    · dsimp only
      split <;> rfl
    all_goals rfl
  · rfl
  · rfl

/-- What became of the dial that an attempt to connect began with. -/
def Control.Attempt.Asked (target : Target) (asked : Opened) : Attempt → Prop
  | .dialled t h => ∃ stream, asked = .stream t stream ∧ handshake target.pingTimeout stream t = h
  | .failed t e => ∃ reason, asked = .failed t reason ∧ e = .dial target.text reason
  | .never => asked = .never

theorem Control.asked_of_connect {target : Target} {o : Opening} {serial : Nat} {now : Instant}
    {attempt : Attempt} (h : connect target o serial now = attempt) :
    attempt.Asked target (o.ask serial target.text now) := by
  subst h
  unfold connect
  cases o.ask serial target.text now with
  | stream t stream => exact ⟨stream, rfl, rfl⟩
  | failed t reason => exact ⟨reason, rfl, rfl⟩
  | never => rfl

theorem serial_of_ask {o : Opening} {serial : Nat} {peer : String} {now t : Instant}
    {stream : Stream} (h : o.ask serial peer now = .stream t stream) : stream.serial = serial := by
  cases o <;> cases h
  rfl

namespace Supervisor

variable {w : World} {s s' : Supervisor} {n : Nat}

/-! ## One control connection at a time -/

/-- The control connection that a server has in a phase. -/
def Phase.link? : Phase → Option Link
  | .serving link | .fetching link => some link
  | .greeting _ link | .admitting _ _ link | .creating _ _ link | .tracking _ link => link
  | _ => none

/-- The stream with this serial was let go of. -/
def released (s : Supervisor) (serial : Nat) : Bool :=
  s.record.transcripts.any fun t => t.serial = serial ∧ t.dropped.any (· ≤ s.clock)

/-- The serial of the stream that the next step opens to the peer, if it opens one. -/
def opensControl (w : World) (s : Supervisor) : Option Nat :=
  if s.phase = .dialling ∧ s.record.opened < (s.step w).record.opened then some s.record.opened
  else none

/-- The serials of all streams that were opened to the peer in the first `n` steps. -/
def controlsBy (w : World) (s : Supervisor) (n : Nat) : List Nat :=
  (List.range n).filterMap fun k => opensControl w (run w k s)

theorem controlsBy_succ (w : World) (s : Supervisor) (n : Nat) :
    controlsBy w s (n + 1) = controlsBy w s n ++ (opensControl w (run w n s)).toList := by
  cases h : opensControl w (run w n s) <;> simp [controlsBy, List.range_succ, h]

theorem released_of_prefix {serial : Nat} (hc : s.clock ≤ s'.clock)
    (ht : s.record.transcripts <+: s'.record.transcripts) (h : s.released serial = true) :
    s'.released serial = true := by
  unfold released at h ⊢
  simp only [List.any_eq_true, decide_eq_true_eq, Option.any_eq_true] at h ⊢
  obtain ⟨t, hmem, hserial, d, hd, hle⟩ := h
  exact ⟨t, ht.subset hmem, hserial, d, hd, Nat.le_trans hle hc⟩

/-- Telling an event touches no stream. -/
theorem streams_emit (s : Supervisor) (e : Event) :
    (s.emit e).record.transcripts = s.record.transcripts ∧
      (s.emit e).record.opened = s.record.opened ∧ (s.emit e).clock = s.clock := by
  unfold emit
  dsimp only
  split
  · exact ⟨rfl, rfl, rfl⟩
  · split <;> exact ⟨rfl, rfl, rfl⟩

/-- What has become of the stream of a control connection after a step: it is the stream of the
connection still, or is held by a server to which nothing more will happen, or it was let go of then,
with all that was written on it noted, and there is no connection. -/
inductive Custody (stream : Stream) (s : Supervisor) : Prop
  | kept {link} (hl : s.phase.link? = some link) (hs : link.stream = stream)
  | stuck {streams} (hp : s.phase = .stuck streams) (hs : stream ∈ streams)
  | dropped {t} (hl : s.phase.link? = none) (ht : t ∈ s.record.transcripts)
      (hserial : t.serial = stream.serial) (hwrites : t.writes = stream.outlet.written)
      (hd : t.dropped = some s.clock)

theorem released_of_dropped {serial : Nat} {t : Transcript} (ht : t ∈ s.record.transcripts)
    (hserial : t.serial = serial) (hd : t.dropped = some s.clock) : s.released serial = true := by
  simp only [released, List.any_eq_true, decide_eq_true_eq]
  exact ⟨t, ht, hserial, by simp [hd]⟩

/-- A stream that is let go of, and nothing noted after it. -/
theorem Custody.retired {stream : Stream} {t : Transcript} (hl : s.phase.link? = none)
    (hlast : s.record.transcripts.getLast? = some t) (hserial : t.serial = stream.serial)
    (hwrites : t.writes = stream.outlet.written) (hd : t.dropped = some s.clock) :
    Custody stream s :=
  .dropped hl (List.mem_of_getLast? hlast) hserial hwrites hd

/-- As far as the serial of the stream goes. -/
theorem Custody.serial {stream : Stream} (h : Custody stream s) :
    (∃ link, s.phase.link? = some link ∧ link.stream.serial = stream.serial) ∨
      (∃ streams, s.phase = .stuck streams) ∨
      (s.phase.link? = none ∧ s.released stream.serial = true) := by
  cases h with
  | kept hl hs => exact .inl ⟨_, hl, by rw [hs]⟩
  | stuck hp => exact .inr (.inl ⟨_, hp⟩)
  | dropped hl ht hserial _ hd => exact .inr (.inr ⟨hl, released_of_dropped ht hserial hd⟩)

theorem resume_custody (s : Supervisor) (link : Link) :
    Custody link.stream (s.resume (some link)) := by
  unfold resume
  cases s.exiting with
  | false => exact .kept rfl rfl
  | true => exact .retired rfl (List.getLast?_concat ..) rfl rfl rfl

theorem takeTurn_custody (s : Supervisor) (link : Link) :
    Custody (link.next s.clock).link.stream (s.takeTurn link) := by
  unfold takeTurn
  dsimp only
  split
  · rename_i t event _
    cases event with
    | openData | idle => exact .kept rfl rfl
    | pingSent => exact .kept rfl rfl
    | stop => exact .retired rfl (List.getLast?_concat ..) rfl rfl rfl
  · exact .retired rfl (List.getLast?_concat ..) rfl rfl rfl
  · exact .stuck rfl (List.mem_singleton.2 rfl)

theorem fetch_custody (w : World) (s : Supervisor) (link : Link) :
    Custody link.stream (s.fetch w link) := by
  unfold fetch
  dsimp only
  split
  · exact .kept rfl rfl
  · exact resume_custody ..
  · exact .stuck rfl (List.mem_singleton.2 rfl)

theorem greet_custody (s : Supervisor) (stream : Stream) (link : Link) :
    Custody link.stream (s.greet stream (some link)) := by
  unfold greet
  split
  · split
    · exact resume_custody ..
    · exact .kept rfl rfl
  · exact resume_custody ..
  · exact .stuck rfl (by simp)

theorem checkRoom_custody (s : Supervisor) (id : SessionId) (stream : Stream) (link : Link) :
    Custody link.stream (s.checkRoom id stream (some link)) := by
  unfold checkRoom
  split
  · exact .kept rfl rfl
  · exact resume_custody ..

theorem create_custody (w : World) (s : Supervisor) (id : SessionId) (stream : Stream) (link : Link) :
    Custody link.stream (s.create w id stream (some link)) := by
  unfold create
  split
  · exact .kept rfl rfl
  · exact resume_custody ..

theorem track_custody (s : Supervisor) (session : Session) (link : Link) :
    Custody link.stream (s.track session (some link)) := by
  unfold track
  dsimp only
  split <;> exact resume_custody ..

/-- The stream of the control connection as the next step leaves it: only a turn changes it. -/
def streamAfter (w : World) (s : Supervisor) (link : Link) : Stream :=
  match s.phase with
  | .serving _ => (link.next (s.ready w).clock).link.stream
  | _ => link.stream

theorem serial_streamAfter (w : World) (s : Supervisor) (link : Link) :
    (streamAfter w s link).serial = link.stream.serial := by
  unfold streamAfter
  split
  · exact link.serial_next _
  · rfl

/-- A step loses sight of no control connection. -/
theorem step_custody {link : Link} (h : s.phase.link? = some link) :
    Custody (streamAfter w s link) (s.step w) := by
  have hact : ∀ phase, s.phase = phase → phase.isFinal = false →
      s.step w = { s.ready w with phase := phase }.act w := by
    rintro _ rfl hf
    exact step_of_not_final hf
  unfold streamAfter
  cases hp : s.phase with rw [hp] at h
  | serving l =>
    cases h
    rw [hact _ hp rfl]
    exact takeTurn_custody { s.ready w with phase := .serving link } link
  | fetching l =>
    cases h
    rw [hact _ hp rfl]
    exact fetch_custody ..
  | greeting stream l =>
    cases h
    rw [hact _ hp rfl]
    exact greet_custody ..
  | admitting id stream l =>
    cases h
    rw [hact _ hp rfl]
    exact checkRoom_custody ..
  | creating id stream l =>
    cases h
    rw [hact _ hp rfl]
    exact create_custody ..
  | tracking session l =>
    cases h
    rw [hact _ hp rfl]
    exact track_custody ..
  | _ => cases h

/-- A dial opens no stream, or one that is the stream of the connection, or is held by a server to
which nothing more will happen, or was let go of. -/
theorem dial_custody (w : World) (s : Supervisor) :
    ((s.dial w).record.opened = s.record.opened ∧ (s.dial w).phase.link? = none ∧ ∀ t stream,
        s.dials.take.1.ask s.record.opened w.target.text s.clock ≠ .stream t stream) ∨
      ((s.dial w).record.opened = s.record.opened + 1 ∧ ∃ t stream,
        s.dials.take.1.ask s.record.opened w.target.text s.clock = .stream t stream ∧
        Custody (Control.handshake w.target.pingTimeout stream t).stream (s.dial w)) := by
  unfold dial
  dsimp only
  split <;> rename_i hc <;> have hasked := Control.asked_of_connect hc
  · rename_i handshake
    obtain ⟨stream, ha, hh⟩ := hasked
    refine .inr ⟨?_, _, stream, ha, ?_⟩
    · cases handshake with
      | linked | failed => exact (streams_emit ..).2.1
      | never => rfl
    · rw [hh]
      cases handshake with
      | linked => exact .kept rfl rfl
      | failed =>
        exact .retired rfl ((congrArg List.getLast? (streams_emit ..).1).trans
          (List.getLast?_concat ..)) rfl rfl (congrArg some (Eq.symm (streams_emit ..).2.2))
      | never => exact .stuck rfl (List.mem_singleton.2 rfl)
  · obtain ⟨reason, ha, -⟩ := hasked
    exact .inl ⟨(streams_emit ..).2.1, rfl, fun _ _ h => by cases ha.symm.trans h⟩
  · exact .inl ⟨rfl, rfl, fun _ _ h => by cases hasked.symm.trans h⟩

theorem step_of_dialling (hp : s.phase = .dialling) : s.step w = (s.ready w).dial w := by
  rw [step_of_not_final (by rw [hp]; rfl)]
  unfold act
  rw [show (s.ready w).phase = .dialling from hp]

/-! ### Along a run -/

theorem Transition.opened_le (h : Transition w s s') : s.record.opened ≤ s'.record.opened := by
  cases h with
  | accepted | unanswered | connected | handshakeHung | fetched => exact Nat.le_succ _
  | _ => exact Nat.le_refl _

theorem step_opened_le (w : World) (s : Supervisor) :
    s.record.opened ≤ (s.step w).record.opened := by
  cases hf : s.phase.isFinal with
  | true => exact Nat.le_of_eq (by rw [step_of_final hf])
  | false => exact (step_transition (w := w) hf).opened_le

/-- The connection that a server has when a stream was dealt with, it had meanwhile. -/
theorem afterStream_link? {link : Option Link} {link' : Link}
    (h : (s.afterStream link).link? = some link') : link = some link' := by
  unfold afterStream at h
  split at h
  · cases h
  · cases link with
    | none => cases h
    | some link => exact h

/-- Only by dialling its peer does a server come by a control connection. -/
theorem Transition.link?_eq_none (h : Transition w s s') (hl : s.phase.link? = none)
    (hd : s.phase ≠ .dialling) : s'.phase.link? = none := by
  have back : ∀ link : Option Link, link = none → (s.afterStream link).link? = none := by
    rintro _ rfl
    unfold afterStream
    split <;> rfl
  cases h with
  | unreached hp | unanswered hp | connected hp | dialHung hp | handshakeHung hp =>
    exact absurd hp hd
  | notFetched hp | ordered hp | pinged hp | idled hp | fetched hp =>
    rw [hp] at hl
    cases hl
  | dismissed hp | full hp | refused hp | tracked hp | duplicate hp =>
    rw [hp] at hl
    exact back _ hl
  | numbered hp | admitted hp | launched hp =>
    rw [hp] at hl
    exact hl
  | _ => rfl

@[simp] theorem transcripts_say (s : Supervisor) (log : Log) :
    (s.say log).record.transcripts = s.record.transcripts := rfl

@[simp] theorem transcripts_become (s : Supervisor) (phase : Phase) :
    (s.become phase).record.transcripts = s.record.transcripts := rfl

@[simp] theorem transcripts_moveTo (s : Supervisor) (t : Instant) :
    (s.moveTo t).record.transcripts = s.record.transcripts := rfl

@[simp] theorem transcripts_countStream (s : Supervisor) :
    s.countStream.record.transcripts = s.record.transcripts := rfl

@[simp] theorem transcripts_noteDial (s : Supervisor) (host : String) (port : UInt16) :
    (s.noteDial host port).record.transcripts = s.record.transcripts := rfl

@[simp] theorem transcripts_noteJob (s : Supervisor) (id : SessionId) (course : Option Worker.Course) :
    (s.noteJob id course).record.transcripts = s.record.transcripts := rfl

@[simp] theorem transcripts_emit (s : Supervisor) (e : Event) :
    (s.emit e).record.transcripts = s.record.transcripts := (s.streams_emit e).1

@[simp] theorem transcripts_retire (s : Supervisor) (t : Transcript) :
    (s.retire t).record.transcripts = s.record.transcripts ++ [t] := rfl

theorem transcripts_resume (s : Supervisor) (link : Option Link) :
    s.record.transcripts <+: (s.resume link).record.transcripts := by
  unfold resume
  split <;> simp [closeLink]

/-- Nothing that was noted of a stream is forgotten. -/
theorem act_transcripts (w : World) (s : Supervisor) :
    s.record.transcripts <+: (s.act w).record.transcripts := by
  have resumed : ∀ (s' : Supervisor) link, s.record.transcripts <+: s'.record.transcripts →
      s.record.transcripts <+: (s'.resume link).record.transcripts := fun s' link h =>
    h.trans (s'.transcripts_resume link)
  have rejected : ∀ (s' : Supervisor) id stream link e,
      s.record.transcripts <+: s'.record.transcripts →
      s.record.transcripts <+: (s'.reject id stream link e).record.transcripts :=
    fun s' id stream link e h => resumed _ _ (by simpa [drop] using h.trans (List.prefix_append ..))
  -- One case for each phase, in the order of `Phase`.
  unfold act
  split
  · unfold accept
    dsimp only
    split <;> simp
  · unfold dial
    dsimp only
    split
    · rename_i handshake _
      cases handshake <;> simp [shaken, connected, unreached, drop]
    · simp [unreached]
    · simp
  · rename_i link _
    unfold takeTurn
    dsimp only
    split
    · rename_i event _
      cases event <;> simp [obey, stop, closeLink]
    · simp [lost, drop]
    · simp
  · unfold fetch
    dsimp only
    split
    · simp
    · exact resumed _ _ (by simp)
    · simp
  · unfold greet
    split
    · split
      · exact resumed _ _ (by simp [drop])
      · simp [number]
    · exact resumed _ _ (by simp [drop])
    · simp
  · unfold checkRoom
    split
    · simp
    · exact rejected _ _ _ _ _ (by simp)
  · unfold create
    split
    · simp [launch]
    · exact rejected _ _ _ _ _ (by simp)
  · unfold track
    dsimp only
    split
    · exact resumed _ _ (by simp)
    · exact resumed _ _ (by simp)
  · simp [pause]
  · unfold drain
    dsimp only
    split <;> simp [finalize]
  · simp
  · simp

theorem step_transcripts (w : World) (s : Supervisor) :
    s.record.transcripts <+: (s.step w).record.transcripts := by
  cases hf : s.phase.isFinal with
  | true => simp [step_of_final hf]
  | false =>
    rw [step_of_not_final hf]
    exact act_transcripts w (s.ready w)

theorem released_step {c : Nat} (h : s.released c = true) : (s.step w).released c = true :=
  released_of_prefix (step_clock_le w s) (step_transcripts w s) h

/-- All streams that were opened to the peer are let go of, but for the one of the control
connection, or one that a server holds to which nothing more will happen. -/
def Lone (controls : List Nat) (s : Supervisor) : Prop :=
  ∃ held : Option Nat, (∀ c ∈ controls, s.released c = true ∨ held = some c) ∧
    ((∃ streams, s.phase = .stuck streams) ∨ held = s.phase.link?.map (·.stream.serial))

theorem opensControl_of_ne (hd : s.phase ≠ .dialling) : opensControl w s = none := by
  simp [opensControl, hd]

theorem Lone.of_dialling {controls : List Nat} (hp : s.phase = .dialling)
    (hall : ∀ c ∈ controls, (s.step w).released c = true) :
    Lone (controls ++ (opensControl w s).toList) (s.step w) := by
  have hcustody := dial_custody w (s.ready w)
  rw [← step_of_dialling hp] at hcustody
  rcases hcustody with ⟨hopened, hl, -⟩ | ⟨hopened, t, stream, ha, hc⟩
  · have hnone : opensControl w s = none :=
      if_neg fun h => absurd h.2 (Nat.not_lt_of_le (Nat.le_of_eq hopened))
    rw [hnone, Option.toList_none, List.append_nil]
    exact ⟨none, fun c hc => .inl (hall c hc), .inr (by rw [hl]; rfl)⟩
  · have hsome : opensControl w s = some s.record.opened :=
      if_pos ⟨hp, by rw [hopened]; exact Nat.lt_succ_self _⟩
    rw [hsome, Option.toList_some]
    -- The stream that was just opened is the only one that may not have been let go of.
    have hnew : ∀ c ∈ controls ++ [s.record.opened],
        (s.step w).released c = true ∨ some s.record.opened = some c := by
      intro c hc
      rcases List.mem_append.1 hc with hc | hc
      · exact .inl (hall c hc)
      · exact .inr (by rw [List.mem_singleton.1 hc])
    have hserial := (Control.serial_handshake w.target.pingTimeout stream t).trans (serial_of_ask ha)
    have hfate := hc.serial
    rw [hserial] at hfate
    rcases hfate with ⟨link, hl, hs⟩ | hp | ⟨hl, hr⟩
    · exact ⟨_, hnew, .inr (by rw [hl, Option.map_some, hs]; rfl)⟩
    · exact ⟨_, hnew, .inl hp⟩
    · refine ⟨none, fun c hc => .inl ?_, .inr (by rw [hl]; rfl)⟩
      rcases hnew c hc with hc | hc
      · exact hc
      · cases hc
        exact hr

theorem Lone.step {controls : List Nat} (h : Lone controls s) :
    Lone (controls ++ (opensControl w s).toList) (s.step w) := by
  obtain ⟨held, hall, hheld⟩ := h
  have hall' : ∀ c ∈ controls, (s.step w).released c = true ∨ held = some c := fun c hc =>
    (hall c hc).imp_left released_step
  cases hf : s.phase.isFinal with
  | true =>
    have hd : s.phase ≠ .dialling := fun h => by simp [h, Phase.isFinal] at hf
    rw [opensControl_of_ne hd, Option.toList_none, List.append_nil, step_of_final hf]
    exact ⟨held, hall, hheld⟩
  | false =>
    have hlink : held = s.phase.link?.map (·.stream.serial) := by
      rcases hheld with ⟨streams, hp⟩ | hlink
      · simp [hp, Phase.isFinal] at hf
      · exact hlink
    cases hl : s.phase.link? with
    | some link =>
      -- There is a connection: nothing is opened, and its stream is the one that is held.
      have hd : s.phase ≠ .dialling := fun h => by simp [h, Phase.link?] at hl
      rw [opensControl_of_ne hd, Option.toList_none, List.append_nil]
      rw [hl, Option.map_some] at hlink
      have hfate := (step_custody (w := w) hl).serial
      rw [serial_streamAfter] at hfate
      rcases hfate with ⟨link', hl', hs⟩ | hp | ⟨hl', hr⟩
      · exact ⟨held, hall', .inr (by rw [hlink, hl', Option.map_some, hs])⟩
      · exact ⟨held, hall', .inl hp⟩
      · refine ⟨none, fun c hc => .inl ?_, .inr (by rw [hl']; rfl)⟩
        rcases hall' c hc with hc | hc
        · exact hc
        · cases hlink.symm.trans hc
          exact hr
    | none =>
      -- There is none: all streams were let go of, and only a dial can open another.
      rw [hl, Option.map_none] at hlink
      subst hlink
      have hall'' : ∀ c ∈ controls, (s.step w).released c = true := fun c hc =>
        (hall' c hc).resolve_right (by simp)
      by_cases hd : s.phase = .dialling
      · exact Lone.of_dialling hd hall''
      · rw [opensControl_of_ne hd, Option.toList_none, List.append_nil]
        have hl' : (s.step w).phase.link? = none :=
          (step_transition (w := w) hf).link?_eq_none hl hd
        exact ⟨none, hall', .inr (by rw [hl']; rfl)⟩

theorem Lone.run (h : Lone [] s) (n : Nat) : Lone (controlsBy w s n) (run w n s) := by
  induction n with
  | zero => exact h
  | succ n ih =>
    rw [run_succ, controlsBy_succ]
    exact ih.step

theorem lt_of_mem_controlsBy {c : Nat} (h : c ∈ controlsBy w s n) :
    c < (run w n s).record.opened := by
  induction n with
  | zero => cases h
  | succ n ih =>
    rw [controlsBy_succ] at h
    rw [run_succ]
    rcases List.mem_append.1 h with h | h
    · exact Nat.lt_of_lt_of_le (ih h) (step_opened_le ..)
    · unfold opensControl at h
      split at h
      · rename_i hopen
        cases List.mem_singleton.1 h
        exact hopen.2
      · cases h

/-- No two streams have the same serial. -/
theorem nodup_controlsBy (w : World) (s : Supervisor) (n : Nat) : (controlsBy w s n).Nodup := by
  induction n with
  | zero => exact List.nodup_nil
  | succ n ih =>
    rw [controlsBy_succ]
    refine List.nodup_append.2 ⟨ih, ?_, fun c hc c' hc' => ?_⟩
    · cases opensControl w (run w n s) <;> simp
    · unfold opensControl at hc'
      split at hc'
      · cases List.mem_singleton.1 hc'
        exact Nat.ne_of_lt (lt_of_mem_controlsBy hc)
      · cases hc'

/-- Streams that were opened to the peer and not let go of yet. -/
def openControls (w : World) (s : Supervisor) (n : Nat) : List Nat :=
  (controlsBy w s n).filter fun c => !(run w n s).released c

theorem openControls_length_le (h : Lone [] s) (n : Nat) : (openControls w s n).length ≤ 1 := by
  obtain ⟨held, hall, -⟩ := h.run (w := w) n
  have hheld : ∀ c ∈ openControls w s n, held = some c := by
    intro c hc
    obtain ⟨hmem, hopen⟩ := List.mem_filter.1 hc
    exact (hall c hmem).resolve_left (by simpa using hopen)
  have hnodup : (openControls w s n).Nodup := (nodup_controlsBy w s n).filter _
  match hl : openControls w s n with
  | [] | [_] => simp
  | c :: c' :: rest =>
    rw [hl] at hheld hnodup
    have hsame : some c = some c' := (hheld c (by simp)).symm.trans (hheld c' (by simp))
    cases hsame
    simp at hnodup

/-- A server that is about to dial its peer has no connection to it. -/
theorem openControls_eq_nil (h : Lone [] s) (hp : (run w n s).phase = .dialling) :
    openControls w s n = [] := by
  obtain ⟨held, hall, hheld⟩ := h.run (w := w) n
  rw [hp] at hheld
  rcases hheld with ⟨streams, hstuck⟩ | hnone
  · cases hstuck
  · refine List.filter_eq_nil_iff.2 fun c hc => ?_
    have hr := (hall c hc).resolve_right (by rw [hnone]; nofun)
    simp [hr]

theorem Lone.start (w : World) (dials accepts : Openings) (mailbox : Option Mailbox)
    (hm : w.config.mode = .tcpReverse) : Lone [] (start w dials accepts mailbox) := by
  refine ⟨none, nofun, .inr ?_⟩
  simp [Supervisor.start, hm, Mode.isListening, Phase.link?]

end Supervisor

end StreamServer
