/-
The cap on sessions. Room is looked for, the session is started, those that
have finished are let go of and the new one is tracked, one after another; any
session may finish between two of these steps. Still no more sessions run at
any time than are allowed, no more are tracked, and a stream is turned away
only when as many run as are allowed.

Two facts carry the argument. Time only takes running sessions away, so the
room that was found is still there when the session is tracked. And what the
registry counts as running is what runs: sessions that it has let go of had
finished, and none is elsewhere while room is looked for.
-/
import Mathlib
import StreamServer.Proofs.Conservation

namespace StreamServer

/-! ## Sessions that run -/

/-- The session runs at a time: it has been started by then and has not finished. -/
def Session.runsAt (x : Session) (t : Instant) : Bool := decide (x.started ≤ t) && !x.finishedBy t

theorem Session.runsAt_of_started_le {x : Session} {t : Instant} (h : x.started ≤ t) :
    x.runsAt t = !x.finishedBy t := by
  simp [runsAt, h]

theorem Session.runsAt_of_lt_started {x : Session} {t : Instant} (h : t < x.started) :
    x.runsAt t = false := by
  simp [runsAt, Nat.not_le_of_lt h]

/-! ## What is said of a stream that is turned away -/

theorem SessionError.message_limitReached_inj {limit m : UInt32}
    (h : (limitReached limit).message = (limitReached m).message) : limit = m := by
  unfold message at h
  rw [String.append_left_inj, String.append_right_inj] at h
  exact UInt32.toNat_inj.1 (Nat.repr_injective h)

/-- A refusal of the worker does not read like one for want of room. -/
theorem SessionError.message_create_ne (reason : String) (m : UInt32) :
    (create reason).message ≠ (limitReached m).message := by
  intro h
  have hfirst : ("Failed to create session: " ++ reason).toList.head? =
      ("Session limit of " ++ (toString m.toNat ++ " reached")).toList.head? := by
    rw [← String.append_assoc]
    exact congrArg (fun text : String => text.toList.head?) h
  have hcreate : "Failed to create session: ".toList.head? = some 'F' := by simp
  have hlimit : "Session limit of ".toList.head? = some 'S' := by simp
  rw [String.toList_append, String.toList_append, List.head?_append, List.head?_append, hcreate,
    hlimit] at hfirst
  simp at hfirst

theorem Worker.Plan.create_error {plan : Plan} {id : SessionId} {stream : Stream} {now : Instant}
    {e : SessionError} (h : plan.create id stream now = .error e) : ∃ reason, e = .create reason := by
  cases plan <;> cases h
  exact ⟨_, rfl⟩

/-- The worker has reasons of its own when it makes no job: it never speaks for the cap. -/
def Worker.LeavesCapAlone (worker : Worker) : Prop :=
  ∀ id stream now e, worker.create id stream now = .error e →
    ∀ m, e.message ≠ (SessionError.limitReached m).message

theorem Worker.leavesCapAlone_ofPlans (plans : List Plan) : (ofPlans plans).LeavesCapAlone := by
  intro id stream now e h m
  obtain ⟨reason, rfl⟩ := Plan.create_error h
  exact SessionError.message_create_ne reason m

namespace Supervisor

variable {w : World} {s s' : Supervisor} {used : Nat} {limit : UInt32}

/-- Sessions of a server that run at a time, tracked or not. -/
def runningAt (s : Supervisor) (t : Instant) : Nat := s.record.started.countP (·.runsAt t)

/-- Room was found in this phase, and the session it was found for is not tracked yet. -/
def Phase.hasRoom : Phase → Bool
  | .creating .. | .tracking .. => true
  | _ => false

theorem afterStream_hasRoom (s : Supervisor) (link : Option Link) :
    (s.afterStream link).hasRoom = false := by
  unfold afterStream
  split
  · rfl
  · cases link <;> rfl

/-- No session was started later than now. -/
def Punctual (s : Supervisor) : Prop := ∀ x ∈ s.record.started, x.started ≤ s.clock

theorem Punctual.mono (h : Punctual s) (hst : s'.record.started = s.record.started)
    (hc : s.clock ≤ s'.clock) : Punctual s' := by
  intro x hx
  rw [hst] at hx
  exact Nat.le_trans (h x hx) hc

theorem Punctual.move (h : Punctual s) (ht : Transition w s s') : Punctual s' := by
  have hc := ht.clock_le
  cases ht with
  | launched =>
    intro x hx
    rcases List.mem_append.1 hx with hx | hx
    · exact h x hx
    · rw [List.mem_singleton.1 hx]
      exact Nat.le_refl _
  | _ => exact h.mono rfl hc

theorem Punctual.run (h : Punctual s) (n : Nat) : Punctual (run w n s) :=
  run_keeps (P := Punctual) (fun _ => Iff.rfl) (fun s _ h => h.mono rfl (ready_clock_le w s))
    (fun _ _ => Punctual.move) h n

theorem Punctual.start (w : World) (dials accepts : Openings) (mailbox : Option Mailbox) :
    Punctual (start w dials accepts mailbox) := nofun

/-- What is known of the sessions of a server whose numbers last. -/
structure Orderly (used : Nat) (s : Supervisor) : Prop where
  accounted : Accounted used s
  closing : Closing s
  reaped : ReapedFinished s
  punctual : Punctual s

theorem Orderly.run (w : World) (dials accepts : Openings) (mailbox : Option Mailbox) (n : Nat)
    (few : dataStreams w (start w dials accepts mailbox) n < 2 ^ 64) :
    ∃ used, Orderly used (run w n (start w dials accepts mailbox)) := by
  obtain ⟨used, -, h⟩ := (Accounted.start w dials accepts mailbox).run n few
  exact ⟨used, h, (Closing.start w dials accepts mailbox).run n,
    (ReapedFinished.start w dials accepts mailbox).run n,
    (Punctual.start w dials accepts mailbox).run n⟩

/-- While no session is in hand, those that run are those that the registry counts as running. -/
theorem Orderly.runningAt_eq (h : Orderly used s) (hf : s.phase.isFinal = false)
    (hh : s.phase.inHand = []) {t : Instant} (ht : s.clock ≤ t) :
    s.runningAt t = s.registry.running t := by
  -- Every session was reaped or is tracked, and those that were reaped had finished.
  have hjoined := (h.closing.of_not_final hf).2
  have hplaces := h.accounted.places
  rw [sessions, hjoined, hh, List.append_nil, List.append_nil] at hplaces
  have hruns : ∀ x ∈ s.record.started, x.runsAt t = !x.finishedBy t := fun x hx =>
    Session.runsAt_of_started_le (Nat.le_trans (h.punctual x hx) ht)
  have hreaped : s.record.reaped.countP (fun x => !x.finishedBy t) = 0 := by
    refine List.countP_eq_zero.2 fun x hx => ?_
    simp [Session.finishedBy_mono ht (h.reaped x hx)]
  calc s.record.started.countP (·.runsAt t)
      = s.record.started.countP (fun x => !x.finishedBy t) :=
        List.countP_congr fun x hx => by rw [hruns x hx]
    _ = (s.record.reaped ++ s.registry.sessions).countP (fun x => !x.finishedBy t) := by
        rw [hplaces.countP_eq, List.countP_map]
        rfl
    _ = s.registry.sessions.countP (fun x => !x.finishedBy t) := by
        rw [List.countP_append, hreaped, Nat.zero_add]
    _ = s.registry.running t := by
        rw [Registry.sessions, List.countP_map]
        rfl

/-! ## The cap is kept -/

/-- A server that has kept to its cap. -/
structure Capped (w : World) (limit : UInt32) (s : Supervisor) : Prop where
  cap : s.registry.cap = some limit
  running : ∀ t, s.runningAt t ≤ limit.toNat
  size : s.registry.size ≤ limit.toNat
  room : s.phase.hasRoom = true → s.registry.running s.clock < limit.toNat
  /-- Whenever a stream was turned away for want of room, there was none. -/
  refusals : w.worker.LeavesCapAlone → ∀ t m,
    (t, .sessionRejected (SessionError.limitReached m).message) ∈ s.record.events →
      m = limit ∧ limit.toNat ≤ s.runningAt t

namespace Capped

theorem start (hcap : w.config.maxSessions = some limit) (dials accepts : Openings)
    (mailbox : Option Mailbox) : Capped w limit (start w dials accepts mailbox) where
  cap := hcap
  running := fun _ => Nat.zero_le _
  size := Nat.zero_le _
  room := by
    unfold Supervisor.start
    dsimp only
    split <;> nofun
  refusals := nofun

/-- What starts no session, tracks no more of them and turns no stream away for want of room keeps to
the cap. -/
theorem of_started_eq (h : Capped w limit s) (hcap : s'.registry.cap = s.registry.cap)
    (hstarted : s'.record.started = s.record.started) (hsize : s'.registry.size ≤ s.registry.size)
    (hroom : s'.phase.hasRoom = true → s'.registry.running s'.clock < limit.toNat)
    (hevents : w.worker.LeavesCapAlone → ∀ t m,
      (t, .sessionRejected (SessionError.limitReached m).message) ∈ s'.record.events →
        (t, .sessionRejected (SessionError.limitReached m).message) ∈ s.record.events) :
    Capped w limit s' where
  cap := hcap.trans h.cap
  running := by
    intro t
    rw [runningAt, hstarted]
    exact h.running t
  size := Nat.le_trans hsize h.size
  room := hroom
  refusals := by
    intro hworker t m hmem
    rw [runningAt, hstarted]
    exact h.refusals hworker t m (hevents hworker t m hmem)

theorem frame (h : Capped w limit s) (hcap : s'.registry.cap = s.registry.cap)
    (hentries : s'.registry.entries = s.registry.entries)
    (hstarted : s'.record.started = s.record.started) (hclock : s.clock ≤ s'.clock)
    (hroom : s'.phase.hasRoom = true → s.phase.hasRoom = true)
    (hevents : w.worker.LeavesCapAlone → ∀ t m,
      (t, .sessionRejected (SessionError.limitReached m).message) ∈ s'.record.events →
        (t, .sessionRejected (SessionError.limitReached m).message) ∈ s.record.events) :
    Capped w limit s' := by
  refine h.of_started_eq hcap hstarted (Nat.le_of_eq ?_) (fun hp => ?_) hevents
  · rw [Registry.size, hentries, Registry.size]
  · have hless := h.room (hroom hp)
    rw [Registry.running, hentries]
    exact Nat.lt_of_le_of_lt (s.registry.running_le_of_le hclock) hless

/-- There is room: the worker may be handed the stream. -/
theorem letIn (h : Capped w limit s) (hc : s.registry.checkCapacity s.clock = .ok ())
    (id : SessionId) (stream : Stream) (link : Option Link) :
    Capped w limit { s with phase := .creating id stream link } where
  cap := h.cap
  running := h.running
  size := h.size
  room := fun _ => Registry.lt_of_checkCapacity_ok h.cap hc
  refusals := h.refusals

/-- There is no room: as many sessions run as are allowed. -/
theorem refuse (h : Capped w limit s) (ho : Orderly used s) (hf : s.phase.isFinal = false)
    (hh : s.phase.inHand = []) {e : SessionError}
    (hc : s.registry.checkCapacity s.clock = .error e) (link : Option Link) :
    Capped w limit { s with
      phase := s.afterStream link
      record := { s.record with
        events := s.record.events ++ [(s.clock, .sessionRejected e.message)] } } where
  cap := h.cap
  running := h.running
  size := h.size
  room := fun hp => by rw [afterStream_hasRoom] at hp; cases hp
  refusals := by
    intro hworker t m hmem
    obtain ⟨rfl, hfull⟩ := Registry.le_of_checkCapacity_error h.cap hc
    rcases List.mem_append.1 hmem with hmem | hmem
    · exact h.refusals hworker t m hmem
    · obtain ⟨rfl, htext⟩ := Prod.mk.inj (List.mem_singleton.1 hmem)
      have hm := SessionError.message_limitReached_inj (Event.sessionRejected.inj htext)
      refine ⟨hm, ?_⟩
      rw [← ho.runningAt_eq hf hh (Nat.le_refl _)] at hfull
      exact hfull

/-- A session is started where there is room. Before its start it does not run, and from then on it
is one more than those that the registry counts as running. -/
theorem launch (h : Capped w limit s) (ho : Orderly used s) (hf : s.phase.isFinal = false)
    (hh : s.phase.inHand = []) (hroom : s.phase.hasRoom = true) {session : Session}
    (hnew : session.started = s.clock) (link : Option Link) (jobs : List Job) :
    Capped w limit { s with
      phase := .tracking session link
      record := { s.record with jobs := jobs, started := s.record.started ++ [session] } } where
  cap := h.cap
  running := by
    intro t
    simp only [runningAt, List.countP_append, List.countP_singleton]
    -- The cap is to hold at every time, also before the new session was started.
    rcases Nat.lt_or_ge t s.clock with hlt | hge
    · rw [Session.runsAt_of_lt_started (hnew ▸ hlt)]
      exact h.running t
    · have hless := Nat.lt_of_le_of_lt (s.registry.running_le_of_le hge) (h.room hroom)
      rw [← ho.runningAt_eq hf hh hge, runningAt] at hless
      split <;> omega
  size := h.size
  room := fun _ => h.room hroom
  refusals := by
    intro hworker t m hmem
    obtain ⟨hm, hfull⟩ := h.refusals hworker t m hmem
    refine ⟨hm, Nat.le_trans hfull ?_⟩
    simp [runningAt]

/-- Finished sessions are let go of before the new one is tracked. -/
theorem track (h : Capped w limit s) {session : Session} {link : Option Link} {registry : Registry}
    (hp : s.phase = .tracking session link)
    (hi : (s.registry.sweep s.clock).registry.insert session = .ok registry) :
    Capped w limit { s with
      phase := s.afterStream link, registry := registry
      record := { s.record with
        reaped := s.record.reaped ++ (s.registry.sweep s.clock).gone
        events := s.record.events ++ [(s.clock, .sessionStarted session.id
          (s.registry.sweep s.clock).gone.length registry.size)] } } := by
  obtain rfl := Registry.eq_of_insert_eq_ok hi
  have hless := h.room (by rw [hp]; rfl)
  refine ⟨h.cap, h.running, ?_, fun hp' => ?_, fun hworker t m hmem => ?_⟩
  · have hleft := s.registry.size_sweep s.clock
    simp only [Registry.size, List.length_append, List.length_singleton] at hleft ⊢
    omega
  · rw [afterStream_hasRoom] at hp'
    cases hp'
  · exact h.refusals hworker t m (by simpa using hmem)

/-- Every transition keeps to the cap. -/
theorem move (h : Capped w limit s) (ho : Orderly used s) (ht : Transition w s s') :
    Capped w limit s' := by
  have hf := ht.not_final
  have hclock := ht.clock_le
  cases ht with
  | admitted hp hc => exact h.letIn hc ..
  | full hp hc => exact h.refuse ho hf (by rw [hp]; rfl) hc _
  | launched hp => exact h.launch ho hf (by rw [hp]; rfl) (by rw [hp]; rfl) rfl ..
  | tracked hp hi => exact h.track hp hi
  | duplicate hp hi =>
    -- No two sessions have the same number while numbers last.
    rw [ho.accounted.insert_eq_ok hp] at hi
    cases hi
  | drained =>
    exact h.of_started_eq rfl rfl (Nat.zero_le _) nofun fun _ t m hmem => by simpa using hmem
  | drainHung => exact h.of_started_eq rfl rfl (Nat.zero_le _) nofun fun _ t m hmem => hmem
  | refused hp hc =>
    refine h.frame rfl rfl rfl hclock (by rw [afterStream_hasRoom]; nofun) fun hworker t m hmem => ?_
    rcases List.mem_append.1 hmem with hmem | hmem
    · exact hmem
    · have htext := Event.sessionRejected.inj (Prod.mk.inj (List.mem_singleton.1 hmem)).2
      exact absurd htext.symm (hworker _ _ _ _ hc m)
  | notFetched | dismissed =>
    exact h.frame rfl rfl rfl hclock (by rw [afterStream_hasRoom]; nofun) fun _ t m hmem => hmem
  | unreached | unanswered | connected | pinged | lost | exitAsked =>
    exact h.frame rfl rfl rfl hclock nofun fun _ t m hmem => by simpa using hmem
  | _ => exact h.frame rfl rfl rfl hclock nofun fun _ t m hmem => hmem

theorem step (h : Capped w limit s) (ho : Orderly used s) : Capped w limit (s.step w) := by
  cases hf : s.phase.isFinal with
  | true => rwa [step_of_final hf]
  | false =>
    have hlater := ready_clock_le w s
    have hready : Capped w limit (s.ready w).quiet :=
      h.frame rfl rfl rfl hlater (fun hp => hp) fun _ t m hmem => hmem
    have hbooks : Orderly used (s.ready w).quiet :=
      ⟨ho.accounted.frame rfl rfl rfl rfl rfl (.inr rfl) rfl, ho.closing.ready hf,
        ho.reaped.mono rfl hlater, ho.punctual.mono rfl hlater⟩
    have hstep := hready.move hbooks (step_transition hf)
    exact hstep.frame rfl rfl rfl (Nat.le_refl _) (fun hp => hp) fun _ t m hmem => hmem

/-- A server keeps to its cap in every state of a run, as long as numbers last. -/
theorem run (hcap : w.config.maxSessions = some limit) (dials accepts : Openings)
    (mailbox : Option Mailbox) (n : Nat)
    (few : dataStreams w (Supervisor.start w dials accepts mailbox) n < 2 ^ 64) :
    Capped w limit (run w n (Supervisor.start w dials accepts mailbox)) := by
  induction n with
  | zero => exact Capped.start hcap dials accepts mailbox
  | succ n ih =>
    rw [dataStreams_succ] at few
    obtain ⟨used, ho⟩ := Orderly.run w dials accepts mailbox n (by omega)
    rw [run_succ]
    exact (ih (by omega)).step ho

/-- A stream that is up for a session gets none exactly when as many run as are allowed. -/
theorem step_of_admitting (h : Capped w limit s) (ho : Orderly used s) {id : SessionId}
    {stream : Stream} {link : Option Link} (hp : s.phase = .admitting id stream link) :
    s.step w = if s.runningAt (s.ready w).clock = limit.toNat
      then (s.ready w).reject id stream link (.limitReached limit)
      else (s.ready w).become (.creating id stream link) := by
  have hf : s.phase.isFinal = false := by rw [hp]; rfl
  have hrunning : s.runningAt (s.ready w).clock = s.registry.running (s.ready w).clock :=
    ho.runningAt_eq hf (by rw [hp]; rfl) (ready_clock_le w s)
  have hle := h.running (s.ready w).clock
  have hcheck : (s.ready w).registry.checkCapacity (s.ready w).clock =
      if limit.toNat ≤ s.registry.running (s.ready w).clock then .error (.limitReached limit)
      else .ok () := Registry.checkCapacity_of_cap h.cap
  have hact : (s.ready w).act w = (s.ready w).checkRoom id stream link := by
    unfold act
    rw [show (s.ready w).phase = .admitting id stream link from hp]
  rw [step_of_not_final hf, hact, checkRoom, hcheck, ← hrunning]
  by_cases hfull : s.runningAt (s.ready w).clock = limit.toNat
  · rw [if_pos hfull, if_pos (Nat.le_of_eq hfull.symm)]
  · rw [if_neg hfull, if_neg (by omega)]

end Capped

/-! ## The cap -/

/-- **Sessions never exceed the cap.** At no time of a run do more sessions run than the cap allows, and no
more are tracked. A stream that is up for a session is turned away if exactly as many run by then, and
goes on to the worker if not; and whenever one was turned away so, as many ran, unless the worker has
spoken for the cap. Sessions that have finished never stand in the way. -/
theorem sessions_capped (w : World) (dials accepts : Openings) (mailbox : Option Mailbox) (n : Nat)
    {limit : UInt32} (hcap : w.config.maxSessions = some limit)
    (few : dataStreams w (start w dials accepts mailbox) n < 2 ^ 64) :
    let s := run w n (start w dials accepts mailbox)
    (∀ t, s.runningAt t ≤ limit.toNat) ∧ s.registry.size ≤ limit.toNat ∧
    (w.worker.LeavesCapAlone → ∀ t m,
      (t, .sessionRejected (SessionError.limitReached m).message) ∈ s.record.events →
        m = limit ∧ s.runningAt t = limit.toNat) ∧
    ∀ id stream link, s.phase = .admitting id stream link →
      s.step w = if s.runningAt (s.ready w).clock = limit.toNat
        then (s.ready w).reject id stream link (.limitReached limit)
        else (s.ready w).become (.creating id stream link) := by
  intro s
  have h : Capped w limit s := .run hcap dials accepts mailbox n few
  obtain ⟨used, ho⟩ := Orderly.run w dials accepts mailbox n few
  refine ⟨h.running, h.size, fun hworker t m hmem => ?_, fun id stream link hp => h.step_of_admitting ho hp⟩
  obtain ⟨hm, hfull⟩ := h.refusals hworker t m hmem
  exact ⟨hm, Nat.le_antisymm (h.running t) hfull⟩

/-- A world of one session at a time, the first of which is over at once. -/
def oneAtATime : World :=
  { config := { maxSessions := some 1 }, worker := .ofPlans [.run 0 0, .run 5 7] }

/-- Three clients with payload. -/
def threeGuests : Supervisor :=
  start oneAtATime ⟨[], .hangs⟩ ⟨[caller .empty, caller .empty, caller .empty], .hangs⟩ none

/-- The second stream becomes a session though the first is still tracked, since that has finished;
the third is turned away while the second runs. -/
theorem sessions_capped_threeGuests :
    oneAtATime.config.maxSessions = some 1 ∧ oneAtATime.worker.LeavesCapAlone ∧
      dataStreams oneAtATime threeGuests 13 < 2 ^ 64 ∧
      (run oneAtATime 13 threeGuests).record.started.length = 2 ∧
      (3, .sessionRejected (SessionError.limitReached 1).message) ∈
        (run oneAtATime 13 threeGuests).record.events ∧
      (run oneAtATime 13 threeGuests).runningAt 3 = 1 ∧
      (run oneAtATime 13 threeGuests).registry.size ≤ 1 := by
  have few : dataStreams oneAtATime threeGuests 13 < 2 ^ 64 :=
    Nat.lt_of_le_of_lt (dataStreams_le ..) (by decide)
  have two : (run oneAtATime 13 threeGuests).record.started.length = 2 := by decide +kernel
  have refused : (3, .sessionRejected (SessionError.limitReached 1).message) ∈
      (run oneAtATime 13 threeGuests).record.events := by decide +kernel
  unfold threeGuests at few two refused ⊢
  obtain ⟨-, tracked, atLimit, -⟩ := sessions_capped oneAtATime _ _ _ 13 rfl few
  have alone : oneAtATime.worker.LeavesCapAlone := Worker.leavesCapAlone_ofPlans _
  exact ⟨rfl, alone, few, two, refused, (atLimit alone 3 1 refused).2, tracked⟩

end Supervisor

end StreamServer
