/-
What a server tells over a whole run. The events of every run are the
beginning of a word of one of two languages, one for servers that dial their
peer and one for servers that clients come to, and the word is complete when
the run has ended.

Each phase of a server stands for a place in the word: what has been told so
far is known from the phase alone, and each transition carries it on.
-/
import StreamServer.Proofs.ControlWords
import StreamServer.Proofs.Finalize
import StreamServer.Server

namespace StreamServer.Supervisor

/-! ## The languages -/

/-- Told when a stream becomes a session or does not. -/
def Event.isSession : Event → Bool
  | .sessionStarted .. | .sessionRejected _ => true
  | _ => false

/-- Told while a control connection lasts. -/
def Event.isServing (e : Event) : Bool := e = .pingSent ∨ e.isSession = true

/-- What is told of one attempt at the peer that came to nothing: the peer was not reached, or the
connection to it was lost after a while. -/
inductive Attempt : List Event → Prop
  | unreached (reason : String) : Attempt [.controlLost reason]
  | lost (dataPort : UInt16) {served : List Event} (h : ∀ e ∈ served, e.isServing = true)
      (reason : String) : Attempt (.controlConnected dataPort :: served ++ [.controlLost reason])

/-- Any number of attempts. -/
def Attempts (told : List Event) : Prop :=
  ∃ attempts : List (List Event), (∀ a ∈ attempts, Attempt a) ∧ told = attempts.flatten

/-- Any number of attempts, and a control connection that lasts. -/
def Connected (told : List Event) : Prop :=
  ∃ before dataPort served, Attempts before ∧ (∀ e ∈ served, e.isServing = true) ∧
    told = before ++ .controlConnected dataPort :: served

/-- What is told up to a time at which streams are taken, by whether clients come to the server. -/
def Underway : Bool → List Event → Prop
  | true, told => ∀ e ∈ told, e.isSession = true
  | false, told => Connected told

/-- What is told over a whole run, by whether clients come to the server and by how the run ends. A
run without an end is one of attempts that all come to nothing. -/
inductive Story : Bool → Option Exit → List Event → Prop
  | unending {told} (h : Attempts told) : Story false none told
  | stopped {told} (h : Underway false told) : Story false (some .stopped) told
  | asked {listening told} (h : Underway listening told) (joined : Nat) :
      Story listening (some (.drained joined)) (told ++ [.exitRequested, .drained joined])
  | notAsked {told} (h : Underway true told) (joined : Nat) :
      Story true (some (.drained joined)) (told ++ [.drained joined])

/-- The beginning of a word. -/
def Begun (listening : Bool) (told : List Event) : Prop :=
  ∃ exit word, Story listening exit word ∧ told <+: word

variable {w : World} {s s' : Supervisor} {listening : Bool} {word : List Event}

theorem Attempts.append {attempt : List Event} (h : Attempts word) (ha : Attempt attempt) :
    Attempts (word ++ attempt) := by
  obtain ⟨attempts, hall, rfl⟩ := h
  refine ⟨attempts ++ [attempt], fun a hm => ?_, by simp⟩
  rcases List.mem_append.1 hm with hm | hm
  · exact hall a hm
  · rw [List.mem_singleton.1 hm]
    exact ha

theorem Attempts.connected (h : Attempts word) (dataPort : UInt16) :
    Connected (word ++ [.controlConnected dataPort]) :=
  ⟨word, dataPort, [], h, nofun, rfl⟩

theorem Connected.serve {e : Event} (h : Connected word) (he : e.isServing = true) :
    Connected (word ++ [e]) := by
  obtain ⟨before, dataPort, served, hb, hs, rfl⟩ := h
  refine ⟨before, dataPort, served ++ [e], hb, fun x hx => ?_, by simp⟩
  rcases List.mem_append.1 hx with hx | hx
  · exact hs x hx
  · rw [List.mem_singleton.1 hx]
    exact he

theorem Connected.lose (h : Connected word) (reason : String) :
    Attempts (word ++ [.controlLost reason]) := by
  obtain ⟨before, dataPort, served, hb, hs, rfl⟩ := h
  simpa using hb.append (.lost dataPort hs reason)

theorem Underway.session {e : Event} (h : Underway listening word) (he : e.isSession = true) :
    Underway listening (word ++ [e]) := by
  cases listening with
  | true =>
    intro x hx
    rcases List.mem_append.1 hx with hx | hx
    · exact h x hx
    · rw [List.mem_singleton.1 hx]
      exact he
  | false => exact Connected.serve h (by simp [Event.isServing, he])

theorem Story.begun {exit : Option Exit} (h : Story listening exit word) : Begun listening word :=
  ⟨exit, word, h, List.prefix_refl word⟩

theorem Underway.begun (h : Underway listening word) : Begun listening word :=
  ⟨_, _, .asked h 0, List.prefix_append ..⟩

/-- What has been told when no more streams are taken. -/
def Parted (listening : Bool) (told : List Event) : Prop :=
  (∃ before, Underway listening before ∧ told = before ++ [.exitRequested]) ∨
    listening = true ∧ Underway listening told

theorem Parted.complete (h : Parted listening word) (joined : Nat) :
    Story listening (some (.drained joined)) (word ++ [.drained joined]) := by
  rcases h with ⟨before, h, rfl⟩ | ⟨rfl, h⟩
  · simpa using Story.asked h joined
  · exact .notAsked h joined

theorem Parted.begun (h : Parted listening word) : Begun listening word :=
  ⟨_, _, h.complete 0, List.prefix_append ..⟩

/-! ## Where a server stands in its word -/

/-- Events that were told, whether or not somebody got them. -/
def told (s : Supervisor) : List Event := s.record.events.map (·.2)

/-- What has been told in a phase, by whether clients come to the server, and the phases there are
for either kind of server. -/
def Phase.Tells (listening : Bool) (told : List Event) : Phase → Prop
  | .accepting => listening = true ∧ Underway listening told
  | .dialling | .pausing => listening = false ∧ Attempts told
  | .serving _ | .fetching _ => listening = false ∧ Underway listening told
  | .greeting _ link | .admitting _ _ link | .creating _ _ link | .tracking _ link =>
    link.isNone = listening ∧ Underway listening told
  | .draining => Parted listening told
  | .ended exit => Story listening (some exit) told
  | .stuck _ => Begun listening told

/-- A server whose events are those of its phase, and that takes no stream after it was asked to
exit. -/
structure Tells (listening : Bool) (s : Supervisor) : Prop where
  resolute : Resolute s
  phase : s.phase.Tells listening s.told

theorem Phase.Tells.tell {phase : Phase} {events : List (Instant × Event)} {t : Instant} {e : Event}
    (h : phase.Tells listening (events.map (·.2) ++ [e])) :
    phase.Tells listening ((events ++ [(t, e)]).map (·.2)) := by
  rwa [List.map_append]

theorem Phase.Tells.back (link : Option Link) (hl : link.isNone = listening)
    (h : Underway listening word) : (Phase.back link).Tells listening word := by
  cases link with
  | none => exact ⟨hl.symm, h⟩
  | some link => exact ⟨hl.symm, h⟩

theorem Phase.Tells.begun {phase : Phase} (h : phase.Tells listening word) :
    Begun listening word := by
  cases phase with
  | accepting | serving | fetching | greeting | admitting | creating | tracking => exact h.2.begun
  | dialling | pausing =>
    obtain ⟨rfl, h⟩ := h
    exact (Story.unending h).begun
  | draining => exact Parted.begun h
  | ended exit => exact Story.begun h
  | stuck streams => exact h

theorem Tells.move (h : Tells listening s) (ht : Transition w s s') : Tells listening s' := by
  obtain ⟨hr, h⟩ := h
  refine ⟨hr.move ht, ?_⟩
  -- A stream is dealt with before the server was asked to exit, so `afterStream` leads back to
  -- where the stream came from, with the same link.
  cases ht with
  | accepted hp =>
    rw [hp] at h
    exact ⟨h.1.symm, h.2⟩
  | acceptFailed hp =>
    rw [hp] at h
    exact .inr h
  | acceptHung | dialHung | handshakeHung | turnHung | fetchHung | greetHung | drainHung =>
    exact h.begun
  | unreached hp | unanswered hp =>
    rw [hp] at h
    refine .tell ?_
    exact ⟨h.1, h.2.append (.unreached _)⟩
  | connected hp =>
    rw [hp] at h
    refine .tell ?_
    obtain ⟨rfl, h⟩ := h
    exact ⟨rfl, h.connected _⟩
  | ordered hp | idled hp | admitted hp | numbered hp | launched hp | rested hp =>
    rw [hp] at h
    exact h
  | stopped hp =>
    rw [hp] at h
    obtain ⟨rfl, h⟩ := h
    exact .stopped h
  | pinged hp =>
    rw [hp] at h
    refine .tell ?_
    obtain ⟨rfl, h⟩ := h
    exact ⟨rfl, Connected.serve h rfl⟩
  | lost hp =>
    rw [hp] at h
    refine .tell ?_
    obtain ⟨rfl, h⟩ := h
    exact ⟨rfl, Connected.lose h _⟩
  | fetched hp =>
    rw [hp] at h
    exact ⟨h.1.symm, h.2⟩
  | notFetched hp =>
    rw [hp] at h
    rw [hr.afterStream (by simp [hp, Phase.isLeaving])]
    exact .back (some _) h.1.symm h.2
  | exitAsked hp =>
    rw [hp] at h
    exact .tell (.inl ⟨s.told, h.2, rfl⟩)
  | dismissed hp | duplicate hp =>
    rw [hp] at h
    rw [hr.afterStream (by simp [hp, Phase.isLeaving])]
    exact .back _ h.1 h.2
  | full hp | refused hp | tracked hp =>
    rw [hp] at h
    rw [hr.afterStream (by simp [hp, Phase.isLeaving])]
    refine .tell ?_
    exact .back _ h.1 (h.2.session rfl)
  | drained hp =>
    rw [hp] at h
    refine .tell ?_
    exact h.complete _

theorem Tells.run (h : Tells listening s) (n : Nat) : Tells listening (run w n s) :=
  run_keeps (P := Tells listening)
    (fun _ => ⟨fun h => ⟨h.resolute, h.phase⟩, fun h => ⟨h.resolute, h.phase⟩⟩)
    (fun _ _ h => ⟨h.resolute, h.phase⟩) (fun _ _ => Tells.move) h n

theorem Tells.start (w : World) (dials accepts : Openings) (mailbox : Option Mailbox) :
    Tells w.config.mode.isListening (start w dials accepts mailbox) := by
  refine ⟨.start w dials accepts mailbox, ?_⟩
  unfold Supervisor.start
  dsimp only
  cases hm : w.config.mode.isListening with
  | true => exact ⟨rfl, nofun⟩
  | false => exact ⟨rfl, [], nofun, rfl⟩

/-! ## Asked to exit -/

/-- It is told when a client asks the server to exit, and at no other time. -/
def Asked (s : Supervisor) : Prop := .exitRequested ∈ s.told ↔ s.exiting = true

theorem Asked.move (h : Asked s) (ht : Transition w s s') : Asked s' := by
  cases ht with
  | exitAsked => simp [Asked, told]
  | _ => simpa [Asked, told] using h

theorem Asked.run (h : Asked s) (n : Nat) : Asked (run w n s) :=
  run_keeps (P := Asked) (fun _ => Iff.rfl) (fun _ _ h => h) (fun _ _ => Asked.move) h n

theorem Asked.start (w : World) (dials accepts : Openings) (mailbox : Option Mailbox) :
    Asked (start w dials accepts mailbox) := by
  simp [Asked, told, Supervisor.start]

/-- Between the two states nothing was accepted or dialled, no stream was handed to the worker and no
session was started. -/
structure Untouched (s s' : Supervisor) : Prop where
  accepts : s'.accepts = s.accepts
  dials : s'.dials = s.dials
  dialled : s'.record.dials = s.record.dials
  opened : s'.record.opened = s.record.opened
  jobs : s'.record.jobs = s.record.jobs
  started : s'.record.started = s.record.started

theorem Untouched.refl (s : Supervisor) : Untouched s s := ⟨rfl, rfl, rfl, rfl, rfl, rfl⟩

theorem Untouched.trans {s'' : Supervisor} (h : Untouched s s') (h' : Untouched s' s'') :
    Untouched s s'' :=
  ⟨h'.accepts.trans h.accepts, h'.dials.trans h.dials, h'.dialled.trans h.dialled,
    h'.opened.trans h.opened, h'.jobs.trans h.jobs, h'.started.trans h.started⟩

theorem Transition.untouched (h : Transition w s s') (hl : s.phase.isLeaving = true) :
    Untouched s s' ∧ s'.phase.isLeaving = true ∧ s'.exiting = s.exiting := by
  cases h with
  | drained | drainHung => exact ⟨⟨rfl, rfl, rfl, rfl, rfl, rfl⟩, rfl, rfl⟩
  | _ hp => simp [hp, Phase.isLeaving] at hl

theorem step_untouched (hl : s.phase.isLeaving = true) :
    Untouched s (s.step w) ∧ (s.step w).phase.isLeaving = true ∧
      (s.step w).exiting = s.exiting := by
  cases hf : s.phase.isFinal with
  | true =>
    rw [step_of_final hf]
    exact ⟨.refl s, hl, rfl⟩
  | false =>
    obtain ⟨⟨h₁, h₂, h₃, h₄, h₅, h₆⟩, hleaving, hexiting⟩ := (step_transition (w := w) hf).untouched hl
    exact ⟨⟨h₁, h₂, h₃, h₄, h₅, h₆⟩, hleaving, hexiting⟩

/-- A server that takes no more streams never takes one again. -/
theorem run_untouched (hl : s.phase.isLeaving = true) (n : Nat) :
    Untouched s (run w n s) ∧ (run w n s).phase.isLeaving = true ∧
      (run w n s).exiting = s.exiting := by
  induction n with
  | zero => exact ⟨.refl s, hl, rfl⟩
  | succ n ih =>
    obtain ⟨hsame, hleaving, hexiting⟩ := ih
    obtain ⟨hsame', hleaving', hexiting'⟩ := step_untouched (w := w) hleaving
    rw [run_succ]
    exact ⟨hsame.trans hsame', hleaving', hexiting'.trans hexiting⟩

theorem start_not_leaving (w : World) (dials accepts : Openings) (mailbox : Option Mailbox) :
    (start w dials accepts mailbox).phase.isLeaving = false := by
  unfold start
  dsimp only
  split <;> rfl

/-! ## Why a run ends -/

/-- The next step dispatches STOP. -/
def HearsStop (w : World) (s : Supervisor) : Prop :=
  ∃ link, s.phase = .serving link ∧ link.heard (s.ready w).clock = some .stop

/-- The next step fails to accept. -/
def FailsToAccept (w : World) (s : Supervisor) : Prop :=
  s.phase = .accepting ∧ ∃ t reason,
    s.accepts.take.1.ask s.record.opened "accept" (s.ready w).clock = .failed t reason

theorem HearsStop.step (h : HearsStop w s) : (s.step w).phase = .ended .stopped := by
  obtain ⟨link, hp, hc⟩ := h
  obtain ⟨t, ho⟩ := Link.stop_iff_heard.2 hc
  have hr : (s.ready w).phase = .serving link := hp
  rw [step_of_not_final (by simp [hp, Phase.isFinal])]
  unfold act
  rw [hr]
  simp only [takeTurn, ho]
  rfl

theorem FailsToAccept.step (h : FailsToAccept w s) :
    (s.step w).phase = .draining ∧ (s.step w).exiting = s.exiting := by
  obtain ⟨hp, t, reason, ha⟩ := h
  have hr : (s.ready w).phase = .accepting := hp
  rw [step_of_not_final (by simp [hp, Phase.isFinal])]
  unfold act
  rw [hr]
  rcases ho : s.accepts.take with ⟨o, rest⟩
  rw [ho] at ha
  have ho' : (s.ready w).accepts.take = (o, rest) := ho
  have ha' : o.ask (s.ready w).record.opened "accept" (s.ready w).clock = .failed t reason := ha
  simp only [accept, ho', ha']
  exact ⟨rfl, rfl⟩

/-- A run is stopped exactly when STOP was dispatched in it. -/
theorem stopped_iff_hearsStop {n : Nat} (h₀ : s.phase ≠ .ended .stopped) :
    (run w n s).exit? = some .stopped ↔ ∃ k < n, HearsStop w (run w k s) := by
  rw [exit?_eq_some_iff]
  constructor
  · intro hp
    obtain ⟨k, hk, hf, hlast⟩ := exists_last_step h₀ hp
    have hmove := step_transition (w := w) hf
    rw [← run_succ, hlast] at hmove
    obtain ⟨link, hserving, ho, -⟩ := hmove.stopped_inv hp
    exact ⟨k, hk, link, hserving, Link.stop_iff_heard.1 ⟨_, ho⟩⟩
  · rintro ⟨k, hk, hstop⟩
    have hstep : (run w (k + 1) s).phase = .ended .stopped := by
      rw [run_succ]
      exact hstop.step
    obtain ⟨m, rfl⟩ := Nat.exists_eq_add_of_le (Nat.succ_le_of_lt hk)
    rw [run_add, run_of_final (by rw [hstep]; rfl)]
    exact hstep

theorem back_ne_draining (link : Option Link) : Phase.back link ≠ .draining := by
  cases link <;> nofun

/-- A server that was not asked to exit comes to drain by a failure to accept. -/
theorem Transition.draining_inv (hr : Resolute s) (h : Transition w s s')
    (hp' : s'.phase = .draining) (hx : s'.exiting = false) :
    s.phase = .accepting ∧ ∃ t reason,
      s.accepts.take.1.ask s.record.opened "accept" s.clock = .failed t reason := by
  cases h with
  | acceptFailed hp ho ha => exact ⟨hp, _, _, by rw [ho]; exact ha⟩
  | exitAsked => cases hx
  | notFetched hp | dismissed hp | full hp | refused hp | tracked hp | duplicate hp =>
    have hback := hr.afterStream (by simp [hp, Phase.isLeaving])
    exact absurd ((hback _).symm.trans hp') (back_ne_draining _)
  | _ => cases hp'

/-- A run that has drained failed to accept in it exactly when no client had asked it to exit. -/
theorem drained_iff_failsToAccept {n joined : Nat} (hr : Resolute s)
    (h₀ : s.phase.isLeaving = false) (hp : (run w n s).phase = .ended (.drained joined)) :
    (run w n s).exiting = false ↔ ∃ k < n, FailsToAccept w (run w k s) := by
  constructor
  · intro hx
    -- The last step was made in `draining`; the step before it led there, and `draining_inv` says how.
    obtain ⟨m, hm, q, hdraining, -, hlast, -⟩ :=
      drained_last_step (fun h => by simp [h, Phase.isLeaving] at h₀) hp
    have hexiting : (run w m s).exiting = false := by
      rw [← hlast, run_succ] at hx
      rwa [(step_untouched (by rw [hdraining]; rfl)).2.2] at hx
    cases m with
    | zero =>
      rw [show s.phase = .draining from hdraining] at h₀
      cases h₀
    | succ k =>
      cases hf : (run w k s).phase.isFinal with
      | true =>
        rw [run_succ, step_of_final hf] at hdraining
        simp [hdraining, Phase.isFinal] at hf
      | false =>
        have hmove := step_transition (w := w) hf
        rw [← run_succ] at hmove
        have hr' : Resolute ((run w k s).ready w).quiet := hr.run k
        obtain ⟨haccepting, hfailed⟩ := hmove.draining_inv hr' hdraining hexiting
        exact ⟨k, Nat.lt_of_succ_lt hm, haccepting, hfailed⟩
  · rintro ⟨k, hk, hfails⟩
    have hexiting := (hr.run (w := w) k).exiting_eq_false (by simp [hfails.1, Phase.isLeaving])
    obtain ⟨hdraining, hsame⟩ := hfails.step
    obtain ⟨m, rfl⟩ := Nat.exists_eq_add_of_le (Nat.succ_le_of_lt hk)
    rw [← run_succ] at hdraining hsame
    rw [run_add, (run_untouched (by rw [hdraining]; rfl) m).2.2, hsame, hexiting]

end StreamServer.Supervisor

/-! ## Servers as they are set up -/

namespace StreamServer

open Supervisor

theorem Listener.setUpReverse_of_listening {c : Config} (h : c.mode.isListening = true) :
    setUpReverse c = .error (.wrongMode "dial out" c.mode) := by
  have hne : c.mode ≠ .tcpReverse := fun hm => by simp [hm, Mode.isListening] at h
  simp only [setUpReverse, hne, ne_eq, not_false_eq_true, if_true]
  rfl

namespace Server

/-- A server that was set up, and changed in whatever ways a server can be before it runs. -/
inductive Built : Server → Prop
  | listen {n c accepts dials server e n'}
      (h : Server.listen n c accepts dials = .ok (server, e, n')) : Built server
  | reverse {c dials server} (h : Server.reverse c dials = .ok server) : Built server
  | withDialer {server} (h : Built server) (dials : Openings) : Built (server.withDialer dials)
  | withListener {server} (h : Built server) (accepts : Openings) :
      Built (server.withListener accepts)
  | subscribe {server} (h : Built server) (habit : Nat → Move) : Built (server.subscribe habit)

/-- A server that clients come to has something to accept on. -/
theorem Built.listener {server : Server} (h : server.Built)
    (hm : server.config.mode.isListening = true) : ∃ accepts, server.listener = some accepts := by
  induction h with
  | @listen n c accepts dials server e n' h =>
    unfold Server.listen at h
    split at h <;> cases h
    exact ⟨accepts, rfl⟩
  | @reverse c dials server h =>
    unfold Server.reverse at h
    split at h <;> cases h
    rename_i hs
    rw [Listener.setUpReverse_of_listening hm] at hs
    cases hs
  | withDialer _ _ ih | subscribe _ _ ih => exact ih hm
  | @withListener server _ accepts ih =>
    unfold Server.withListener at hm ⊢
    split
    · exact ⟨accepts, rfl⟩
    · rename_i hn
      rw [if_neg hn] at hm
      exact ih hm

/-- A server that was set up can run. -/
theorem Built.begins {server : Server} (h : server.Built) (host : Supervisor.Host) :
    ∃ accepts, server.begin host =
      .ok (.start (server.world host) server.dialer accepts server.mailbox) := by
  unfold Server.begin
  cases hm : server.config.mode.isListening with
  | true =>
    obtain ⟨accepts, ha⟩ := h.listener hm
    exact ⟨accepts, by simp [ha]⟩
  | false => exact ⟨_, rfl⟩

/-- **What a server tells.** A server that was set up begins to run without an error. What it has told is
the beginning of a word of its language, and the whole word for its exit when the run has ended. The run
is stopped exactly when STOP was dispatched in it, and when it has drained, no request to exit was told
exactly when accepting had failed. After a request nothing is accepted, dialled or started any more. -/
theorem events_follow_language {server : Server} (h : server.Built) (host : Supervisor.Host) :
    let w := server.world host
    let listening := server.config.mode.isListening
    ∃ s₀, server.begin host = .ok s₀ ∧ ∀ n,
      let s := run w n s₀
      (∃ exit word, Story listening exit word ∧ s.told <+: word) ∧
      (∀ exit, s.exit? = some exit → Story listening (some exit) s.told) ∧
      (s.exit? = some .stopped ↔ ∃ k < n, HearsStop w (run w k s₀)) ∧
      (∀ joined, s.exit? = some (.drained joined) →
        (Event.exitRequested ∉ s.told ↔ ∃ k < n, FailsToAccept w (run w k s₀))) ∧
      (Event.exitRequested ∈ s.told →
        ∀ m, (run w m s).phase.isLeaving = true ∧ Untouched s (run w m s)) := by
  intro w listening
  obtain ⟨accepts, hbegin⟩ := h.begins host
  refine ⟨_, hbegin, fun n => ?_⟩
  intro s
  have hresolute := Resolute.start w server.dialer accepts server.mailbox
  have htells : Tells listening s := (Tells.start w server.dialer accepts server.mailbox).run n
  have hasked : Asked s := (Asked.start w server.dialer accepts server.mailbox).run n
  refine ⟨htells.phase.begun, fun exit hx => ?_,
    stopped_iff_hearsStop (start_phase_ne_ended _ _ _ _ _), fun joined hx => ?_, fun hmem m => ?_⟩
  · have hphase := htells.phase
    rwa [exit?_eq_some_iff.1 hx] at hphase
  · have hmem : Event.exitRequested ∈ s.told ↔ s.exiting = true := hasked
    have hended := exit?_eq_some_iff.1 hx
    rw [← drained_iff_failsToAccept hresolute (start_not_leaving ..) hended, hmem,
      Bool.not_eq_true]
  · obtain ⟨hsame, hleaving, -⟩ := run_untouched (w := w) (htells.resolute (hasked.1 hmem)) m
    exact ⟨hleaving, hsame⟩

/-- A server that does not reach its peer at first, and whose peer then asks for a data connection
and says STOP. -/
def hesitant : Server :=
  ⟨endless.config, none,
    ⟨[.fails 1 "refused", .opens 1 ⟨[⟨0, .bytes (Word.encode 5556 ++ Command.encode .new ++
      Command.encode .stop)⟩], [], none⟩], caller .empty⟩, none⟩

/-- Its state when it has been stopped. -/
def hesitantEnd : Supervisor := run endless 10 (start endless hesitant.dialer ⟨[], .hangs⟩ none)

/-- A server that fails to accept after its first client. -/
def shortLived : Server :=
  ⟨.standard, some ⟨[caller .empty], .fails 1 "closed"⟩, ⟨[], .hangs⟩, none⟩

/-- Its state when it has drained. -/
def shortLivedEnd : Supervisor :=
  run shortAndLong 7 (start shortAndLong ⟨[], .hangs⟩ ⟨[caller .empty], .fails 1 "closed"⟩ none)

/-- Both servers run to their ends, by STOP and by a failure to accept. -/
theorem events_follow_language_twice :
    hesitant.Built ∧ hesitantEnd.exit? = some .stopped ∧
      Story false (some .stopped) hesitantEnd.told ∧
      shortLived.Built ∧ shortLivedEnd.exit? = some (.drained 1) ∧
      Story true (some (.drained 1)) shortLivedEnd.told ∧
      ∃ k < 7, FailsToAccept shortAndLong (run shortAndLong k
        (start shortAndLong ⟨[], .hangs⟩ ⟨[caller .empty], .fails 1 "closed"⟩ none)) := by
  have hesitates : hesitant.Built := .reverse (c := endless.config) rfl
  have listens : shortLived.Built := .listen (n := ⟨true, 40000, [], []⟩) (c := .standard) rfl
  have stopped : hesitantEnd.exit? = some .stopped := by decide +kernel
  have drained : shortLivedEnd.exit? = some (.drained 1) := by decide +kernel
  have notAsked : Event.exitRequested ∉ shortLivedEnd.told := by decide +kernel
  obtain ⟨_, hbegin, hall⟩ := events_follow_language hesitates endless.toHost
  obtain ⟨_, hbegin', hall'⟩ := events_follow_language listens shortAndLong.toHost
  cases hbegin
  cases hbegin'
  obtain ⟨-, hstory, -⟩ := hall 10
  obtain ⟨-, hstory', -, hfails, -⟩ := hall' 7
  exact ⟨hesitates, stopped, hstory _ stopped, listens, drained, hstory' _ drained,
    (hfails 1 drained).1 notAsked⟩

end Server

end StreamServer
