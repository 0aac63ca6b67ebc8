/-
How a server that dials its peer gets back to it. Whatever goes wrong, the peer
is told lost once, the server pauses once, and then it dials again; nothing
else makes it pause or dial the peer. Pauses are counted and the count never
goes back, so the dials of the peer are at least as many pauses apart as there
were losses between them.

What a step adds to the record is read off the transitions once; the law is
then about three kinds of phase: one that dials, one that pauses, and the rest.
-/
import StreamServer.Proofs.Custody

namespace StreamServer.Supervisor

variable {w : World} {s s' : Supervisor} {n : Nat}

/-! ## What a step adds -/

/-- What can be seen of a run. -/
inductive Happening where
  /-- An address was dialled, for the control connection or for data. -/
  | dialled (control : Bool) (dial : Dial)
  | told (time : Instant) (event : Event)
  /-- The server has paused, and this was said. -/
  | paused (began resumed : Instant) (said : Log)
deriving DecidableEq, Repr

namespace Happening

def isLoss : Happening → Bool
  | .told _ (.controlLost _) => true
  | _ => false

def isControlDial : Happening → Bool
  | .dialled control _ => control
  | _ => false

def isPause : Happening → Bool
  | .paused .. => true
  | _ => false

def dial? : Happening → Option Dial
  | .dialled _ dial => some dial
  | _ => none

def event? : Happening → Option (Instant × Event)
  | .told t e => some (t, e)
  | _ => none

/-- Has no part in getting back to the peer. -/
def isOrdinary (x : Happening) : Bool := !x.isLoss && !x.isControlDial && !x.isPause

end Happening

open Happening

/-- Dials and events that the second record has and the first does not. A step dials before it
tells. -/
def added (control : Bool) (s s' : Supervisor) : List Happening :=
  (s'.record.dials.drop s.record.dials.length).map (.dialled control) ++
    (s'.record.events.drop s.record.events.length).map fun e => .told e.1 e.2

/-- What happens in the next step. -/
def happenings (w : World) (s : Supervisor) : List Happening :=
  added (s.phase = .dialling) s (s.step w) ++
    if s.phase = .pausing then
      [.paused (s.ready w).clock (s.step w).clock ((s.step w).record.log.drop s.record.log.length)]
    else []

/-- What happens in the first `n` steps. -/
def happenedBy (w : World) (s : Supervisor) (n : Nat) : List Happening :=
  (List.range n).flatMap fun k => happenings w (run w k s)

theorem happenedBy_succ (w : World) (s : Supervisor) (n : Nat) :
    happenedBy w s (n + 1) = happenedBy w s n ++ happenings w (run w n s) := by
  simp [happenedBy, List.range_succ]

/-- The server is between a loss and the next dial. -/
def Phase.isReaching : Phase → Bool
  | .dialling | .pausing => true
  | _ => false

theorem Phase.isReaching_eq_false {phase : Phase} (hd : phase ≠ .dialling) (hp : phase ≠ .pausing) :
    phase.isReaching = false := by
  cases phase with
  | dialling => exact absurd rfl hd
  | pausing => exact absurd rfl hp
  | _ => rfl

theorem afterStream_isReaching (s : Supervisor) (link : Option Link) :
    (s.afterStream link).isReaching = false := by
  unfold afterStream
  split
  · rfl
  · cases link <;> rfl

/-- How a step ends that does not pause: the loss is told last of all and the server goes on to
pause, or there is no loss and the server goes on with its work. -/
inductive Closes (s : Supervisor) : List Happening → Prop
  | lost {reason} (hp : s.phase = .pausing) : Closes s [.told s.clock (.controlLost reason)]
  | carriesOn {rest} (hp : s.phase.isReaching = false) (hr : ∀ x ∈ rest, x.isOrdinary = true) :
    Closes s rest

/-- The dial of the peer at a time. -/
def dialOf (w : World) (t : Instant) : Dial := ⟨t, w.config.host, w.config.remotePort⟩

theorem Transition.added_of_dialling (h : Transition w s s') (hp : s.phase = .dialling) :
    ∃ rest, added true s s' = .dialled true (dialOf w s.clock) :: rest ∧ Closes s' rest := by
  cases h with
  | @unreached _ _ t reason =>
    refine ⟨[.told t (.controlLost (ConnectionError.dial w.target.text reason).message)], ?_,
      .lost rfl⟩
    simp [added, dialOf, World.target]
  | @unanswered _ _ _ _ u e =>
    refine ⟨[.told u (.controlLost e.message)], ?_, .lost rfl⟩
    simp [added, dialOf, World.target]
  | connected =>
    refine ⟨_, by simp [added, dialOf, World.target]; rfl, .carriesOn rfl ?_⟩
    simp [isOrdinary, isLoss, isControlDial, isPause]
  | dialHung | handshakeHung =>
    exact ⟨[], by simp [added, dialOf, World.target], .carriesOn rfl nofun⟩
  | _ hp' => rw [hp] at hp'; cases hp'

theorem Transition.added_of_not_reaching (h : Transition w s s') (hp : s.phase.isReaching = false) :
    Closes s' (added false s s') := by
  have ordinary : ∀ {l : List Happening} , l.all isOrdinary = true → ∀ x ∈ l, x.isOrdinary = true :=
    fun h => List.all_eq_true.1 h
  cases h with
  | unreached hp' | unanswered hp' | connected hp' | dialHung hp' | handshakeHung hp' | rested hp' =>
    rw [hp'] at hp
    cases hp
  | lost => simpa [added] using Closes.lost rfl
  | notFetched | dismissed | full | refused | tracked | duplicate =>
    refine .carriesOn (afterStream_isReaching ..) (ordinary ?_)
    simp [added, isOrdinary, isLoss, isControlDial, isPause]
  | _ =>
    refine .carriesOn rfl (ordinary ?_)
    simp [added, isOrdinary, isLoss, isControlDial, isPause]

theorem Closes.of_quiet {rest : List Happening} (h : Closes s.quiet rest) : Closes s rest := by
  cases h with
  | lost hp => exact .lost hp
  | carriesOn hp hr => exact .carriesOn hp hr

theorem happenings_of_final (h : s.phase.isFinal = true) : happenings w s = [] := by
  have hp : s.phase ≠ .pausing := fun hp => by simp [hp, Phase.isFinal] at h
  simp [happenings, added, step_of_final h, hp]

/-- A server that is about to dial its peer does so when it is no longer held up. -/
theorem happenings_of_dialling (hp : s.phase = .dialling) :
    ∃ rest, happenings w s = .dialled true (dialOf w (s.ready w).clock) :: rest ∧
      Closes (s.step w) rest := by
  have hf : s.phase.isFinal = false := by rw [hp]; rfl
  obtain ⟨rest, hadded, hrest⟩ := (step_transition (w := w) hf).added_of_dialling hp
  refine ⟨rest, ?_, hrest.of_quiet⟩
  simp only [happenings, hp, decide_true, reduceCtorEq, if_false, List.append_nil]
  exact hadded

theorem happenings_of_not_reaching (hp : s.phase.isReaching = false) :
    Closes (s.step w) (happenings w s) := by
  have hd : s.phase ≠ .dialling := fun h => by simp [h, Phase.isReaching] at hp
  have hr : s.phase ≠ .pausing := fun h => by simp [h, Phase.isReaching] at hp
  cases hf : s.phase.isFinal with
  | true =>
    rw [happenings_of_final hf, step_of_final hf]
    exact .carriesOn hp nofun
  | false =>
    simp only [happenings, hd, decide_false, hr, if_false, List.append_nil]
    exact ((step_transition (w := w) hf).added_of_not_reaching hp).of_quiet

/-- A step that does not pause dials the peer first, if it is to, and comes to its end. -/
theorem happenings_of_not_pausing (hp : s.phase ≠ .pausing) :
    ∃ rest, Closes (s.step w) rest ∧ happenings w s =
      (if s.phase = .dialling then [.dialled true (dialOf w (s.ready w).clock)] else []) ++ rest := by
  by_cases hd : s.phase = .dialling
  · obtain ⟨rest, hhap, hrest⟩ := happenings_of_dialling (w := w) hd
    exact ⟨rest, hrest, by rw [if_pos hd]; exact hhap⟩
  · have hrest := happenings_of_not_reaching (w := w) (Phase.isReaching_eq_false hd hp)
    exact ⟨_, hrest, by rw [if_neg hd]; rfl⟩

/-- What a server does that is about to pause: it counts the pause, says so, and goes on to dial when the
time is over. -/
structure Pauses (w : World) (s : Supervisor) : Prop where
  happenings : happenings w s = [.paused (s.ready w).clock
    ((s.ready w).clock.wake w.uptime s.retry.delay) [s.retry.next.announcement (s.ready w).clock]]
  retry : (s.step w).retry = s.retry.next
  phase : (s.step w).phase = .dialling
  clock : (s.step w).clock = (s.ready w).clock.wake w.uptime s.retry.delay

theorem Pauses.of_pausing (hp : s.phase = .pausing) : Pauses w s := by
  have hstep : s.step w = (s.ready w).pause w := by
    rw [step_of_not_final (by rw [hp]; rfl)]
    unfold act
    rw [show (s.ready w).phase = .pausing from hp]
  refine ⟨?_, by rw [hstep]; rfl, by rw [hstep]; rfl, by rw [hstep]; rfl⟩
  have hlog : (s.step w).record.log =
      s.record.log ++ [s.retry.next.announcement (s.ready w).clock] := by rw [hstep]; rfl
  have hdials : (s.step w).record.dials = s.record.dials := by rw [hstep]; rfl
  have hevents : (s.step w).record.events = s.record.events := by rw [hstep]; rfl
  have hclock : (s.step w).clock = (s.ready w).clock.wake w.uptime s.retry.delay := by rw [hstep]; rfl
  simp [Supervisor.happenings, added, hp, hlog, hdials, hevents, hclock]

/-! ## Counting losses and dials -/

theorem Transition.retry_eq (h : Transition w s s') (hp : s.phase ≠ .pausing) :
    s'.retry = s.retry := by
  cases h with
  | rested hp' => exact absurd hp' hp
  | _ => rfl

theorem step_retry_eq (hp : s.phase ≠ .pausing) : (s.step w).retry = s.retry := by
  cases hf : s.phase.isFinal with
  | true => rw [step_of_final hf]
  | false => exact (step_transition (w := w) hf).retry_eq hp

/-- The books of a server after so many losses of the peer, dials of it and pauses. -/
structure Tally (w : World) (losses dials pauses : Nat) (s : Supervisor) : Prop where
  delay : s.retry.delay = w.config.retryDelay
  attempts : s.retry.attempts = UInt64.ofNat pauses
  losses : losses = pauses + if s.phase = .pausing then 1 else 0
  dials : dials = pauses + if s.phase = .dialling then 0 else 1
  late : s.clock < Instant.last → Instant.HostReaches w.uptime s.clock w.config.retryDelay →
    pauses * w.config.retryDelay.nanos ≤ s.clock.elapsed.nanos

theorem Tally.start (w : World) (dials accepts : Openings) (mailbox : Option Mailbox)
    (hm : w.config.mode = .tcpReverse) : Tally w 0 0 0 (start w dials accepts mailbox) where
  delay := rfl
  attempts := rfl
  losses := by simp [Supervisor.start, hm, Mode.isListening]
  dials := by simp [Supervisor.start, hm, Mode.isListening]
  late _ _ := by simp

theorem Closes.counts {rest : List Happening} (h : Closes s rest) :
    rest.countP isLoss = (if s.phase = .pausing then 1 else 0) ∧ rest.countP isControlDial = 0 ∧
      rest.countP isPause = 0 ∧ s.phase ≠ .dialling := by
  cases h with
  | lost hp => simp [hp, isLoss, isControlDial, isPause]
  | carriesOn hp hr =>
    have hd : s.phase ≠ .dialling := fun h => by simp [h, Phase.isReaching] at hp
    have hn : s.phase ≠ .pausing := fun h => by simp [h, Phase.isReaching] at hp
    simp only [isOrdinary, Bool.and_eq_true, Bool.not_eq_true'] at hr
    rw [if_neg hn]
    refine ⟨List.countP_eq_zero.2 fun x hx => ?_, List.countP_eq_zero.2 fun x hx => ?_,
      List.countP_eq_zero.2 fun x hx => ?_, hd⟩
    · simp [(hr x hx).1.1]
    · simp [(hr x hx).1.2]
    · simp [(hr x hx).2]

/-- A pause is counted, and adds the delay to a clock that the host's clock goes along with. -/
theorem Tally.pause {losses dials pauses : Nat} (h : Tally w losses dials pauses s)
    (hp : s.phase = .pausing) : Tally w losses dials (pauses + 1) (s.step w) := by
  have hpauses := Pauses.of_pausing (w := w) hp
  have hlosses := h.losses
  have hdials := h.dials
  rw [if_pos hp] at hlosses
  rw [if_neg (by simp [hp])] at hdials
  refine ⟨by rw [hpauses.retry]; exact h.delay, ?_, ?_, ?_, fun hlast hreach => ?_⟩
  · rw [hpauses.retry, Retry.next, h.attempts]
    exact (UInt64.ofNat_add pauses 1).symm
  · rw [if_neg (by simp [hpauses.phase]), hlosses]
  · rw [if_pos hpauses.phase, hdials]
  · rw [hpauses.clock, h.delay] at hlast hreach ⊢
    have hwake := Instant.le_wake w.uptime (s.ready w).clock w.config.retryDelay
    have hbegan : Instant.HostReaches w.uptime (s.ready w).clock w.config.retryDelay := hreach.mono hwake
    have hready := ready_clock_le w s
    have hlate := h.late (Nat.lt_of_le_of_lt (Nat.le_trans hready hwake) hlast) (hbegan.mono hready)
    have hpause := Instant.elapsed_add_le_wake hbegan hlast
    have helapsed := Instant.elapsed_nanos_le hready
    rw [Nat.add_mul, Nat.one_mul]
    omega

theorem Tally.step {losses dials pauses : Nat} (h : Tally w losses dials pauses s) :
    Tally w (losses + (happenings w s).countP isLoss) (dials + (happenings w s).countP isControlDial)
      (pauses + (happenings w s).countP isPause) (s.step w) := by
  cases hf : s.phase.isFinal with
  | true =>
    rw [happenings_of_final hf, step_of_final hf]
    exact h
  | false =>
    by_cases hp : s.phase = .pausing
    · rw [(Pauses.of_pausing hp).happenings]
      exact h.pause hp
    · have hretry := step_retry_eq (w := w) hp
      have hlosses := h.losses
      have hdials := h.dials
      rw [if_neg hp] at hlosses
      obtain ⟨rest, hrest, hhap⟩ := happenings_of_not_pausing (w := w) hp
      obtain ⟨hloss, hdial, hpause, hphase⟩ := hrest.counts
      have hpauses : (happenings w s).countP isPause = 0 := by
        rw [hhap, List.countP_append, hpause]
        split <;> simp [isPause]
      rw [hpauses]
      refine ⟨by rw [hretry]; exact h.delay, by rw [hretry]; exact h.attempts, ?_, ?_,
        fun hlast hreach => ?_⟩
      · rw [hhap, List.countP_append, hloss, hlosses]
        split <;> simp [isLoss]
      · rw [hhap, List.countP_append, hdial, hdials, if_neg hphase]
        split <;> simp [isControlDial]
      · have hle := step_clock_le w s
        exact Nat.le_trans (h.late (Nat.lt_of_le_of_lt hle hlast) (hreach.mono hle))
          (Instant.elapsed_nanos_le hle)

theorem Tally.run (h : Tally w 0 0 0 s) (n : Nat) :
    Tally w ((happenedBy w s n).countP isLoss) ((happenedBy w s n).countP isControlDial)
      ((happenedBy w s n).countP isPause) (run w n s) := by
  induction n with
  | zero => exact h
  | succ n ih =>
    rw [run_succ, happenedBy_succ, List.countP_append, List.countP_append, List.countP_append]
    exact ih.step

/-! ## From a loss to the next dial -/

theorem Closes.eq_of_loss {u : Instant} {reason : String} {rest : List Happening}
    (h : Closes s rest) (hmem : .told u (.controlLost reason) ∈ rest) :
    s.phase = .pausing ∧ s.clock = u ∧ rest = [.told u (.controlLost reason)] := by
  cases h with
  | lost hp =>
    cases List.mem_singleton.1 hmem
    exact ⟨hp, rfl, rfl⟩
  | carriesOn _ hr => exact absurd (hr _ hmem) (by simp [isOrdinary, isLoss])

/-- A loss is told last in its step, and the server goes on to pause. -/
theorem pausing_of_loss {u : Instant} {reason : String}
    (h : .told u (.controlLost reason) ∈ happenings w s) :
    (s.step w).phase = .pausing ∧ (s.step w).clock = u ∧
      ∃ front, happenings w s = front ++ [.told u (.controlLost reason)] := by
  by_cases hp : s.phase = .pausing
  · rw [(Pauses.of_pausing hp).happenings] at h
    simp at h
  · obtain ⟨rest, hrest, hhap⟩ := happenings_of_not_pausing (w := w) hp
    rw [hhap] at h ⊢
    have hmem : .told u (.controlLost reason) ∈ rest :=
      (List.mem_append.1 h).resolve_left (by split <;> simp)
    obtain ⟨hphase, hclock, rfl⟩ := hrest.eq_of_loss hmem
    exact ⟨hphase, hclock, _, rfl⟩

/-- A server goes on to pause only after a loss. -/
theorem loss_of_pausing (h : (s.step w).phase = .pausing) :
    ∃ u reason, .told u (.controlLost reason) ∈ happenings w s := by
  by_cases hp : s.phase = .pausing
  · cases h.symm.trans (Pauses.of_pausing hp).phase
  · obtain ⟨rest, hrest, hhap⟩ := happenings_of_not_pausing (w := w) hp
    rw [hhap]
    cases hrest with
    | lost _ => exact ⟨_, _, List.mem_append_right _ (List.mem_singleton.2 rfl)⟩
    | carriesOn hp _ => simp [h, Phase.isReaching] at hp

/-- A server goes on to dial its peer only after a pause. -/
theorem pausing_of_dialling (h : (s.step w).phase = .dialling) : s.phase = .pausing := by
  refine Decidable.byContradiction fun hp => ?_
  obtain ⟨_, hrest, -⟩ := happenings_of_not_pausing (w := w) hp
  exact hrest.counts.2.2.2 h

theorem Transition.steps_eq (h : Transition w s s') : s'.steps = s.steps := by
  cases h <;> rfl

theorem step_steps (hf : s.phase.isFinal = false) : (s.step w).steps = s.steps + 1 :=
  (step_transition (w := w) hf).steps_eq

/-- Steps are counted as long as there are any. -/
theorem run_steps (n : Nat) (h : (run w n s).phase.isFinal = false) :
    (run w n s).steps = s.steps + n := by
  induction n with
  | zero => rfl
  | succ n ih =>
    rw [run_succ] at h ⊢
    have hf : (run w n s).phase.isFinal = false := by
      refine eq_false_of_ne_true fun hf => ?_
      rw [step_of_final hf, hf] at h
      cases h
    rw [step_steps hf, ih hf]
    rfl

theorem not_final_of_mem {x : Happening} (h : x ∈ happenings w s) : s.phase.isFinal = false := by
  refine eq_false_of_ne_true fun hf => ?_
  rw [happenings_of_final hf] at h
  cases h

/-- From a loss to the next dial: a step that does nothing but pause, and then one that dials. -/
theorem pause_of_loss {losses dials pauses : Nat} {u : Instant} {reason : String}
    (h : Tally w losses dials pauses s) (hmem : .told u (.controlLost reason) ∈ happenings w s)
    (few : losses + 1 < UInt64.size) :
    let delay := w.config.retryDelay
    let began := u + w.lag (s.steps + 1)
    let next := (s.step w).step w
    (happenings w s).countP isLoss = 1 ∧
      happenings w (s.step w) = [.paused began (began.wake w.uptime delay) [Log.info began
        ("Reconnecting in " ++ delay.text ++ " (attempt " ++ toString (losses + 1) ++ ")")]] ∧
      next.phase = .dialling ∧
      (next.ready w).clock = began.wake w.uptime delay + w.lag (s.steps + 2) := by
  intro delay began next
  obtain ⟨hpausing, hclock, -⟩ := pausing_of_loss hmem
  have hp : s.phase ≠ .pausing := fun hp => by
    rw [(Pauses.of_pausing hp).happenings] at hmem
    simp at hmem
  have hretry : (s.step w).retry = s.retry := step_retry_eq hp
  have hlosses : losses = pauses := by rw [h.losses, if_neg hp, Nat.add_zero]
  have hsteps : (s.step w).steps = s.steps + 1 := step_steps (not_final_of_mem hmem)
  have hsteps' : next.steps = s.steps + 2 := by
    rw [step_steps (by rw [hpausing]; rfl), hsteps]
  have hready : ((s.step w).ready w).clock = began := by rw [ready, hclock, hsteps]
  obtain ⟨hpause, -, hdialling, hover⟩ := Pauses.of_pausing (w := w) hpausing
  rw [hready, hretry, h.delay] at hpause hover
  refine ⟨?_, ?_, hdialling, by rw [ready, hover, hsteps']⟩
  · -- The books count one loss more while the server is about to pause.
    have hnext := h.step.losses
    have hpauses := h.step.attempts
    rw [if_pos hpausing] at hnext
    have hnone : (happenings w s).countP isPause = 0 := by
      obtain ⟨rest, hrest, hhap⟩ := happenings_of_not_pausing (w := w) hp
      rw [hhap, List.countP_append, hrest.counts.2.2.1]
      split <;> simp [isPause]
    omega
  · have hcount : (UInt64.ofNat (losses + 1)).toNat = losses + 1 := by
      rw [UInt64.toNat_ofNat', Nat.mod_eq_of_lt few]
    have hattempts : s.retry.attempts + 1 = UInt64.ofNat (losses + 1) := by
      rw [h.attempts, hlosses]
      exact (UInt64.ofNat_add pauses 1).symm
    have hsaid : s.retry.next.announcement began = Log.info began ("Reconnecting in " ++ delay.text ++
        " (attempt " ++ toString (losses + 1) ++ ")") := by
      simp only [Retry.announcement, Retry.next, h.delay, hattempts, hcount, delay]
    rw [hpause, hsaid]

theorem Transition.record_grows (h : Transition w s s') :
    s.record.dials <+: s'.record.dials ∧ s.record.events <+: s'.record.events := by
  cases h <;> simp

theorem filterMap_added (control : Bool) (s s' : Supervisor) :
    (added control s s').filterMap dial? = s'.record.dials.drop s.record.dials.length ∧
      (added control s s').filterMap event? = s'.record.events.drop s.record.events.length ∧
      ∀ x ∈ added control s s', x.isPause = false := by
  unfold added
  generalize s'.record.dials.drop s.record.dials.length = dials
  generalize s'.record.events.drop s.record.events.length = events
  have hdial : dial? ∘ dialled control = some := rfl
  have hevent : event? ∘ dialled control = fun _ => none := rfl
  have hdial' : (dial? ∘ fun e : Instant × Event => told e.1 e.2) = fun _ => none := rfl
  have hevent' : (event? ∘ fun e : Instant × Event => told e.1 e.2) = some := rfl
  simp only [List.filterMap_append, List.filterMap_map, hdial, hevent, hdial', hevent']
  refine ⟨by simp, by simp, fun x hx => ?_⟩
  simp only [List.mem_append, List.mem_map] at hx
  rcases hx with ⟨_, _, rfl⟩ | ⟨_, _, rfl⟩ <;> rfl

/-- Every dial and every event on record has happened in some step, in that order. -/
theorem record_eq_happenedBy (w : World) (s : Supervisor) (n : Nat) :
    (run w n s).record.dials = s.record.dials ++ (happenedBy w s n).filterMap dial? ∧
      (run w n s).record.events = s.record.events ++ (happenedBy w s n).filterMap event? := by
  have grows : ∀ s : Supervisor, s.record.dials <+: (s.step w).record.dials ∧
      s.record.events <+: (s.step w).record.events := by
    intro s
    cases hf : s.phase.isFinal with
    | true => simp [step_of_final hf]
    | false => exact (step_transition (w := w) hf).record_grows
  have adds : ∀ s : Supervisor,
      (happenings w s).filterMap dial? = (s.step w).record.dials.drop s.record.dials.length ∧
      (happenings w s).filterMap event? = (s.step w).record.events.drop s.record.events.length := by
    intro s
    obtain ⟨hdials, hevents, -⟩ := filterMap_added (s.phase = .dialling) s (s.step w)
    unfold happenings
    rw [List.filterMap_append, List.filterMap_append, hdials, hevents]
    split <;> simp [dial?, event?]
  induction n with
  | zero => simp [happenedBy, run]
  | succ n ih =>
    rw [run_succ, happenedBy_succ, List.filterMap_append, List.filterMap_append, (adds _).1,
      (adds _).2, ← List.append_assoc, ← List.append_assoc, ← ih.1, ← ih.2]
    obtain ⟨hdials, hevents⟩ := grows (run w n s)
    exact ⟨List.prefix_iff_eq_append.1 hdials |>.symm, List.prefix_iff_eq_append.1 hevents |>.symm⟩

/-! ## The law -/

theorem dialling_of_dial {d : Dial} (h : .dialled true d ∈ happenings w s) :
    s.phase = .dialling ∧ d = dialOf w (s.ready w).clock := by
  by_cases hp : s.phase = .pausing
  · rw [(Pauses.of_pausing hp).happenings] at h
    simp at h
  · obtain ⟨rest, hrest, hhap⟩ := happenings_of_not_pausing (w := w) hp
    have hnone : .dialled true d ∉ rest := fun hmem =>
      List.countP_eq_zero.1 hrest.counts.2.1 _ hmem rfl
    rw [hhap] at h
    have hfront := (List.mem_append.1 h).resolve_right hnone
    split at hfront
    · rename_i hd
      cases List.mem_singleton.1 hfront
      exact ⟨hd, rfl⟩
    · cases hfront

theorem pausing_of_pause {began resumed : Instant} {said : Log}
    (h : .paused began resumed said ∈ happenings w s) : s.phase = .pausing := by
  refine Decidable.byContradiction fun hp => ?_
  rw [happenings, if_neg hp, List.append_nil] at h
  cases (filterMap_added ..).2.2 _ h

/-- Only by way of a loss does a server that began by dialling come to pause. -/
theorem loss_before_pausing (hs : s.phase = .dialling) (hp : (run w n s).phase = .pausing) :
    ∃ m u reason, n = m + 1 ∧ .told u (.controlLost reason) ∈ happenings w (run w m s) := by
  cases n with
  | zero => cases hs.symm.trans hp
  | succ m =>
    rw [run_succ] at hp
    obtain ⟨u, reason, hmem⟩ := loss_of_pausing hp
    exact ⟨m, u, reason, rfl, hmem⟩

theorem loss_before_dialling (hs : s.phase = .dialling) (hp : (run w n s).phase = .dialling) :
    n = 0 ∨ ∃ m u reason, n = m + 2 ∧ .told u (.controlLost reason) ∈ happenings w (run w m s) := by
  cases n with
  | zero => exact .inl rfl
  | succ n =>
    rw [run_succ] at hp
    obtain ⟨m, u, reason, rfl, hmem⟩ := loss_before_pausing hs (pausing_of_dialling hp)
    exact .inr ⟨m, u, reason, rfl, hmem⟩

/-- When a server dials, it has paused as often as there were losses and dials. -/
theorem Tally.of_dialling {losses dials pauses : Nat} (h : Tally w losses dials pauses s)
    (hp : s.phase = .dialling) : losses = pauses ∧ dials = pauses := by
  have hlosses := h.losses
  have hdials := h.dials
  rw [if_neg (by simp [hp])] at hlosses
  rw [if_pos hp] at hdials
  exact ⟨hlosses, hdials⟩

/-- A step that dials the peer dials it once. -/
theorem count_dial (hp : s.phase = .dialling) : (happenings w s).countP isControlDial = 1 := by
  obtain ⟨rest, hhap, hrest⟩ := happenings_of_dialling (w := w) hp
  rw [hhap, List.countP_cons_of_pos rfl, hrest.counts.2.1]

/-- From a loss on: the loss is one more, a pause follows, and then the dial that makes the dials as many
as the losses and one. -/
theorem dial_after_loss (h : Tally w 0 0 0 s) (hs : s.steps = 0) {u : Instant} {reason : String}
    (hmem : .told u (.controlLost reason) ∈ happenings w (run w n s)) :
    let delay := w.config.retryDelay
    let began := u + w.lag (n + 1)
    let losses n := (happenedBy w s n).countP isLoss
    losses (n + 1) < UInt64.size →
    losses (n + 1) = losses n + 1 ∧
      happenings w (run w (n + 1) s) = [.paused began (began.wake w.uptime delay) [Log.info began
        ("Reconnecting in " ++ delay.text ++ " (attempt " ++ toString (losses (n + 1)) ++ ")")]] ∧
      (happenedBy w s (n + 2)).countP isControlDial = losses (n + 1) ∧
      ∃ rest, happenings w (run w (n + 2) s) =
        .dialled true (dialOf w (began.wake w.uptime delay + w.lag (n + 2))) :: rest := by
  intro delay began losses few
  have hsteps : (run w n s).steps = n := by
    rw [run_steps n (not_final_of_mem hmem), hs, Nat.zero_add]
  have hsucc : losses (n + 1) = losses n + (happenings w (run w n s)).countP isLoss := by
    simp only [losses, happenedBy_succ, List.countP_append]
  have hpos : 0 < (happenings w (run w n s)).countP isLoss := List.countP_pos_iff.2 ⟨_, hmem, rfl⟩
  have few' : losses n + 1 < UInt64.size :=
    Nat.lt_of_le_of_lt (Nat.add_le_add_left hpos _) (hsucc ▸ few)
  obtain ⟨hcount, hpause, hdialling, hclock⟩ := pause_of_loss (h.run n) hmem few'
  rw [hsteps, ← run_succ] at hpause
  rw [← run_succ, ← run_succ] at hdialling
  rw [hsteps, ← run_succ, ← run_succ] at hclock
  have hloss : losses (n + 1) = losses n + 1 := by rw [hsucc, hcount]
  refine ⟨hloss, by rw [hloss]; exact hpause, ?_, ?_⟩
  · -- The step between pauses only, so the losses that the dial finds counted are those up to this one.
    have hpaused : losses (n + 2) = losses (n + 1) := by
      simp only [losses, happenedBy_succ w s (n + 1), List.countP_append, hpause]
      rfl
    obtain ⟨hlosses, hdials⟩ := (h.run (n + 2)).of_dialling hdialling
    rw [hdials, ← hlosses]
    exact hpaused
  · obtain ⟨rest, hdial, -⟩ := happenings_of_dialling (w := w) hdialling
    exact ⟨rest, by rw [← hclock]; exact hdial⟩

/-- **Getting back to the peer.** A server that dials its peer dials it at once. When the peer is told lost
for the `k`-th time, that ends its step; the next step only pauses, announced as attempt `k`, and the one
after begins with the `k + 1`-st dial. There are no other pauses and dials, and one stream to the peer at
most. A pause takes its delay; one that the clock does not get to the end of is over when the clock is, or
takes thirty years if the host's clock does not get there either. -/
theorem reconnects {w : World} (hm : w.config.mode = .tcpReverse) (dials accepts : Openings)
    (mailbox : Option Mailbox) :
    let s := start w dials accepts mailbox
    let delay := w.config.retryDelay
    let does n := happenings w (run w n s)
    let losses n := (happenedBy w s n).countP isLoss
    let tries n := (happenedBy w s n).countP isControlDial
    (∀ n, (run w n s).record.dials = (happenedBy w s n).filterMap dial? ∧
      (run w n s).record.events = (happenedBy w s n).filterMap event?) ∧
    (∃ rest, does 0 = .dialled true (dialOf w (w.lag 0)) :: rest) ∧
    (∀ n u reason, .told u (.controlLost reason) ∈ does n →
      let began := u + w.lag (n + 1)
      (∃ front, does n = front ++ [.told u (.controlLost reason)]) ∧
      (losses (n + 1) < UInt64.size →
        losses (n + 1) = losses n + 1 ∧
        does (n + 1) = [.paused began (began.wake w.uptime delay) [Log.info began ("Reconnecting in " ++
          delay.text ++ " (attempt " ++ toString (losses (n + 1)) ++ ")")]] ∧
        tries (n + 2) = losses (n + 1) ∧
        ∃ rest, does (n + 2) =
          .dialled true (dialOf w (began.wake w.uptime delay + w.lag (n + 2))) :: rest)) ∧
    (∀ n began resumed said, .paused began resumed said ∈ does n →
      ∃ m u reason, n = m + 1 ∧ .told u (.controlLost reason) ∈ does m) ∧
    (∀ n d, .dialled true d ∈ does n →
      (n = 0 ∨ ∃ m u reason, n = m + 2 ∧ .told u (.controlLost reason) ∈ does m) ∧
      tries (n + 1) = tries n + 1 ∧ openControls w s n = [] ∧
      (d.time < Instant.last → Instant.HostReaches w.uptime d.time delay →
        tries n * delay.nanos ≤ d.time.elapsed.nanos)) ∧
    (∀ n, (openControls w s n).length ≤ 1) ∧
    ∀ began : Instant,
      (began + delay.ceilMillis ≤ Instant.last →
        began.wake w.uptime delay = began + delay.ceilMillis) ∧
      (Instant.last < began + delay.ceilMillis → Instant.HostReaches w.uptime began delay →
        began.wake w.uptime delay = max began Instant.last) ∧
      (¬Instant.HostReaches w.uptime began delay → began + Instant.thirtyYears ≤ Instant.last →
        began.wake w.uptime delay = began + Instant.thirtyYears) := by
  intro s delay does losses tries
  have htally := Tally.start w dials accepts mailbox hm
  have hlone := Lone.start w dials accepts mailbox hm
  have hstart : s.phase = .dialling := by simp [s, start, hm, Mode.isListening]
  refine ⟨fun n => ?_, ?_, fun n u reason hmem => ?_, fun n began resumed said hmem =>
    loss_before_pausing hstart (pausing_of_pause hmem), fun n d hmem => ?_,
    openControls_length_le hlone, fun began => ⟨Instant.wake_of_le, fun hlast hreach =>
      Instant.wake_of_lt hreach hlast, Instant.wake_of_beyond⟩⟩
  · simpa [s, start] using record_eq_happenedBy w s n
  · obtain ⟨rest, hhap, -⟩ := happenings_of_dialling (w := w) hstart
    exact ⟨rest, hhap.trans (by simp [ready, s, start])⟩
  · obtain ⟨-, -, hfront⟩ := pausing_of_loss hmem
    exact ⟨hfront, dial_after_loss htally rfl hmem⟩
  · obtain ⟨hp, rfl⟩ := dialling_of_dial hmem
    refine ⟨loss_before_dialling hstart hp, ?_, openControls_eq_nil hlone hp, fun hlast hreach => ?_⟩
    · simp only [tries, happenedBy_succ, List.countP_append]
      rw [count_dial hp]
    · have hlater := ready_clock_le w (run w n s)
      have htries : tries n = (happenedBy w s n).countP isPause := ((htally.run n).of_dialling hp).2
      have hlate := (htally.run n).late (Nat.lt_of_le_of_lt hlater hlast) (hreach.mono hlater)
      rw [htries]
      exact Nat.le_trans hlate (Instant.elapsed_nanos_le hlater)

/-- A server that pauses for 5 ms, and is held up before its fifth step. -/
def patient : World where
  config := { mode := .tcpReverse, remoteHost := some "peer", retryDelay := .ofMillis 5 }
  worker := .ofPlans []
  lag n := if n = 4 then 3 else 0

/-- It is refused at first, then reaches its peer, and is left by it. -/
def patientStart : Supervisor :=
  start patient ⟨[.fails 1 "refused", .opens 1 ⟨[⟨0, .bytes (Word.encode 5556)⟩, ⟨7, .ended⟩], [],
    none⟩], .fails 0 "refused"⟩ ⟨[], .hangs⟩ none

/-- The connection in between does not reset the count, and the hold-up comes before the pause. -/
theorem reconnects_patient :
    patient.config.mode = .tcpReverse ∧
      .told 14 (.controlLost ConnectionError.closed.message) ∈
        happenings patient (run patient 3 patientStart) ∧
      (happenedBy patient patientStart 4).countP isLoss = 2 ∧
      happenings patient (run patient 4 patientStart) = [.paused 17 22
        [Log.info 17 "Reconnecting in 5ms (attempt 2)"]] ∧
      (∃ rest, happenings patient (run patient 5 patientStart) =
        .dialled true ⟨22, "peer", 22468⟩ :: rest) ∧
      2 * (Duration.ofMillis 5).nanos ≤ (Instant.elapsed 22).nanos := by
  have lost : .told 14 (.controlLost ConnectionError.closed.message) ∈
      happenings patient (run patient 3 patientStart) := by decide +kernel
  have twice : (happenedBy patient patientStart 4).countP isLoss = 2 := by decide +kernel
  have said : "Reconnecting in " ++ patient.config.retryDelay.text ++ " (attempt " ++
      toString 2 ++ ")" = "Reconnecting in 5ms (attempt 2)" := by decide +kernel
  have again : .dialled true ⟨22, "peer", 22468⟩ ∈ happenings patient (run patient 5 patientStart) := by
    decide +kernel
  have few : (happenedBy patient patientStart 4).countP isLoss < UInt64.size := by rw [twice]; decide
  have wakes : Instant.wake patient.uptime 17 patient.config.retryDelay = 22 := by decide +kernel
  have reach : Instant.HostReaches patient.uptime 22 patient.config.retryDelay := by decide +kernel
  unfold patientStart at lost twice again few ⊢
  obtain ⟨-, -, hloss, -, hdials, -, -⟩ := reconnects (w := patient) rfl _ _ _
  obtain ⟨-, hpause, htries, rest, hdial⟩ := (hloss 3 14 _ lost).2 few
  have began : 14 + patient.lag (3 + 1) = 17 := rfl
  dsimp only at hpause hdial htries
  rw [began, wakes, twice, said] at hpause
  rw [began, wakes] at hdial
  rw [twice] at htries
  have late := (hdials 5 _ again).2.2.2 (by decide) reach
  dsimp only at late
  rw [htries] at late
  exact ⟨rfl, lost, twice, hpause, ⟨rest, hdial⟩, late⟩

/-- A server that is to pause for longer than a timer can be set for. -/
def endlessPause : World where
  config := { mode := .tcpReverse, remoteHost := some "peer", retryDelay := .ofSecs (Nat.pow 2 63) }
  worker := .ofPlans []

/-- It is always refused. -/
def endlessPauseStart : Supervisor :=
  start endlessPause ⟨[], .fails 0 "refused"⟩ ⟨[], .hangs⟩ none

/-- A pause beyond the timer is over after thirty years, long before its time. -/
theorem dial_precedes_endlessPause :
    happenings endlessPause (run endlessPause 0 endlessPauseStart) =
      [.dialled true ⟨0, "peer", 22468⟩,
        .told 0 (.controlLost (ConnectionError.dial "peer:22468" "refused").message)] ∧
      (∃ rest, happenings endlessPause (run endlessPause 2 endlessPauseStart) =
        .dialled true ⟨Instant.thirtyYears, "peer", 22468⟩ :: rest) ∧
      (Instant.elapsed Instant.thirtyYears).nanos < endlessPause.config.retryDelay.nanos := by
  refine ⟨by decide +kernel, ⟨[.told Instant.thirtyYears (.controlLost
    (ConnectionError.dial "peer:22468" "refused").message)], by decide +kernel⟩, by decide +kernel⟩

end StreamServer.Supervisor
