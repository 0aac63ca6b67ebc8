/-
The two ways a run ends. A server that drains tells its worker that no more
streams come once, when every session it ever started has finished. A server
that is stopped by its peer tells the worker nothing and leaves its sessions
as they are.
-/
import StreamServer.Proofs.Conservation

namespace StreamServer.Supervisor

variable {w : World} {s s' : Supervisor}

/-! ## The last step -/

/-- A run that has ended made a last step, from a state in which it had not. -/
theorem exists_last_step {exit : Exit} {n : Nat} (h₀ : s.phase ≠ .ended exit)
    (h : (run w n s).phase = .ended exit) :
    ∃ m < n, (run w m s).phase.isFinal = false ∧ run w (m + 1) s = run w n s := by
  induction n with
  | zero => exact absurd h h₀
  | succ n ih =>
    cases hf : (run w n s).phase.isFinal with
    | false => exact ⟨n, Nat.lt_succ_self n, hf, rfl⟩
    | true =>
      have hsame : run w (n + 1) s = run w n s := by rw [run_succ, step_of_final hf]
      rw [hsame] at h ⊢
      obtain ⟨m, hlt, hm, hlast⟩ := ih h
      exact ⟨m, Nat.lt_succ_of_lt hlt, hm, hlast⟩

theorem Transition.drained_inv {joined : Nat} (h : Transition w s s')
    (hx : s'.phase = .ended (.drained joined)) :
    s.phase = .draining ∧ joined = s.registry.size ∧
      (Registry.joinAll s.clock s.registry.sessions).time = some s'.clock := by
  cases h with
  | drained hp ht => cases hx; exact ⟨hp, rfl, ht⟩
  | notFetched | dismissed | full | refused | tracked | duplicate =>
    exact absurd hx (afterStream_ne_ended _ _ _)
  | _ => cases hx

theorem Transition.stopped_inv (h : Transition w s s') (hx : s'.phase = .ended .stopped) :
    ∃ link, s.phase = .serving link ∧
      (link.next s.clock).outcome = some (s'.clock, .ok .stop) ∧
      s' = { s with clock := s'.clock, phase := .ended .stopped } := by
  cases h with
  | stopped hp ho => exact ⟨_, hp, ho, rfl⟩
  | notFetched | dismissed | full | refused | tracked | duplicate =>
    exact absurd hx (afterStream_ne_ended _ _ _)
  | _ => cases hx

/-- Draining tells the worker when all sessions are out of the registry and waited for. -/
theorem drain_eq_finalize {t : Instant}
    (ht : (Registry.joinAll s.clock s.registry.sessions).time = some t) :
    ∃ q : Supervisor, s.drain = q.finalize s.registry.size ∧ q.clock = t ∧
      q.registry.entries = [] ∧ q.record.started = s.record.started := by
  unfold drain Registry.drain
  simp only [ht]
  exact ⟨_, rfl, rfl, rfl, rfl⟩

theorem finalize_started (q : Supervisor) (joined : Nat) :
    (q.finalize joined).record.started = q.record.started := by
  have h : (q.finalize joined).quiet.record.started = q.quiet.record.started := by
    simp only [finalize, quiet_become, quiet_emit, quiet_say]
    rfl
  exact h

/-- A run that ended by draining told the worker in its last step. -/
theorem drained_last_step {n joined : Nat} (h₀ : s.phase ≠ .ended (.drained joined))
    (hp : (run w n s).phase = .ended (.drained joined)) :
    ∃ m < n, ∃ q : Supervisor, (run w m s).phase = .draining ∧
      run w (m + 1) s = q.finalize joined ∧ run w (m + 1) s = run w n s ∧
      q.clock = (run w n s).clock ∧ q.registry.entries = [] ∧
      q.record.started = (run w n s).record.started := by
  obtain ⟨m, hlt, hm, hlast⟩ := exists_last_step h₀ hp
  have hmove := step_transition (w := w) hm
  rw [← run_succ, hlast] at hmove
  obtain ⟨hdraining, hjoined, htime⟩ := hmove.drained_inv hp
  obtain ⟨q, hq, hclock, hempty, -⟩ := drain_eq_finalize (s := (run w m s).ready w) htime
  have hact : ((run w m s).ready w).act w = ((run w m s).ready w).drain := by
    unfold act
    rw [show ((run w m s).ready w).phase = .draining from hdraining]
  have hstep : run w (m + 1) s = q.finalize joined := by
    rw [run_succ, step_of_not_final hm, hact, hjoined]
    exact hq
  refine ⟨m, hlt, q, hdraining, hstep, hlast, hclock, hempty, ?_⟩
  rw [← hlast, hstep, finalize_started]

/-- A run that was stopped left the registry as it was in its last step. -/
theorem stopped_last_step {n : Nat} (h₀ : s.phase ≠ .ended .stopped)
    (hp : (run w n s).phase = .ended .stopped) :
    ∃ m < n, ∃ link, (run w m s).phase = .serving link ∧ run w (m + 1) s = run w n s ∧
      (run w n s).registry = (run w m s).registry ∧
      (run w n s).record.reaped = (run w m s).record.reaped := by
  obtain ⟨m, hlt, hm, hlast⟩ := exists_last_step h₀ hp
  have hmove := step_transition (w := w) hm
  rw [← run_succ, hlast] at hmove
  obtain ⟨link, hserving, -, hsame⟩ := hmove.stopped_inv hp
  have hreg := congrArg Supervisor.registry hsame
  have hreaped := congrArg (fun s : Supervisor => s.record.reaped) hsame
  exact ⟨m, hlt, link, hserving, hlast, hreg, hreaped⟩

theorem start_phase_ne_ended (w : World) (dials accepts : Openings) (mailbox : Option Mailbox)
    (exit : Exit) : (start w dials accepts mailbox).phase ≠ .ended exit := by
  unfold start
  dsimp only
  split <;> nofun

/-! ## What has become of every session -/

/-- When nothing is tracked, in hand or still waited for, every session has finished. -/
theorem Accounted.finished_of_drained {used joined : Nat} (h : Accounted used s) (hc : Closing s)
    (hr : ReapedFinished s) (hp : s.phase = .ended (.drained joined)) :
    ∀ x ∈ s.record.started, x.finishedBy s.clock = true := by
  intro x hx
  obtain ⟨-, hempty, -, hfin⟩ := hc.of_drained hp
  obtain ⟨y, hplace, rfl⟩ := List.mem_map.1 (h.places.mem_iff.1 hx)
  simp only [sessions, hp, Phase.inHand, Registry.sessions, hempty, List.map_nil, List.append_nil,
    List.mem_append] at hplace
  rcases hplace with hplace | hplace
  · exact hr y hplace
  · exact (hfin y hplace).1

/-- A session that still runs when the peer stops the server is still tracked. -/
theorem Accounted.tracked_of_stopped {used : Nat} (h : Accounted used s) (hc : Closing s)
    (hr : ReapedFinished s) (hp : s.phase = .ended .stopped) :
    ∀ x ∈ s.record.started, x.finishedBy s.clock = false → x ∈ s.registry.sessions := by
  intro x hx hrun
  obtain ⟨y, hplace, rfl⟩ := List.mem_map.1 (h.places.mem_iff.1 hx)
  simp only [sessions, hp, Phase.inHand, (hc.of_stopped hp).2, List.append_nil, List.mem_append] at hplace
  rcases hplace with hplace | hplace
  · cases (hr y hplace).symm.trans hrun
  · rwa [Session.asStarted_of_taken (h.unread y (List.mem_append_left _ hplace))]

/-! ## Both endings -/

/-- **Draining comes before finalizing, and stopping leaves all as it is.** A run that ends by draining
calls `finalize` once, in its last step, when the registry is empty and every session has finished. In
every other state of a run the worker was told nothing. A run that was stopped waited for no session and
took none out of the registry, so those that still run are still tracked. -/
theorem finalize_after_drain (w : World) (dials accepts : Openings) (mailbox : Option Mailbox)
    (n : Nat) :
    let s₀ := start w dials accepts mailbox
    let s := run w n s₀
    (∀ joined, s.exit? = some (.drained joined) →
      ∃ m < n, ∃ q : Supervisor, (run w m s₀).phase = .draining ∧
        run w (m + 1) s₀ = q.finalize joined ∧ run w (m + 1) s₀ = s ∧
        s.record.finalized = [q.clock] ∧ q.registry.entries = [] ∧
        q.record.started = s.record.started ∧
        (dataStreams w s₀ n < 2 ^ 64 → ∀ x ∈ s.record.started, x.finishedBy q.clock = true)) ∧
    ((∀ joined, s.exit? ≠ some (.drained joined)) → s.record.finalized = []) ∧
    (s.exit? = some .stopped →
      ∃ m < n, ∃ link, (run w m s₀).phase = .serving link ∧ run w (m + 1) s₀ = s ∧
        s.registry = (run w m s₀).registry ∧ s.record.reaped = (run w m s₀).record.reaped ∧
        s.record.joined = [] ∧
        (dataStreams w s₀ n < 2 ^ 64 →
          ∀ x ∈ s.record.started, x.finishedBy s.clock = false → x ∈ s.registry.sessions)) := by
  intro s₀ s
  have hc : Closing s := (Closing.start w dials accepts mailbox).run n
  have hr : ReapedFinished s := (ReapedFinished.start w dials accepts mailbox).run n
  have books (few : dataStreams w s₀ n < 2 ^ 64) : ∃ used, Accounted used s := by
    obtain ⟨used, -, h⟩ := (Accounted.start w dials accepts mailbox).run n few
    exact ⟨used, h⟩
  refine ⟨fun joined hx => ?_, fun hx => ?_, fun hx => ?_⟩
  · have hp : s.phase = .ended (.drained joined) := exit?_eq_some_iff.1 hx
    obtain ⟨m, hlt, q, hdraining, hstep, hlast, hclock, hempty, hstarted⟩ :=
      drained_last_step (start_phase_ne_ended w dials accepts mailbox _) hp
    have hfin : s.record.finalized = [q.clock] := by rw [hclock, (hc.of_drained hp).1]
    refine ⟨m, hlt, q, hdraining, hstep, hlast, hfin, hempty, hstarted, fun few => ?_⟩
    obtain ⟨used, h⟩ := books few
    rw [hclock]
    exact h.finished_of_drained hc hr hp
  · exact hc.finalized_eq_nil fun joined hp => hx joined (exit?_eq_some_iff.2 hp)
  · have hp : s.phase = .ended .stopped := exit?_eq_some_iff.1 hx
    obtain ⟨m, hlt, link, hserving, hlast, hreg, hreaped⟩ :=
      stopped_last_step (start_phase_ne_ended w dials accepts mailbox _) hp
    refine ⟨m, hlt, link, hserving, hlast, hreg, hreaped, (hc.of_stopped hp).2, fun few => ?_⟩
    obtain ⟨used, h⟩ := books few
    exact h.tracked_of_stopped hc hr hp

/-- A world in which the server dials its peer and its session never ends. -/
def endless : World :=
  { config := { mode := .tcpReverse, remoteHost := some "peer" }, worker := .ofPlans [.hang] }

/-- A peer that answers with a port and sends these commands at once; data streams carry no flags. -/
def bossyPeer (commands : List Command) : Supervisor :=
  start endless
    ⟨[.opens 1 ⟨[⟨0, .bytes (Word.encode 5556 ++ commands.flatMap Command.encode)⟩], [], none⟩],
      caller .empty⟩
    ⟨[], .hangs⟩ none

/-- A listening server that drains, and one whose peer stops it while its session runs. -/
theorem finalize_after_drain_twice :
    (run shortAndLong 13 threeCallers).exit? = some (.drained 1) ∧
      (∃ t, (run shortAndLong 13 threeCallers).record.finalized = [t] ∧
        ∀ x ∈ (run shortAndLong 13 threeCallers).record.started, x.finishedBy t = true) ∧
      (run endless 8 (bossyPeer [.new, .stop])).exit? = some .stopped ∧
      (run endless 8 (bossyPeer [.new, .stop])).record.finalized = [] ∧
      (run endless 8 (bossyPeer [.new, .stop])).registry.size = 1 := by
  have drained : (run shortAndLong 13 threeCallers).exit? = some (.drained 1) := by decide +kernel
  have few : dataStreams shortAndLong threeCallers 13 < 2 ^ 64 :=
    Nat.lt_of_le_of_lt (dataStreams_le ..) (by decide)
  have stopped : (run endless 8 (bossyPeer [.new, .stop])).exit? = some .stopped := by
    decide +kernel
  have tracked : (run endless 8 (bossyPeer [.new, .stop])).registry.size = 1 := by decide +kernel
  -- The theorem speaks of `start`: with the names unfolded nothing has to be evaluated to see it.
  unfold threeCallers at drained few ⊢
  unfold bossyPeer at stopped tracked ⊢
  obtain ⟨m, -, q, -, -, -, hfin, -, -, hall⟩ :=
    (finalize_after_drain shortAndLong _ _ _ 13).1 1 drained
  refine ⟨drained, ⟨q.clock, hfin, hall few⟩, stopped, ?_, tracked⟩
  exact (finalize_after_drain endless _ _ _ 8).2.1 fun joined hx =>
    nomatch stopped.symm.trans hx

end StreamServer.Supervisor
