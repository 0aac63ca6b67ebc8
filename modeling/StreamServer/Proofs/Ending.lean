/-
How a run ends, whatever the sessions do. Sessions are waited for in the last
step only, the worker is told once that no more streams come, and a session
that was let go of had finished by then.
-/
import StreamServer.Proofs.RegistryFacts
import StreamServer.Proofs.Runs

namespace StreamServer.Supervisor

variable {w : World} {s s' : Supervisor}

/-- What has become of sessions and worker by the way a run ended, or in the course of it. -/
def Closing (s : Supervisor) : Prop :=
  match s.phase with
  | .ended (.drained joined) =>
    s.record.finalized = [s.clock] ∧ s.registry.entries = [] ∧ s.record.joined.length = joined ∧
      ∀ x ∈ s.record.joined, x.finishedBy s.clock = true ∧ x.collected = true
  | .stuck _ => s.record.finalized = []
  | _ => s.record.finalized = [] ∧ s.record.joined = []

theorem Closing.of_not_final (h : Closing s) (hf : s.phase.isFinal = false) :
    s.record.finalized = [] ∧ s.record.joined = [] := by
  unfold Closing at h
  split at h
  · simp_all [Phase.isFinal]
  · simp_all [Phase.isFinal]
  · exact h

theorem Closing.of_drained {joined : Nat} (h : Closing s) (hp : s.phase = .ended (.drained joined)) :
    s.record.finalized = [s.clock] ∧ s.registry.entries = [] ∧ s.record.joined.length = joined ∧
      ∀ x ∈ s.record.joined, x.finishedBy s.clock = true ∧ x.collected = true := by
  unfold Closing at h
  rwa [hp] at h

theorem Closing.of_stopped (h : Closing s) (hp : s.phase = .ended .stopped) :
    s.record.finalized = [] ∧ s.record.joined = [] := by
  unfold Closing at h
  rwa [hp] at h

/-- The worker is told nothing unless the run ends by draining. -/
theorem Closing.finalized_eq_nil (h : Closing s)
    (hp : ∀ joined, s.phase ≠ .ended (.drained joined)) : s.record.finalized = [] := by
  unfold Closing at h
  split at h
  · rename_i joined hd
    exact absurd hd (hp joined)
  · exact h
  · exact h.1

/-- A phase that is not final asks for no more than that nothing was waited for. -/
theorem Closing.mk_of_not_final (hf : s.phase.isFinal = false)
    (h : s.record.finalized = [] ∧ s.record.joined = []) : Closing s := by
  unfold Closing
  split
  · simp_all [Phase.isFinal]
  · exact h.1
  · exact h

theorem Transition.not_final (h : Transition w s s') : s.phase.isFinal = false := by
  cases h with
  | _ hp => simp [hp, Phase.isFinal]

theorem afterStream_not_final (s : Supervisor) (link : Option Link) :
    (s.afterStream link).isFinal = false := by
  unfold afterStream
  split
  · rfl
  · cases link <;> rfl

theorem afterStream_ne_ended (s : Supervisor) (link : Option Link) (exit : Exit) :
    s.afterStream link ≠ .ended exit := by
  intro h
  have hf := afterStream_not_final s link
  rw [h] at hf
  cases hf

theorem Closing.move (h : Closing s) (ht : Transition w s s') : Closing s' := by
  have hn := h.of_not_final ht.not_final
  cases ht with
  | acceptHung | dialHung | handshakeHung | turnHung | fetchHung | greetHung | drainHung => exact hn.1
  | stopped => exact hn
  | drained _ hj =>
    have hjoined := Registry.joinAll_sessions hj
    have hlen : (s.registry.sessions.map Session.take).length = s.registry.size := by
      simp [Registry.size, Registry.sessions]
    refine ⟨by simp [hn.1], rfl, by rw [hn.2, hjoined]; exact hlen, fun x hx => ?_⟩
    simp only [hn.2, hjoined, List.nil_append] at hx
    obtain ⟨y, hy, rfl⟩ := List.mem_map.1 hx
    exact ⟨(Registry.joinAll_finished hj).2 y hy, y.collected_take⟩
  | notFetched | dismissed | full | refused | tracked | duplicate =>
    exact .mk_of_not_final (afterStream_not_final ..) hn
  | _ => exact hn

theorem Closing.ready (h : Closing s) (hf : s.phase.isFinal = false) : Closing (s.ready w) :=
  .mk_of_not_final hf (h.of_not_final hf)

theorem Closing.run (h : Closing s) (n : Nat) : Closing (run w n s) :=
  run_keeps (P := Closing) (fun _ => Iff.rfl) (fun _ hf h => h.ready hf) (fun _ _ => Closing.move)
    h n

theorem Closing.start (w : World) (dials accepts : Openings) (mailbox : Option Mailbox) :
    Closing (start w dials accepts mailbox) := by
  refine .mk_of_not_final ?_ ⟨rfl, rfl⟩
  unfold Supervisor.start
  dsimp only
  split <;> rfl

/-! ## Sessions that were let go of -/

/-- Only sessions that have finished are let go of. -/
def ReapedFinished (s : Supervisor) : Prop := ∀ x ∈ s.record.reaped, x.finishedBy s.clock = true

theorem ReapedFinished.mono (h : ReapedFinished s) (hr : s'.record.reaped = s.record.reaped)
    (hc : s.clock ≤ s'.clock) : ReapedFinished s' := by
  intro x hx
  rw [hr] at hx
  exact Session.finishedBy_mono hc (h x hx)

theorem ReapedFinished.move (h : ReapedFinished s) (ht : Transition w s s') :
    ReapedFinished s' := by
  have hc := ht.clock_le
  cases ht with
  | tracked | duplicate =>
    intro x hx
    rcases List.mem_append.1 hx with hx | hx
    · exact h x hx
    · exact Registry.finishedBy_of_mem_gone hx
  | _ => exact h.mono rfl hc

theorem ReapedFinished.run (h : ReapedFinished s) (n : Nat) : ReapedFinished (run w n s) :=
  run_keeps (P := ReapedFinished) (fun _ => Iff.rfl)
    (fun s _ h => h.mono rfl (ready_clock_le w s)) (fun _ _ => ReapedFinished.move) h n

theorem ReapedFinished.start (w : World) (dials accepts : Openings) (mailbox : Option Mailbox) :
    ReapedFinished (start w dials accepts mailbox) := nofun

end StreamServer.Supervisor
