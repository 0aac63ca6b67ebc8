/-
Runs of a server: what holds at the start and is kept by every transition
holds in every state of a run. The clock never goes back, and a server that
was asked to exit takes no further stream.
-/
import StreamServer.Proofs.Timing
import StreamServer.Proofs.Transition

namespace StreamServer.Supervisor

variable {w : World} {s s' : Supervisor}

/-- The server when its next step begins. -/
def ready (w : World) (s : Supervisor) : Supervisor :=
  { s with clock := s.clock + w.lag s.steps, steps := s.steps + 1 }

theorem step_of_final (h : s.phase.isFinal = true) : s.step w = s := by simp [step, h]

theorem step_of_not_final (h : s.phase.isFinal = false) : s.step w = (s.ready w).act w := by
  simp [step, ready, h]

theorem step_transition (h : s.phase.isFinal = false) :
    Transition w (s.ready w).quiet (s.step w).quiet := by
  rw [step_of_not_final h]
  exact act_transition h

theorem run_succ (n : Nat) (s : Supervisor) : run w (n + 1) s = (run w n s).step w := by
  induction n generalizing s with
  | zero => rfl
  | succ n ih => exact ih (s.step w)

theorem run_add (m n : Nat) (s : Supervisor) : run w (m + n) s = run w n (run w m s) := by
  induction n with
  | zero => rfl
  | succ n ih => rw [← Nat.add_assoc, run_succ, run_succ, ih]

theorem run_of_final (h : s.phase.isFinal = true) (n : Nat) : run w n s = s := by
  induction n with
  | zero => rfl
  | succ n ih => rw [run_succ, ih, step_of_final h]

theorem exit?_eq_some_iff {exit : Exit} : s.exit? = some exit ↔ s.phase = .ended exit := by
  unfold exit?
  split <;> simp_all

/-! ## Invariants -/

/-- What a held-up server keeps and every transition keeps, a step keeps. -/
theorem step_keeps {P : Supervisor → Prop} (hq : ∀ s, P s.quiet ↔ P s)
    (hready : ∀ s, s.phase.isFinal = false → P s → P (s.ready w))
    (hmove : ∀ s s', P s → Transition w s s' → P s') (h : P s) : P (s.step w) := by
  cases hf : s.phase.isFinal with
  | true => rwa [step_of_final hf]
  | false =>
    have hr : P (s.ready w).quiet := (hq _).2 (hready s hf h)
    exact (hq _).1 (hmove _ _ hr (step_transition hf))

/-- What holds at the start then holds in every state of a run. -/
theorem run_keeps {P : Supervisor → Prop} (hq : ∀ s, P s.quiet ↔ P s)
    (hready : ∀ s, s.phase.isFinal = false → P s → P (s.ready w))
    (hmove : ∀ s s', P s → Transition w s s' → P s') (h : P s) (n : Nat) : P (run w n s) := by
  induction n with
  | zero => exact h
  | succ n ih =>
    rw [run_succ]
    exact step_keeps hq hready hmove ih

/-! ## The clock -/

/-- A transition takes its time, or none. -/
theorem Transition.clock_le (h : Transition w s s') : s.clock ≤ s'.clock := by
  cases h with
  | accepted _ _ ha | fetched _ _ ha => exact le_of_ask_stream ha
  | acceptFailed _ _ ha | unreached _ _ ha | notFetched _ _ ha => exact le_of_ask_failed ha
  | unanswered _ _ ha hh | connected _ _ ha hh =>
    exact Nat.le_trans (le_of_ask_stream ha) (Control.handshake_time (by rw [hh]; rfl))
  | handshakeHung _ _ ha _ => exact le_of_ask_stream ha
  | ordered _ ho | stopped _ ho | pinged _ ho | idled _ ho | lost _ ho => exact Link.le_of_next ho
  | exitAsked _ hg _ | numbered _ hg _ => exact Greeting.le_of_read_flags hg
  | dismissed _ hg => exact Greeting.le_of_read_failed hg
  | rested => exact Instant.le_wake ..
  | drained _ ht => exact (Registry.joinAll_finished ht).1
  | _ => exact Nat.le_refl _

theorem ready_clock_le (w : World) (s : Supervisor) : s.clock ≤ (s.ready w).clock :=
  Nat.le_add_right ..

theorem step_clock_le (w : World) (s : Supervisor) : s.clock ≤ (s.step w).clock := by
  cases hf : s.phase.isFinal with
  | true => exact Nat.le_of_eq (by rw [step_of_final hf])
  | false => exact Nat.le_trans (ready_clock_le w s) (step_transition hf).clock_le

/-! ## Asked to exit -/

/-- No more streams are taken in this phase. -/
def Phase.isLeaving : Phase → Bool
  | .draining | .ended _ | .stuck _ => true
  | _ => false

/-- A server that was asked to exit takes no more streams. -/
def Resolute (s : Supervisor) : Prop := s.exiting = true → s.phase.isLeaving = true

theorem Resolute.exiting_eq_false (h : Resolute s) (hp : s.phase.isLeaving = false) :
    s.exiting = false := by
  cases hx : s.exiting with
  | false => rfl
  | true => simp [h hx] at hp

theorem Resolute.afterStream (h : Resolute s) (hp : s.phase.isLeaving = false)
    (link : Option Link) : s.afterStream link = .back link := by
  simp [Supervisor.afterStream, h.exiting_eq_false hp]

theorem Resolute.move (h : Resolute s) (ht : Transition w s s') : Resolute s' := by
  intro hx
  cases ht with
  | acceptFailed | acceptHung | dialHung | handshakeHung | stopped | turnHung | fetchHung
  | exitAsked | greetHung | drained | drainHung => rfl
  | _ hp =>
    have hl := h hx
    simp [hp, Phase.isLeaving] at hl

theorem Resolute.run (h : Resolute s) (n : Nat) : Resolute (run w n s) :=
  run_keeps (P := Resolute) (fun _ => Iff.rfl) (fun _ _ h => h) (fun _ _ => Resolute.move) h n

theorem Resolute.start (w : World) (dials accepts : Openings) (mailbox : Option Mailbox) :
    Resolute (start w dials accepts mailbox) := nofun

end StreamServer.Supervisor
