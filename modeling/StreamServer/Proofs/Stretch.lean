/-
Runs with more steps than another: each step of the one is found among the
steps of the other, held up for as long, and the steps in between are not held
up at all.
-/
import Mathlib.Order.Monotone.Basic
import Mathlib.Tactic.Choose
import StreamServer.Proofs.Reconnect

namespace StreamServer.Supervisor

variable {w : World} {s : Supervisor}

/-! ## Hold-ups -/

/-- How long a step is held up matters only when it is made. -/
theorem step_congr_lag {lag lag' : Nat → Nat}
    (h : s.phase.isFinal = false → lag s.steps = lag' s.steps) :
    s.step { w with lag := lag } = s.step { w with lag := lag' } := by
  cases hf : s.phase.isFinal with
  | true => rw [step_of_final hf, step_of_final hf]
  | false =>
    have hready : s.ready { w with lag := lag } = s.ready { w with lag := lag' } := by
      simp [ready, h hf]
    rw [step_of_not_final hf, step_of_not_final hf, hready]
    rfl

/-- Every step is held up for as long. -/
abbrev World.held (w : World) (delay : Nat) : World := { w with lag := fun _ => delay }

/-- A step `σ n` is held up as step `n` was, and no other step is held up. -/
noncomputable def stretch (σ : Nat → Nat) (w : World) : World :=
  { w with lag := Function.extend σ w.lag fun _ => 0 }

/-- A server that is not held up makes more steps without being held up. -/
theorem stretch_of_free (σ : Nat → Nat) (h : ∀ n, w.lag n = 0) : stretch σ w = w := by
  have hlag : Function.extend σ w.lag (fun _ => 0) = w.lag := by
    funext m
    by_cases hm : ∃ n, σ n = m
    · simp [Function.extend, hm, h]
    · rw [Function.extend_apply' _ _ _ hm, h]
  unfold stretch
  rw [hlag]

theorem stretch_lag {σ : Nat → Nat} (hσ : StrictMono σ) (n : Nat) :
    (stretch σ w).lag (σ n) = w.lag n :=
  hσ.injective.extend_apply w.lag (fun _ => 0) n

theorem stretch_lag_between {σ : Nat → Nat} (hσ : StrictMono σ) {n m : Nat} (hlt : σ n < m)
    (hgt : m < σ (n + 1)) : (stretch σ w).lag m = 0 := by
  refine Function.extend_apply' w.lag (fun _ => 0) m ?_
  rintro ⟨i, rfl⟩
  have hlow : n < i := hσ.lt_iff_lt.1 hlt
  have hhigh : i < n + 1 := hσ.lt_iff_lt.1 hgt
  omega

/-! ## Making the steps -/

/-- The run whose step `σ n` is held up as step `n` was makes that step and then some at once. -/
theorem run_stretch {σ : Nat → Nat} (hσ : StrictMono σ) (hsteps : s.steps = 0) (n j : Nat)
    (hj : σ n + 1 + j ≤ σ (n + 1)) :
    run (stretch σ w) (σ n + 1 + j) s = run (w.held 0) j
      ((run (stretch σ w) (σ n) s).step (w.held (w.lag n))) := by
  induction j with
  | zero =>
    rw [Nat.add_zero, run_succ]
    refine step_congr_lag fun hf => ?_
    rw [run_steps _ hf, hsteps, Nat.zero_add]
    exact stretch_lag hσ n
  | succ j ih =>
    rw [← Nat.add_assoc, run_succ, run_succ, ← ih (by omega)]
    refine step_congr_lag fun hf => ?_
    rw [run_steps _ hf, hsteps, Nat.zero_add]
    exact stretch_lag_between hσ (n := n) (by omega) (by omega)

/-- If from wherever a run is after so many steps, one step and a few more that are not held up lead on,
then there is a run that makes all of them. -/
theorem exists_stretch {R P : Nat → Supervisor → Prop} (hsteps : s.steps = 0) (hs : R 0 s)
    (hstep : ∀ n x, R n x → ∃ k,
      (∀ j ≤ k, P (n + 1) (run (w.held 0) j (x.step (w.held (w.lag n))))) ∧
      R (n + 1) (run (w.held 0) k (x.step (w.held (w.lag n))))) :
    ∃ σ : Nat → Nat, StrictMono σ ∧ σ 0 = 0 ∧
      ∀ n m, σ n < m → m ≤ σ (n + 1) → P (n + 1) (run (stretch σ w) m s) := by
  choose! k hall hnext using hstep
  let states : Nat → Supervisor := fun n => n.rec s fun n x =>
    run (w.held 0) (k n x) (x.step (w.held (w.lag n)))
  let σ : Nat → Nat := fun n => n.rec 0 fun n m => m + 1 + k n (states n)
  have hσ : ∀ n, σ (n + 1) = σ n + 1 + k n (states n) := fun _ => rfl
  have hmono : StrictMono σ := strictMono_nat_of_lt_succ fun n => by rw [hσ]; omega
  have hR : ∀ n, R n (states n) := by
    intro n
    induction n with
    | zero => exact hs
    | succ n ih => exact hnext n _ ih
  have hstates : ∀ n, run (stretch σ w) (σ n) s = states n := by
    intro n
    induction n with
    | zero => rfl
    | succ n ih =>
      rw [hσ, run_stretch hmono hsteps n _ (Nat.le_of_eq (hσ n).symm), ih]
  refine ⟨σ, hmono, rfl, fun n m hlt hle => ?_⟩
  obtain ⟨j, rfl⟩ := Nat.exists_eq_add_of_le (Nat.succ_le_of_lt hlt)
  rw [run_stretch hmono hsteps n j hle, hstates]
  rw [hσ] at hle
  exact hall n _ (hR n) j (by omega)

end StreamServer.Supervisor
