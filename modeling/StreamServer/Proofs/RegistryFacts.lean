/-
What the operations of a registry do to the sessions in it.
-/
import Mathlib.Data.List.Perm.Basic
import StreamServer.Proofs.Timing

namespace StreamServer.Registry

variable {r r' : Registry} {now : Instant} {x : Session} {limit : UInt32}

theorem reap_session (id : SessionId) (h : x.finishedBy now = true) : (reap now id x).2 = x.take := by
  have hinquire : (x.inquire now).2 = x.take := by
    rcases hend : x.ending with _ | ⟨t, ending⟩ <;> simp only [Session.finishedBy, hend] at h
    · cases h
    · simp only [Session.inquire, hend, if_pos (of_decide_eq_true h)]
  rw [← hinquire]
  unfold reap
  split <;> simp_all

/-- The sessions that are let go of are those that have finished, and the result of each was taken. -/
theorem gone_sweep (r : Registry) (now : Instant) :
    (r.sweep now).gone = (r.finished now).map fun e => e.2.take := by
  simp only [sweep, List.map_map]
  exact List.map_congr_left fun e he => reap_session e.1 (List.mem_filter.1 he).2

@[simp] theorem length_gone_sweep (r : Registry) (now : Instant) :
    (r.sweep now).gone.length = (r.finished now).length := by
  rw [gone_sweep, List.length_map]

theorem finishedBy_of_mem_gone (h : x ∈ (r.sweep now).gone) : x.finishedBy now = true := by
  rw [gone_sweep] at h
  obtain ⟨e, he, rfl⟩ := List.mem_map.1 h
  exact (List.mem_filter.1 he).2

theorem mem_entries_of_mem_sweep {e : SessionId × Session} (h : e ∈ (r.sweep now).registry.entries) :
    e ∈ r.entries := (List.mem_filter.1 h).1

/-- A sweep takes the finished sessions out and loses none. -/
theorem sweep_perm (r : Registry) (now : Instant) :
    ((r.finished now).map (·.2) ++ (r.sweep now).registry.sessions).Perm r.sessions := by
  have h := (List.filter_append_perm (fun e => e.2.finishedBy now) r.entries).map (·.2)
  rwa [List.map_append] at h

theorem size_sweep_add (r : Registry) (now : Instant) :
    (r.sweep now).registry.size + (r.sweep now).gone.length = r.size := by
  have hlen := (sweep_perm r now).length_eq
  simp only [List.length_append, List.length_map, sessions] at hlen
  rw [length_gone_sweep, size, size, ← hlen, Nat.add_comm]

/-- A session whose number is free is tracked under it, behind the others. -/
theorem insert_eq_ok (h : x.id ∉ r.ids) :
    r.insert x = .ok { r with entries := r.entries ++ [(x.id, x)] } := by
  simp [insert, contains, h]

theorem eq_of_insert_eq_ok (h : r.insert x = .ok r') :
    r' = { r with entries := r.entries ++ [(x.id, x)] } := by
  unfold insert at h
  split at h <;> cases h
  rfl

/-- As time passes, sessions finish and none starts again. -/
theorem running_le_of_le (r : Registry) {t u : Instant} (h : t ≤ u) : r.running u ≤ r.running t := by
  refine List.countP_mono_left fun e _ hrun => ?_
  simp only [Bool.not_eq_true'] at hrun ⊢
  cases hfin : e.2.finishedBy t with
  | false => rfl
  | true => rw [Session.finishedBy_mono h hfin] at hrun; cases hrun

theorem size_sweep (r : Registry) (now : Instant) : (r.sweep now).registry.size = r.running now :=
  (List.countP_eq_length_filter ..).symm

/-- Room for a session is found exactly when fewer run than are allowed. -/
theorem checkCapacity_of_cap (hcap : r.cap = some limit) :
    r.checkCapacity now =
      if limit.toNat ≤ r.running now then .error (.limitReached limit) else .ok () := by
  simp [checkCapacity, hcap]

theorem lt_of_checkCapacity_ok (hcap : r.cap = some limit) (h : r.checkCapacity now = .ok ()) :
    r.running now < limit.toNat := by
  rw [checkCapacity_of_cap hcap] at h
  split at h
  · cases h
  · rename_i hroom
    exact Nat.lt_of_not_le hroom

theorem le_of_checkCapacity_error (hcap : r.cap = some limit) {e : SessionError}
    (h : r.checkCapacity now = .error e) : e = .limitReached limit ∧ limit.toNat ≤ r.running now := by
  rw [checkCapacity_of_cap hcap] at h
  split at h
  · cases h
    exact ⟨rfl, ‹_›⟩
  · cases h

end StreamServer.Registry
