/-
Nothing ends before it began: whatever a server waits for is over at the time
the waiting began or later.
-/
import StreamServer.Control.Handshake
import StreamServer.Greeting
import StreamServer.Proofs.Writing
import StreamServer.Registry
import StreamServer.Retry

namespace StreamServer

/-! ## Timers -/

theorem Duration.nanos_le_ceilMillis (d : Duration) : d.nanos ≤ d.ceilMillis * perMilli := by
  simp only [ceilMillis, perMilli]
  omega

theorem Duration.ceilMillis_ofMillis (k : Nat) : (ofMillis k).ceilMillis = k := by
  simp only [ceilMillis, ofMillis, perMilli]
  omega

namespace Instant

variable {uptime : UInt64} {now t : Instant} {d : Duration}

theorem elapsed_nanos_add_le (now : Instant) (d : Duration) :
    now.elapsed.nanos + d.nanos ≤ (elapsed (now + d.ceilMillis)).nanos := by
  have hcover := d.nanos_le_ceilMillis
  simp only [elapsed, Duration.ofMillis, Nat.add_mul]
  exact Nat.add_le_add_left hcover _

theorem timeout?_eq_some_iff : now.timeout? d = some t ↔ t = now + d.ceilMillis ∧ t ≤ last := by
  unfold timeout?
  split <;> rename_i h
  · rw [Option.some_inj]
    exact ⟨fun ht => ⟨ht.symm, ht ▸ h⟩, fun ht => ht.1.symm⟩
  · exact ⟨nofun, fun ht => absurd (ht.1 ▸ ht.2) h⟩

/-- A timeout does not go off before it has passed. -/
theorem elapsed_add_le_of_timeout? (h : now.timeout? d = some t) :
    now.elapsed.nanos + d.nanos ≤ t.elapsed.nanos := by
  rw [(timeout?_eq_some_iff.1 h).1]
  exact elapsed_nanos_add_le now d

/-- The host's clock gets further than this one, however long the host has been up. -/
theorem hostReaches_of_le (uptime : UInt64) (h : now + d.ceilMillis ≤ last) :
    HostReaches uptime now d := by
  have hup := uptime.toNat_lt_size
  have hnanos : now.elapsed.nanos + d.nanos ≤ last * Duration.perMilli :=
    Nat.le_trans (elapsed_nanos_add_le now d) (Nat.mul_le_mul_right _ h)
  have hrange : UInt64.size + last * Duration.perMilli < Nat.pow 2 63 * Duration.perSecond := by
    decide
  have helapsed : now.elapsed.nanos = Duration.perMilli * now := Nat.mul_comm ..
  unfold HostReaches
  omega

theorem HostReaches.mono (h : HostReaches uptime t d) (hle : now ≤ t) : HostReaches uptime now d := by
  have hmul := Nat.mul_le_mul_left Duration.perMilli hle
  unfold HostReaches at h ⊢
  omega

/-- A sleep that the clock gets to the end of takes its delay, in whole milliseconds. -/
theorem wake_of_le (h : now + d.ceilMillis ≤ last) : now.wake uptime d = now + d.ceilMillis := by
  rw [wake, if_pos (hostReaches_of_le uptime h), Nat.min_eq_right h, Nat.max_eq_right (Nat.le_add_right ..)]

/-- A sleep that only the host's clock gets to the end of is over when this clock is. -/
theorem wake_of_lt (h : HostReaches uptime now d) (hlast : last < now + d.ceilMillis) :
    now.wake uptime d = max now last := by
  rw [wake, if_pos h, Nat.min_eq_left (Nat.le_of_lt hlast)]

/-- A sleep that is beyond the host takes thirty years. -/
theorem wake_of_beyond (h : ¬HostReaches uptime now d) (hlast : now + thirtyYears ≤ last) :
    now.wake uptime d = now + thirtyYears := by
  rw [wake, if_neg h, Nat.min_eq_right hlast, Nat.max_eq_right (Nat.le_add_right ..)]

/-- A sleep that the host's clock gets to the end of is not over before its delay has passed, unless
this clock is. -/
theorem elapsed_add_le_wake (hreach : HostReaches uptime now d) (h : now.wake uptime d < last) :
    now.elapsed.nanos + d.nanos ≤ (now.wake uptime d).elapsed.nanos := by
  have hle : now + d.ceilMillis ≤ last := by
    refine Nat.le_of_not_lt fun hlt => ?_
    rw [wake_of_lt hreach hlt] at h
    exact Nat.not_lt_of_le (Nat.le_max_right ..) h
  rw [wake_of_le hle]
  exact elapsed_nanos_add_le now d

end Instant

theorem Instant.elapsed_nanos_le {t u : Instant} (h : t ≤ u) : t.elapsed.nanos ≤ u.elapsed.nanos :=
  Nat.mul_le_mul_right _ h

/-! ## Streams -/

theorem le_of_ask_stream {o : Opening} {serial peer now t stream}
    (h : o.ask serial peer now = .stream t stream) : now ≤ t := by
  cases o <;> cases h
  exact Nat.le_add_right ..

theorem le_of_ask_failed {o : Opening} {serial peer now t reason}
    (h : o.ask serial peer now = .failed t reason) : now ≤ t := by
  cases o <;> cases h
  exact Nat.le_add_right ..

/-- When reading a fixed number of bytes is over, unless it never is. -/
def Exact.time? : Exact → Option Instant
  | .complete t _ _ | .ended t _ | .fault t _ _ => some t
  | .never _ => none

theorem readExact_time {need now got arrivals t}
    (h : (readExact need now got arrivals).time? = some t) : now ≤ t := by
  fun_induction readExact need now got arrivals with
  | case1 => cases h
  | case2 _ now _ a _ _ _ _ _ ih => exact Nat.le_trans (Nat.le_max_left now a.due) (ih h)
  | case3 | case4 | case5 => exact Option.some.inj h ▸ Nat.le_max_left ..

theorem Greeting.le_of_read_flags {stream now t flags rest}
    (h : Greeting.read stream now = .flags t flags rest) : now ≤ t := by
  unfold Greeting.read at h
  have ht := @readExact_time Word.size now [] stream.arrivals t
  cases hr : readExact Word.size now [] stream.arrivals <;> rw [hr] at h ht <;> cases h
  exact ht rfl

theorem Greeting.le_of_read_failed {stream now t e}
    (h : Greeting.read stream now = .failed t e) : now ≤ t := by
  unfold Greeting.read at h
  have ht := @readExact_time Word.size now [] stream.arrivals t
  cases hr : readExact Word.size now [] stream.arrivals <;> rw [hr] at h ht <;> cases h <;>
    exact ht rfl

/-! ## Control connections -/

/-- When waiting for a word is over, unless it never is. -/
def Control.Awaited.time? : Control.Awaited → Option Instant
  | .received t _ _ | .silence t _ => some t
  | .never => none

theorem Control.await_time {deadline now buffer arrivals t}
    (hd : ∀ d, deadline = some d → now ≤ d)
    (h : (Control.await deadline now buffer arrivals).time? = some t) : now ≤ t := by
  fun_induction Control.await deadline now buffer arrivals with
  | case1 => cases h; exact Nat.le_refl _
  | case2 _ _ _ _ _ hdl => cases h; exact hd _ hdl
  | case3 => cases h
  | case4 => cases h; exact Nat.le_refl _
  | case5 _ _ _ _ _ _ _ hp =>
    cases h
    exact hd _ (Option.filter_eq_some_iff.1 hp).1
  | case6 now _ a _ _ _ hp _ _ _ ih =>
    refine Nat.le_trans (Nat.le_max_left now a.due) (ih (fun d hd' => ?_) h)
    have hdue : a.due ≤ d := by simpa [Control.passesBefore, hd'] using hp
    exact Nat.max_le.2 ⟨hd d hd', hdue⟩
  | case7 | case8 => exact Option.some.inj h ▸ Nat.le_max_left ..

namespace Link

/-- A turn that ends by sending ends when all is sent, and goes on from there. -/
theorem le_of_sending {l : Link} {now c log t r} {after : Link → Instant → Turn}
    (hafter : ∀ l u t r, (after l u).outcome = some (t, r) → u ≤ t)
    (h : (l.sending now c log after).outcome = some (t, r)) : now ≤ t := by
  unfold sending at h
  dsimp only at h
  split at h <;> rename_i hs
  · have hsent : (l.stream.outlet.send now c.encode).1 = .done _ := congrArg Prod.fst hs
    exact Nat.le_trans (Outlet.le_of_send (by rw [hsent]; rfl)) (hafter _ _ _ _ h)
  · have hsent : (l.stream.outlet.send now c.encode).1 = .failed _ _ := congrArg Prod.fst hs
    cases h
    exact Outlet.le_of_send (by rw [hsent]; rfl)
  · cases h

theorem le_of_onSilence {l : Link} {now t r} (h : (l.onSilence now).outcome = some (t, r)) :
    now ≤ t := by
  unfold onSilence at h
  split at h
  · exact le_of_sending (fun _ _ _ _ h => by cases h; exact Nat.le_refl _) h
  · cases h; exact Nat.le_refl _
  · cases h; exact Nat.le_refl _

theorem le_of_dispatch {l : Link} {now c t r} (h : (l.dispatch now c).outcome = some (t, r)) :
    now ≤ t := by
  cases c with
  | ping => exact le_of_sending (fun _ _ _ _ h => by cases h; exact Nat.le_refl _) h
  | new | stop | start | pong | unknown _ => cases h; exact Nat.le_refl _

/-- A turn is over when it began, or later. -/
theorem le_of_next {l : Link} {now t r} (h : (l.next now).outcome = some (t, r)) : now ≤ t := by
  have hd : ∀ d, now.timeout? l.liveness.timeout = some d → now ≤ d := fun _ => Instant.le_of_timeout?
  unfold next at h
  cases ha : Control.await (now.timeout? l.liveness.timeout) now l.buffer l.stream.arrivals with
  | received u what rest =>
    have hu : now ≤ u := Control.await_time hd (by rw [ha]; rfl)
    rw [ha] at h
    cases what with
    | word w => exact Nat.le_trans hu (le_of_dispatch h)
    | closed | failed _ => cases h; exact hu
  | silence u rest =>
    have hu : now ≤ u := Control.await_time hd (by rw [ha]; rfl)
    rw [ha] at h
    exact Nat.le_trans hu (le_of_onSilence h)
  | never =>
    rw [ha] at h
    cases h

end Link

/-- When shaking hands is over, unless it never is. -/
def Control.Handshake.time? : Control.Handshake → Option Instant
  | .linked t _ | .failed t _ _ => some t
  | .never _ => none

theorem Control.answered_time {timeout stream t} {a : Control.Awaited}
    (h : (Control.answered timeout stream a).time? = some t) : a.time? = some t := by
  unfold Control.answered at h
  split at h
  · dsimp only at h
    split at h <;> exact h
  · exact h
  · exact h
  · cases h
  · cases h

theorem Control.handshake_time {timeout stream now t}
    (h : (Control.handshake timeout stream now).time? = some t) : now ≤ t := by
  unfold Control.handshake at h
  dsimp only at h
  split at h <;> rename_i hs
  · exact Nat.le_trans (Outlet.le_of_send (by rw [hs]; rfl))
      (Control.await_time (by simp) (Control.answered_time h))
  · cases h
    exact Outlet.le_of_send (by rw [hs]; rfl)
  · cases h

/-! ## Sessions -/

theorem Session.finishedBy_mono {x : Session} {t u : Instant} (htu : t ≤ u)
    (h : x.finishedBy t = true) : x.finishedBy u = true := by
  unfold Session.finishedBy at *
  split at h
  · simp only [decide_eq_true_eq] at h ⊢
    exact Nat.le_trans h htu
  · cases h

@[simp] theorem Session.finishedBy_take (x : Session) (t : Instant) :
    x.take.finishedBy t = x.finishedBy t := rfl

@[simp] theorem Session.collected_take (x : Session) : x.take.collected = true :=
  decide_eq_true (Nat.succ_pos _)

theorem Session.joinedAt_eq_some_iff {x : Session} {now t : Instant} {ending : Ending} :
    x.joinedAt now = some (t, ending) ↔
      x.collected = false ∧ ∃ u, x.ending = some (u, ending) ∧ t = max now u := by
  unfold joinedAt
  cases x.collected with
  | true => simp
  | false =>
    rcases x.ending with _ | ⟨u, ending'⟩
    · simp
    · constructor
      · intro h
        cases h
        exact ⟨rfl, u, rfl, rfl⟩
      · rintro ⟨-, v, hend, rfl⟩
        cases hend
        rfl

/-- Waiting for sessions is over when the last has finished, and not before. -/
theorem Registry.joinAll_finished {now t : Instant} {l : List Session}
    (h : (joinAll now l).time = some t) : now ≤ t ∧ ∀ x ∈ l, x.finishedBy t = true := by
  induction l generalizing now with
  | nil => cases h; simp
  | cons x rest ih =>
    cases hx : x.joinedAt now with
    | none => simp [joinAll, hx] at h
    | some e =>
      obtain ⟨v, ending⟩ := e
      obtain ⟨-, u, hend, rfl⟩ := Session.joinedAt_eq_some_iff.1 hx
      simp only [joinAll, hx] at h
      obtain ⟨hle, hall⟩ := ih h
      refine ⟨Nat.le_trans (Nat.le_max_left now u) hle, fun y hy => ?_⟩
      rcases List.mem_cons.1 hy with rfl | hy
      · simpa [Session.finishedBy, hend] using Nat.le_trans (Nat.le_max_right now u) hle
      · exact hall y hy

/-- When waiting for sessions is over, the result of each was taken once more. -/
theorem Registry.joinAll_sessions {now t : Instant} {l : List Session}
    (h : (joinAll now l).time = some t) : (joinAll now l).sessions = l.map Session.take := by
  induction l generalizing now with
  | nil => rfl
  | cons x rest ih =>
    cases hx : x.joinedAt now with
    | none => simp [joinAll, hx] at h
    | some e =>
      simp only [joinAll, hx] at h ⊢
      rw [ih h, List.map_cons]

end StreamServer
