/-
What silence comes to. A peer that falls silent is sent one ping when the
timeout has passed, and when it has passed once more the connection is given
up; there is never a third window to wait out.

What carries this is that a ping is noted down before any window that is still
open began: so at the end of a window the ping has been outstanding for all of
it, and there is nothing left to wait for.
-/
import StreamServer.Proofs.Custody
import StreamServer.Proofs.Pinging

namespace StreamServer

theorem Instant.since_elapsed (t s : Instant) : t.elapsed.since s.elapsed = .ofMillis (t - s) := by
  simp only [elapsed, Duration.ofMillis, Duration.since, Nat.sub_mul]

/-- A window of whole milliseconds ends to the millisecond. -/
theorem Instant.timeout?_ofMillis {now : Instant} {k : Nat} (h : now + k ≤ last) :
    now.timeout? (.ofMillis k) = some (now + k) :=
  timeout?_eq_some_iff.2 ⟨by rw [Duration.ceilMillis_ofMillis], h⟩

namespace Link

open Control Beat

variable {l : Link} {now s : Instant} {k : Nat}

/-! ## A window of silence -/

/-- A turn that gets no word in its window acts on the silence at the end of it. -/
theorem sight_of_quiet {check : Instant} (hc : now.timeout? l.liveness.timeout = some check)
    (h : l.inbox.Quiet check) :
    ∃ rest, l.sight now = .silence check rest ∧ rest.SameFrom check l.inbox := by
  have htimely := l.sight_timely now
  rw [hc] at htimely
  cases hs : l.sight now with
  | received u what rest =>
    rw [hs] at htimely
    obtain ⟨-, -, hlimit, hwhat, -⟩ := htimely
    rw [Inbox.readable_eq_none_iff.2 (h.of_le (hlimit _ rfl))] at hwhat
    cases hwhat
  | silence u rest =>
    rw [hs] at htimely
    obtain ⟨hu, -, hrest⟩ := htimely
    cases hu
    exact ⟨rest, rfl, hrest⟩
  | never =>
    rw [hs] at htimely
    cases htimely.1

/-- With no ping outstanding, silence calls for one. -/
theorem onSilence_of_fresh (hsent : l.liveness.sentAt = none)
    (hdone : (l.send now .ping).1 = .done now) :
    (l.onSilence now).outcome = some (now, .ok .pingSent) ∧
      (l.onSilence now).link =
        { (l.send now .ping).2 with liveness := l.liveness.pingSent now.elapsed } := by
  have hsend : l.send now .ping = (.done now, (l.send now .ping).2) := Prod.ext hdone rfl
  unfold onSilence Liveness.check sending
  rw [hsent, hsend]
  exact ⟨rfl, rfl⟩

/-- With a ping outstanding for the timeout or longer, silence ends the connection. -/
theorem onSilence_of_outstanding (hsent : l.liveness.sentAt = some s.elapsed)
    (hlong : l.liveness.timeout ≤ .ofMillis (now - s)) :
    (l.onSilence now).outcome = some (now, .error (.pingTimeout (.ofMillis (now - s)))) ∧
      (l.onSilence now).link = l := by
  unfold onSilence Liveness.check
  rw [hsent]
  dsimp only
  rw [Instant.since_elapsed, if_pos hlong]
  exact ⟨rfl, rfl⟩

/-- The first window of a silence ends with a ping. -/
theorem next_of_fresh_silence (hlast : now + k ≤ Instant.last)
    (ht : l.liveness.timeout = .ofMillis k) (hsent : l.liveness.sentAt = none)
    (hq : l.inbox.Quiet (now + k)) (hdone : (l.send (now + k) .ping).1 = .done (now + k)) :
    (l.next now).outcome = some (now + k, .ok .pingSent) ∧
      (l.next now).link.stream.outlet.written =
        l.stream.outlet.written ++ [(now + k, Command.ping.encode)] ∧
      (l.next now).link.liveness = l.liveness.pingSent (Instant.elapsed (now + k)) ∧
      (l.next now).link.inbox.SameFrom (now + k) l.inbox := by
  have hcheck := Instant.timeout?_ofMillis hlast
  rw [← ht] at hcheck
  obtain ⟨rest, hs, hrest⟩ := sight_of_quiet hcheck hq
  obtain ⟨ho, hlink⟩ := onSilence_of_fresh (l := l.withInbox rest) hsent hdone
  rw [next_of_silence hs]
  refine ⟨ho, ?_, ?_, ?_⟩
  · rw [hlink]
    exact Outlet.written_of_done_at_once rfl hdone
  · rw [hlink]
    rfl
  · rw [inbox_onSilence]
    exact hrest

/-- A window of silence in which a ping was outstanding ends the connection. -/
theorem next_of_outstanding_silence (hlast : now + k ≤ Instant.last)
    (ht : l.liveness.timeout = .ofMillis k) (hsent : l.liveness.sentAt = some s.elapsed)
    (hs : s ≤ now) (hq : l.inbox.Quiet (now + k)) :
    (l.next now).outcome = some (now + k, .error (.pingTimeout (.ofMillis (now + k - s)))) ∧
      (l.next now).link.stream.outlet = l.stream.outlet := by
  have hcheck := Instant.timeout?_ofMillis hlast
  rw [← ht] at hcheck
  have hlong : l.liveness.timeout ≤ .ofMillis (now + k - s) := by
    rw [ht]
    have hroom : k + s ≤ now + k := Nat.add_comm k s ▸ Nat.add_le_add_right hs k
    exact Nat.mul_le_mul_right _ (Nat.le_sub_of_add_le hroom)
  obtain ⟨rest, hsight, -⟩ := sight_of_quiet hcheck hq
  obtain ⟨ho, hlink⟩ := onSilence_of_outstanding (l := l.withInbox rest) hsent hlong
  rw [next_of_silence hsight]
  exact ⟨ho, by rw [hlink]; rfl⟩

/-! ## Connections in use -/

variable {timeout : Duration} {arrivals : List Arrival} {beats : List Beat} {t : Instant}

/-- What is outstanding was noted down before. -/
theorem Paced.sentAt (h : Paced timeout arrivals beats l t) (hout : l.pingOutstanding = true) :
    ∃ b s, AwaitsPong beats b ∧ b.noticed = some s ∧ s ≤ t ∧ l.liveness.sentAt = some s.elapsed := by
  obtain ⟨b, hb⟩ := h.awaited hout
  obtain ⟨s, v, hs, -, hsv, hvt, hsent⟩ := h.counted b hb
  exact ⟨b, s, hb, hs, Nat.le_trans hsv hvt, hsent⟩

/-- At the end of a window of silence there is something to be done. -/
theorem Paced.not_waiting (h : Paced timeout arrivals beats l t) (hnow : t ≤ now) {u : Instant}
    {rest : Inbox} (hs : l.sight now = .silence u rest) : l.liveness.check u.elapsed ≠ .waiting := by
  obtain ⟨hu, -⟩ := h.wordsBy_of_silence hnow hs
  unfold Liveness.check
  cases hsent : l.liveness.sentAt with
  | none => simp
  | some sent =>
    obtain ⟨b, s, -, -, hst, hsent'⟩ :=
      h.sentAt (by simp [pingOutstanding, Liveness.isOutstanding, hsent])
    cases hsent.symm.trans hsent'
    -- The window began after the ping, and is as long as the timeout.
    have hwindow : s.elapsed.nanos + timeout.nanos ≤ u.elapsed.nanos :=
      Nat.le_trans (Nat.add_le_add_right (Instant.elapsed_nanos_le (Nat.le_trans hst hnow)) _)
        (Instant.elapsed_add_le_of_timeout? hu)
    have hlong : l.liveness.timeout ≤ u.elapsed.since s.elapsed := by
      rw [h.timeout]
      show timeout.nanos ≤ u.elapsed.nanos - s.elapsed.nanos
      omega
    simp [hlong]

end Link

/-! ## Connections of a server -/

namespace Supervisor

open Control

variable {w : World} {s s' : Supervisor}

/-- The connection that a server has was established at some time, and turns have been taken on it
since. -/
def InUse (w : World) (s : Supervisor) : Prop :=
  ∀ link, s.phase.link? = some link → ∃ stream opened t₀ link₀ beats t,
    handshake w.target.pingTimeout stream opened = .linked t₀ link₀ ∧
      Link.History link₀ t₀ beats link t ∧ t ≤ s.clock

theorem InUse.later (h : InUse w s) {link : Link} (hl : s.phase.link? = some link)
    (hclock : s.clock ≤ s'.clock) : ∃ stream opened t₀ link₀ beats t,
    handshake w.target.pingTimeout stream opened = .linked t₀ link₀ ∧
      Link.History link₀ t₀ beats link t ∧ t ≤ s'.clock := by
  obtain ⟨stream, opened, t₀, link₀, beats, t, hh, hist, ht⟩ := h link hl
  exact ⟨stream, opened, t₀, link₀, beats, t, hh, hist, Nat.le_trans ht hclock⟩

theorem InUse.move (h : InUse w s) (ht : Transition w s s') : InUse w s' := by
  intro link' hl
  have hclock := ht.clock_le
  cases ht with
  | connected _ _ _ hh =>
    cases hl
    exact ⟨_, _, _, _, _, _, hh, .none, Nat.le_refl _⟩
  | ordered hp ho | pinged hp ho | idled hp ho =>
    cases hl
    obtain ⟨stream, opened, t₀, link₀, beats, t, hh, hist, ht⟩ := h _ (by rw [hp]; rfl)
    exact ⟨stream, opened, t₀, link₀, _, _, hh, hist.turn ht ho, Nat.le_refl _⟩
  | fetched hp =>
    cases hl
    exact h.later (by rw [hp]; rfl) hclock
  | numbered hp | admitted hp | launched hp => exact h.later (by rw [hp]; exact hl) hclock
  | notFetched hp | dismissed hp | full hp | refused hp | tracked hp | duplicate hp =>
    exact h.later (by rw [hp]; exact afterStream_link? hl) hclock
  | _ => cases hl

theorem InUse.run (h : InUse w s) (n : Nat) : InUse w (run w n s) :=
  run_keeps (P := InUse w) (fun _ => Iff.rfl) (fun s _ h _ hl => h.later hl (ready_clock_le w s))
    (fun _ _ => InUse.move) h n

theorem InUse.start (w : World) (dials accepts : Openings) (mailbox : Option Mailbox) :
    InUse w (start w dials accepts mailbox) := by
  intro link hl
  unfold Supervisor.start at hl
  dsimp only at hl
  split at hl <;> cases hl

open Link Beat

/-- **Silence comes to an end in two windows.** However a connection has been used, a turn that meets with
silence never goes on waiting: a ping is due, or the connection is given up. With a timeout of `k`
milliseconds and no ping outstanding, a silent peer is sent one ping at `now + k` and given up at
`now + 2 * k`; with one outstanding since `s`, it is given up at `now + k`. So it is with every
connection that a server serves in a run. -/
theorem silence_ends_in_two_windows (timeout : Duration) :
    (∀ (stream : Stream) (opened t₀ t now : Instant) (link l : Link) (beats : List Beat),
      handshake timeout stream opened = .linked t₀ link → History link t₀ beats l t → t ≤ now →
      (∀ u rest, l.sight now = .silence u rest → l.liveness.check u.elapsed ≠ .waiting) ∧
      ∀ k, timeout = .ofMillis k →
        (l.pingOutstanding = false → now + 2 * k ≤ Instant.last → l.inbox.Quiet (now + 2 * k) →
          (l.send (now + k) .ping).1 = .done (now + k) →
          let pinged := l.next now
          let given := pinged.link.next (now + k)
          pinged.outcome = some (now + k, .ok .pingSent) ∧
          pinged.link.stream.outlet.written =
            l.stream.outlet.written ++ [(now + k, Command.ping.encode)] ∧
          given.outcome = some (now + 2 * k, .error (.pingTimeout timeout)) ∧
          given.link.stream.outlet = pinged.link.stream.outlet) ∧
        (l.pingOutstanding = true →
          ∃ b s, AwaitsPong beats b ∧ b.noticed = some s ∧ s ≤ now ∧
          (now + k ≤ Instant.last → l.inbox.Quiet (now + k) →
            (l.next now).outcome =
              some (now + k, .error (.pingTimeout (.ofMillis (now + k - s)))) ∧
            (l.next now).link.stream.outlet = l.stream.outlet))) ∧
    ∀ (w : World) (dials accepts : Openings) (mailbox : Option Mailbox) (n : Nat) (l : Link),
      w.target.pingTimeout = timeout →
      (run w n (start w dials accepts mailbox)).phase = .serving l →
      let now := ((run w n (start w dials accepts mailbox)).ready w).clock
      (∃ stream opened t₀ link beats t, handshake timeout stream opened = .linked t₀ link ∧
        History link t₀ beats l t ∧ t ≤ now) ∧
      ∀ u rest, l.sight now = .silence u rest → l.liveness.check u.elapsed ≠ .waiting := by
  refine ⟨fun stream opened t₀ t now link l beats h hist hnow => ?_,
    fun w dials accepts mailbox n l htimeout hp => ?_⟩
  · have hl := (Paced.of_handshake h).of_history hist
    refine ⟨fun u rest => hl.not_waiting hnow, fun k hk => ⟨fun hout hlast hq hdone => ?_, fun hout => ?_⟩⟩
    · have hone : k ≤ 2 * k := by omega
      have hfirst : now + k ≤ now + 2 * k := Nat.add_le_add_left hone now
      have hsecond : now + k + k = now + 2 * k := by rw [Nat.add_assoc, ← Nat.two_mul]
      have ht : l.liveness.timeout = .ofMillis k := hl.timeout.trans hk
      have hsent : l.liveness.sentAt = none := by
        simpa [pingOutstanding, Liveness.isOutstanding] using hout
      obtain ⟨ho, hwritten, hlive, hinbox⟩ := next_of_fresh_silence (Nat.le_trans hfirst hlast) ht
        hsent (hq.of_le hfirst) hdone
      have hq' : (l.next now).link.inbox.Quiet (now + k + k) := by
        rw [hsecond]
        exact (hinbox.quiet hfirst).2 hq
      -- The ping counts from the end of the first window, where the second begins.
      obtain ⟨ho', houtlet⟩ := next_of_outstanding_silence (s := now + k)
        (hsecond ▸ hlast) (by rw [hlive]; exact ht) (by rw [hlive]; rfl) (Nat.le_refl _) hq'
      rw [Nat.add_sub_cancel_left, hsecond, ← hk] at ho'
      exact ⟨ho, hwritten, ho', houtlet⟩
    · obtain ⟨b, s, hb, hs, hst, hsent⟩ := hl.sentAt hout
      exact ⟨b, s, hb, hs, Nat.le_trans hst hnow, fun hlast => next_of_outstanding_silence hlast
        (hl.timeout.trans hk) hsent (Nat.le_trans hst hnow)⟩
  · intro now
    obtain ⟨stream, opened, t₀, link, beats, t, hh, hist, ht⟩ :=
      (InUse.start w dials accepts mailbox).run n l (by rw [hp]; rfl)
    have hnow : t ≤ now := Nat.le_trans ht (ready_clock_le w _)
    rw [htimeout] at hh
    refine ⟨⟨stream, opened, t₀, link, beats, t, hh, hist, hnow⟩, fun u rest => ?_⟩
    exact ((Paced.of_handshake hh).of_history hist).not_waiting hnow

/-- The second ping to a tiring peer goes out after one window of silence, and the connection is given
up after the next, also if the server comes to it only later. -/
theorem silence_ends_in_two_windows_tiringPeer :
    (tiredLinks.2.1.next 10).outcome = some (12, .ok .pingSent) ∧
    (tiredLinks.2.2.next 12).outcome = some (14, .error (.pingTimeout (.ofMillis 2))) ∧
    ∃ s, s ≤ 20 ∧ (tiredLinks.2.2.next 20).outcome =
      some (22, .error (.pingTimeout (.ofMillis (22 - s)))) := by
  have linked : handshake (.ofMillis 2) tiringPeer 0 = .linked 0 tiringLink := by decide +kernel
  have pinged : (tiringLink.next 0).outcome = some (2, .ok .pingSent) := rfl
  have answered : (tiredLinks.1.next 10).outcome = some (10, .ok .idle) := rfl
  have turns : History tiringLink 0 [tiringLink.beat 0, tiredLinks.1.beat 10] tiredLinks.2.1 10 :=
    (History.none.turn (Nat.le_refl 0) pinged).turn (by decide : 2 ≤ 10) answered
  have quiet : ∀ d, tiredLinks.2.1.inbox.Quiet d ∧ tiredLinks.2.2.inbox.Quiet d :=
    fun d => ⟨⟨(by decide : 0 < 4), rfl⟩, (by decide : 0 < 4), rfl⟩
  obtain ⟨hfirst, -⟩ := silence_ends_in_two_windows (.ofMillis 2)
  obtain ⟨-, hfresh⟩ := hfirst _ _ _ _ 10 _ _ _ linked turns (Nat.le_refl 10)
  obtain ⟨ho, -, ho', -⟩ := (hfresh 2 rfl).1 (by decide +kernel) (by decide) (quiet _).1
    (by decide +kernel)
  have turns' := turns.turn (Nat.le_refl 10) ho
  obtain ⟨-, hlate⟩ := hfirst _ _ _ _ 20 _ _ _ linked turns' (by decide : 12 ≤ 20)
  obtain ⟨b, s, -, -, hs, hgiven⟩ := (hlate 2 rfl).2 (by decide +kernel)
  exact ⟨ho, ho', s, hs, (hgiven (by decide) (quiet _).2).1⟩

end Supervisor

end StreamServer
