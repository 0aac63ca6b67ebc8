/-
The control connection of a run from the step that established it on. In each
step it is what one more turn makes of it, or it waits while a data stream is
dealt with; there is no other way to have one. So what holds of a connection
right after hands were shaken, and is kept by a turn, holds as long as the
server has it.
-/
import StreamServer.Proofs.ControlWords
import StreamServer.Proofs.Reconnect

namespace StreamServer

open Arrival

theorem Arrival.incoming_filter (arrivals : List Arrival) :
    incoming (arrivals.filter (!·.isEmpty)) = incoming arrivals := by
  induction arrivals with
  | nil => rfl
  | cons a rest ih =>
    by_cases ha : a.isEmpty
    · have hin : a.input = .bytes [] := by simpa [isEmpty] using ha
      simp [ha, incoming, hin, ih]
    · rw [List.filter_cons_of_pos (by simpa using ha)]
      simp only [incoming]
      cases a.input <;> simp [ih]

theorem Arrival.incoming_map_due (f : Instant → Instant) (arrivals : List Arrival) :
    incoming (arrivals.map fun a => { a with due := f a.due }) = incoming arrivals := by
  induction arrivals with
  | nil => rfl
  | cons a rest ih =>
    simp only [List.map_cons, incoming]
    cases a.input <;> simp [ih]

/-- An open stream brings the bytes of its script. -/
theorem Script.incoming_openAt (script : Script) (serial : Nat) (peer : String) (now : Instant) :
    incoming (script.openAt serial peer now).arrivals = incoming script.arrivals :=
  (incoming_map_due (now + ·) _).trans (incoming_filter _)

theorem opens_of_ask {o : Opening} {serial : Nat} {peer : String} {now t : Instant} {stream : Stream}
    (h : o.ask serial peer now = .stream t stream) :
    ∃ delay script, o = .opens delay script ∧ stream = script.openAt serial peer t := by
  cases o with
  | opens delay script => cases h; exact ⟨delay, script, rfl, rfl⟩
  | fails | hangs => cases h

/-- The peer asks for a data connection by the word NEW and by nothing else. -/
theorem Link.openData_iff_heard {l : Link} {now : Instant} :
    (∃ t, (l.next now).outcome = some (t, .ok .openData)) ↔ l.heard now = some .new := by
  constructor
  · rintro ⟨t, ho⟩
    cases hc : l.heard now with
    | none => rcases event_of_not_heard hc ho with h | h <;> cases h
    | some c =>
      obtain ⟨u, rest, hnext, -⟩ := next_of_heard hc
      rw [hnext] at ho
      cases c with
      | new => rfl
      | ping =>
        unfold dispatch sending at ho
        dsimp only at ho
        split at ho <;> cases ho
      | stop | start | pong | unknown _ => cases ho
  · intro hc
    obtain ⟨u, rest, hnext, -⟩ := next_of_heard hc
    exact ⟨u, by rw [hnext]; rfl⟩

/-- The data port of a connection is the first word that came in on its stream. -/
theorem Control.port_of_linked {timeout : Duration} {stream : Stream} {now t : Instant} {link : Link}
    (h : handshake timeout stream now = .linked t link) :
    ∃ w rest, Word.take? (incoming stream.arrivals) = some (w, rest) ∧
      portOf? w = some link.dataPort := by
  unfold handshake at h
  dsimp only at h
  split at h
  · rename_i u _
    have hfits := await_fits none u [] stream.arrivals
    unfold answered at h
    split at h
    · rename_i w rest ha
      rw [ha] at hfits
      dsimp only at h
      split at h <;> cases h
      exact ⟨w, _, hfits.1, ‹_›⟩
    all_goals cases h
  · cases h
  · cases h

namespace Supervisor

variable {w : World} {s s' : Supervisor} {m n : Nat}

/-! ## What the steps of a stretch of a run give -/

/-- What `f` gives for the steps from `m` up to `n`, one after another. -/
def inSteps {α : Type} (f : Supervisor → List α) (w : World) (s : Supervisor) (m n : Nat) : List α :=
  (List.range' m (n - m)).flatMap fun k => f (run w k s)

theorem inSteps_succ {α : Type} (f : Supervisor → List α) (h : m ≤ n) :
    inSteps f w s m (n + 1) = inSteps f w s m n ++ f (run w n s) := by
  have hlen : n + 1 - m = n - m + 1 := by omega
  have hlast : m + (n - m) = n := by omega
  simp [inSteps, hlen, List.range'_concat, hlast]

theorem inSteps_self {α : Type} (f : Supervisor → List α) (w : World) (s : Supervisor) (n : Nat) :
    inSteps f w s n n = [] := by
  simp [inSteps]

/-- The command that the next step dispatches, if it dispatches one. -/
def dispatched (w : World) (s : Supervisor) : Option Command :=
  match s.phase with
  | .serving link => link.heard (s.ready w).clock
  | _ => none

theorem dispatched_of_serving {link : Link} (hp : s.phase = .serving link) :
    dispatched w s = link.heard (s.ready w).clock := by
  simp [dispatched, hp]

theorem serving_of_dispatched {c : Command} (h : dispatched w s = some c) :
    ∃ link, s.phase = .serving link ∧ link.heard (s.ready w).clock = some c := by
  unfold dispatched at h
  split at h
  · exact ⟨_, ‹_›, h⟩
  · cases h

theorem dispatched_of_not_serving (hp : ∀ link, s.phase ≠ .serving link) : dispatched w s = none := by
  unfold dispatched
  split
  · exact absurd ‹_› (hp _)
  · rfl

/-! ## The connection of a step -/

/-- How a server comes by the connection it has after a step. -/
theorem Transition.link_inv (h : Transition w s s') {link' : Link}
    (hl : s'.phase.link? = some link') :
    (s.phase = .dialling ∧ ∃ t stream u,
      s.dials.take.1.ask s.record.opened w.target.text s.clock = .stream t stream ∧
      Control.handshake w.target.pingTimeout stream t = .linked u link') ∨
    (∃ link t event, s.phase = .serving link ∧ (link.next s.clock).outcome = some (t, .ok event) ∧
      link' = (link.next s.clock).link) ∨
    (s.phase.link? = some link' ∧ ∀ link, s.phase ≠ .serving link) := by
  cases h with
  | connected hp ho ha hh =>
    cases hl
    exact .inl ⟨hp, _, _, _, by rw [ho]; exact ha, hh⟩
  | ordered hp ho | pinged hp ho | idled hp ho =>
    cases hl
    exact .inr (.inl ⟨_, _, _, hp, ho, rfl⟩)
  | fetched hp =>
    cases hl
    exact .inr (.inr ⟨by rw [hp]; rfl, by simp [hp]⟩)
  | numbered hp | admitted hp | launched hp =>
    exact .inr (.inr ⟨by rw [hp]; exact hl, by simp [hp]⟩)
  | notFetched hp | dismissed hp | full hp | refused hp | tracked hp | duplicate hp =>
    exact .inr (.inr ⟨by rw [hp]; exact afterStream_link? hl, by simp [hp]⟩)
  | _ => cases hl

/-- `link` is the control connection of the server after `n` steps. It was established in step `m`, on
`stream`, and has been the server's ever since. -/
inductive Held (w : World) (s : Supervisor) (m : Nat) (stream : Stream) : Nat → Link → Prop
  | connected {t u link} (hp : (run w m s).phase = .dialling)
      (ha : (run w m s).dials.take.1.ask (run w m s).record.opened w.target.text
        ((run w m s).ready w).clock = .stream t stream)
      (hh : Control.handshake w.target.pingTimeout stream t = .linked u link)
      (hl : (run w (m + 1) s).phase.link? = some link) : Held w s m stream (m + 1) link
  | turn {n link t event} (h : Held w s m stream n link) (hp : (run w n s).phase = .serving link)
      (ho : (link.next ((run w n s).ready w).clock).outcome = some (t, .ok event))
      (hl : (run w (n + 1) s).phase.link? = some (link.next ((run w n s).ready w).clock).link) :
      Held w s m stream (n + 1) (link.next ((run w n s).ready w).clock).link
  | kept {n link} (h : Held w s m stream n link) (hn : ∀ l, (run w n s).phase ≠ .serving l)
      (hl : (run w (n + 1) s).phase.link? = some link) : Held w s m stream (n + 1) link

namespace Held

variable {stream : Stream} {link : Link}

theorem link_eq (h : Held w s m stream n link) : (run w n s).phase.link? = some link := by
  cases h <;> assumption

theorem lt (h : Held w s m stream n link) : m < n := by
  induction h with
  | connected => exact Nat.lt_succ_self m
  | turn _ _ _ _ ih | kept _ _ _ ih => exact Nat.lt_succ_of_lt ih

theorem dialling (h : Held w s m stream n link) : (run w m s).phase = .dialling := by
  induction h with
  | connected hp => exact hp
  | turn _ _ _ _ ih | kept _ _ _ ih => exact ih

/-- The script that the peer follows on the connection. -/
theorem script (h : Held w s m stream n link) : ∃ delay script t,
    (run w m s).dials.take.1 = .opens delay script ∧
      stream = script.openAt (run w m s).record.opened w.target.text t := by
  induction h with
  | connected _ ha =>
    obtain ⟨delay, script, ho, hs⟩ := opens_of_ask ha
    exact ⟨delay, script, _, ho, hs⟩
  | turn _ _ _ _ ih | kept _ _ _ ih => exact ih

/-- It was the server's in every step in between. -/
theorem before (h : Held w s m stream n link) {k : Nat} (hm : m < k) (hk : k ≤ n) :
    ∃ l, Held w s m stream k l := by
  induction h with
  | connected hp ha hh hl =>
    have hk' : k = m + 1 := by omega
    subst hk'
    exact ⟨_, .connected hp ha hh hl⟩
  | @turn n link t event h hp ho hl ih =>
    by_cases hlast : k = n + 1
    · subst hlast
      exact ⟨_, .turn h hp ho hl⟩
    · exact ih (by omega)
  | @kept n link h hn hl ih =>
    by_cases hlast : k = n + 1
    · subst hlast
      exact ⟨_, .kept h hn hl⟩
    · exact ih (by omega)

theorem serial (h : Held w s m stream n link) : link.stream.serial = (run w m s).record.opened := by
  induction h with
  | @connected t _ _ _ ha hh =>
    have hshake := Control.serial_handshake w.target.pingTimeout stream t
    rw [hh] at hshake
    exact hshake.trans (serial_of_ask ha)
  | turn _ _ _ _ ih => exact (Link.serial_next ..).trans ih
  | kept _ _ _ ih => exact ih

/-- The words that were dispatched on it stand on its stream in that order, behind the answer to
START. -/
theorem follows (h : Held w s m stream n link) :
    Link.Follows (incoming stream.arrivals) (fate stream.arrivals)
      (inSteps (fun s => (dispatched w s).toList) w s m n) link := by
  induction h with
  | connected hp _ hh =>
    rw [inSteps_succ _ (Nat.le_refl m), inSteps_self, dispatched_of_not_serving (by simp [hp])]
    exact .of_handshake hh
  | turn h hp ho _ ih =>
    rw [inSteps_succ _ (Nat.le_of_lt h.lt), dispatched_of_serving hp]
    exact ih.turn ho
  | kept h hn _ ih =>
    rw [inSteps_succ _ (Nat.le_of_lt h.lt), dispatched_of_not_serving hn, Option.toList_none,
      List.append_nil]
    exact ih

/-- Its data port is the answer to START. -/
theorem dataPort (h : Held w s m stream n link) :
    ∃ word rest, Word.take? (incoming stream.arrivals) = some (word, rest) ∧
      Control.portOf? word = some link.dataPort := by
  induction h with
  | connected _ _ hh => exact Control.port_of_linked hh
  | turn _ _ _ _ ih => rwa [Link.dataPort_next]
  | kept _ _ _ ih => exact ih

end Held

/-- A server that began without a connection and has one now has established it in some step. -/
theorem held_of_link {link : Link} (h₀ : s.phase.link? = none)
    (hl : (run w n s).phase.link? = some link) : ∃ m stream, Held w s m stream n link := by
  induction n generalizing link with
  | zero =>
    rw [show run w 0 s = s from rfl, h₀] at hl
    cases hl
  | succ n ih =>
    have hl' := hl
    rw [run_succ] at hl
    cases hf : (run w n s).phase.isFinal with
    | true =>
      rw [step_of_final hf] at hl
      cases hp : (run w n s).phase <;> simp [hp, Phase.isFinal, Phase.link?] at hf hl
    | false =>
      have hmove := step_transition (w := w) hf
      rcases hmove.link_inv hl with
        ⟨hp, t, stream, u, ha, hh⟩ | ⟨link₀, t, event, hp, ho, rfl⟩ | ⟨hsame, hn⟩
      · exact ⟨n, stream, .connected hp ha hh hl'⟩
      · have hl₀ : (run w n s).phase.link? = some link₀ := by
          rw [show (run w n s).phase = _ from hp]
          rfl
        obtain ⟨m, stream, hheld⟩ := ih hl₀
        exact ⟨m, stream, .turn hheld hp ho hl'⟩
      · obtain ⟨m, stream, hheld⟩ := ih hsame
        exact ⟨m, stream, .kept hheld hn hl'⟩

end Supervisor

end StreamServer
