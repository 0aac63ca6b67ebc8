/-
No session is lost and none is counted twice. Every session that was started
is in exactly one place: it has been let go of after it had finished, it is
tracked under its own number, it is waited for at the end, or it is the one
that the server holds in its hand between starting and tracking it.

Numbers carry the argument. They rise with every stream that gets one, so a
new session never meets its own number among the tracked ones, as long as
fewer than 2^64 streams have come: after that they start again.
-/
import Mathlib
import StreamServer.Proofs.Ending

namespace StreamServer

/-- The session as it was started: nobody has taken its result. -/
def Session.asStarted (x : Session) : Session := { x with taken := 0 }

@[simp] theorem Session.asStarted_take (x : Session) : x.take.asStarted = x.asStarted := rfl

theorem Session.asStarted_of_taken {x : Session} (h : x.taken = 0) : x.asStarted = x := by
  rw [asStarted, ← h]

namespace Registry

/-- Waiting changes nothing about the sessions but that results are taken. -/
theorem asStarted_joinAll (now : Instant) (l : List Session) :
    (joinAll now l).sessions.map Session.asStarted = l.map Session.asStarted := by
  induction l generalizing now with
  | nil => rfl
  | cons x rest ih =>
    unfold joinAll
    split
    · rfl
    · simp [ih]

/-- Nobody who waits takes a result twice. -/
theorem taken_joinAll {now : Instant} {l : List Session} {y : Session}
    (h : ∀ x ∈ l, x.taken = 0) (hy : y ∈ (joinAll now l).sessions) : y.taken ≤ 1 := by
  induction l generalizing now with
  | nil => cases hy
  | cons x rest ih =>
    have hx : x.taken = 0 := h x List.mem_cons_self
    unfold joinAll at hy
    split at hy
    · exact (h y hy).trans_le (Nat.zero_le 1)
    · rcases List.mem_cons.1 hy with rfl | hy
      · exact Nat.succ_le_succ (Nat.le_of_eq hx)
      · exact ih (fun z hz => h z (List.mem_cons_of_mem x hz)) hy

end Registry

namespace Supervisor

variable {w : World} {s s' : Supervisor}

/-! ## Where sessions are -/

/-- The session that was started and is not tracked yet. -/
def Phase.inHand : Phase → List Session
  | .tracking session _ => [session]
  | _ => []

/-- The sessions in all the places where they can be. -/
def sessions (s : Supervisor) : List Session :=
  s.record.reaped ++ s.registry.sessions ++ s.record.joined ++ s.phase.inHand

/-- The number that was given to a stream for which no session was started yet. -/
def Phase.pending : Phase → Option SessionId
  | .admitting id _ _ | .creating id _ _ => some id
  | _ => none

/-- The flags of a data stream are read in this phase. -/
def Phase.isGreeting : Phase → Bool
  | .greeting .. => true
  | _ => false

/-- Data streams that came in the first `n` steps of a run. -/
def dataStreams (w : World) (s : Supervisor) (n : Nat) : Nat :=
  (List.range n).countP fun k => (run w k s).phase.isGreeting

/-- How many finished sessions were let go of when this happened. -/
def Event.reaped : Event → Nat
  | .sessionStarted _ reaped _ => reaped
  | _ => 0

/-- An event that tells of no session that was let go of does not count. -/
theorem sum_reaped_append {t : Instant} {e : Event}
    (h : s'.record.events = s.record.events ++ [(t, e)]) (he : e.reaped = 0) :
    (s'.record.events.map (·.2.reaped)).sum = (s.record.events.map (·.2.reaped)).sum := by
  simp [h, he]

theorem afterStream_inHand (s : Supervisor) (link : Option Link) :
    (s.afterStream link).inHand = [] := by
  unfold afterStream
  split
  · rfl
  · cases link <;> rfl

theorem afterStream_pending (s : Supervisor) (link : Option Link) :
    (s.afterStream link).pending = none := by
  unfold afterStream
  split
  · rfl
  · cases link <;> rfl

theorem dataStreams_succ (w : World) (s : Supervisor) (n : Nat) :
    dataStreams w s (n + 1) =
      dataStreams w s n + if (run w n s).phase.isGreeting then 1 else 0 := by
  simp [dataStreams, List.range_succ, List.countP_append, List.countP_singleton]

theorem dataStreams_le (w : World) (s : Supervisor) (n : Nat) : dataStreams w s n ≤ n := by
  simpa [dataStreams] using List.countP_le_length (l := List.range n)

/-! ## The books of a server -/

/-- The books of a server that has given out the numbers up to `used`. -/
structure Accounted (used : Nat) (s : Supervisor) : Prop where
  /-- Every started session is in one place. -/
  places : s.record.started.Perm (s.sessions.map Session.asStarted)
  own : ∀ e ∈ s.registry.entries, e.1 = e.2.id
  /-- The result of a session is taken when it leaves the registry, and only then. -/
  unread : ∀ x ∈ s.registry.sessions ++ s.phase.inHand, x.taken = 0
  reapedOnce : ∀ x ∈ s.record.reaped, x.taken = 1
  joinedOnce : ∀ x ∈ s.record.joined, x.taken ≤ 1
  next : s.registry.nextId.number = UInt64.ofNat (used + 1)
  rising : s.record.started.Pairwise fun x y => x.id.number.toNat < y.id.number.toNat
  below : ∀ x ∈ s.record.started, x.id.number.toNat ≤ used
  pending : ∀ id ∈ s.phase.pending,
    id.number.toNat = used ∧ ∀ x ∈ s.record.started, x.id.number.toNat < used
  told : s.record.reaped.length = (s.record.events.map (·.2.reaped)).sum

namespace Accounted

variable {used : Nat}

theorem start (w : World) (dials accepts : Openings) (mailbox : Option Mailbox) :
    Accounted 0 (start w dials accepts mailbox) where
  places := by
    unfold Supervisor.start
    dsimp only
    split <;> exact .refl _
  own := nofun
  unread := by
    unfold Supervisor.start
    dsimp only
    split <;> exact nofun
  reapedOnce := nofun
  joinedOnce := nofun
  next := rfl
  rising := .nil
  below := nofun
  pending := by
    unfold Supervisor.start
    dsimp only
    split <;> exact nofun
  told := rfl

/-- Numbers of started sessions are distinct. -/
theorem nodup_ids (h : Accounted used s) : (s.record.started.map (·.id)).Nodup := by
  refine List.Pairwise.map _ (fun x y hxy heq => ?_) h.rising
  rw [heq] at hxy
  exact Nat.lt_irrefl _ hxy

theorem nodup_places (h : Accounted used s) : (s.sessions.map (·.id)).Nodup := by
  have hids := (h.places.map (·.id)).nodup_iff.1 h.nodup_ids
  rwa [List.map_map] at hids

/-- The number of the session in hand is free. -/
theorem not_tracked (h : Accounted used s) {session link}
    (hp : s.phase = .tracking session link) : session.id ∉ s.registry.ids := by
  intro hmem
  obtain ⟨e, he, hid⟩ := List.mem_map.1 hmem
  have hn := h.nodup_places
  rw [sessions, hp, List.map_append, List.nodup_append] at hn
  have htracked : e.2.id ∈ (s.record.reaped ++ s.registry.sessions ++ s.record.joined).map (·.id) := by
    refine List.mem_map_of_mem (List.mem_append_left _ (List.mem_append_right _ ?_))
    exact List.mem_map_of_mem he
  exact hn.2.2 _ htracked _ (List.mem_singleton_self _) ((h.own e he).symm.trans hid)

/-- The session in hand is always taken, whatever has finished in the meantime. -/
theorem insert_eq_ok (h : Accounted used s) {session link}
    (hp : s.phase = .tracking session link) (now : Instant) :
    (s.registry.sweep now).registry.insert session = .ok { (s.registry.sweep now).registry with
      entries := (s.registry.sweep now).registry.entries ++ [(session.id, session)] } := by
  refine Registry.insert_eq_ok fun hmem => h.not_tracked hp ?_
  obtain ⟨e, he, hid⟩ := List.mem_map.1 hmem
  exact List.mem_map.2 ⟨e, Registry.mem_entries_of_mem_sweep he, hid⟩

/-- What does not touch sessions or numbers keeps the books. -/
theorem frame (h : Accounted used s) (hr : s'.registry = s.registry)
    (hst : s'.record.started = s.record.started) (hre : s'.record.reaped = s.record.reaped)
    (hj : s'.record.joined = s.record.joined) (hh : s'.phase.inHand = s.phase.inHand)
    (hp : s'.phase.pending = none ∨ s'.phase.pending = s.phase.pending)
    (he : (s'.record.events.map (·.2.reaped)).sum = (s.record.events.map (·.2.reaped)).sum) :
    Accounted used s' where
  places := by rw [sessions, hst, hre, hr, hj, hh]; exact h.places
  own := by rw [hr]; exact h.own
  unread := by rw [hr, hh]; exact h.unread
  reapedOnce := by rw [hre]; exact h.reapedOnce
  joinedOnce := by rw [hj]; exact h.joinedOnce
  next := by rw [hr]; exact h.next
  rising := by rw [hst]; exact h.rising
  below := by rw [hst]; exact h.below
  pending := by
    rcases hp with hp | hp
    · rw [hp]; exact nofun
    · rw [hp, hst]; exact h.pending
  told := by rw [hre, he]; exact h.told

/-- A stream gets the next number. -/
theorem giveNumber (h : Accounted used s) (few : used + 1 < 2 ^ 64) (hh : s.phase.inHand = [])
    (t : Instant) (stream : Stream) (link : Option Link) :
    Accounted (used + 1) { s with
      clock := t, phase := .admitting s.registry.nextId stream link
      registry := { s.registry with nextId := s.registry.nextId.next } } where
  places := by
    have hplaces := h.places
    rw [sessions, hh] at hplaces
    exact hplaces
  own := h.own
  unread := by
    have hunread := h.unread
    rw [hh] at hunread
    exact hunread
  reapedOnce := h.reapedOnce
  joinedOnce := h.joinedOnce
  next := by
    show s.registry.nextId.number + 1 = _
    rw [h.next, UInt64.ofNat_add (used + 1) 1]
    rfl
  rising := h.rising
  below := fun x hx => Nat.le_succ_of_le (h.below x hx)
  pending := by
    intro id hid
    cases hid
    refine ⟨?_, fun x hx => Nat.lt_succ_of_le (h.below x hx)⟩
    rw [h.next, UInt64.toNat_ofNat']
    exact Nat.mod_eq_of_lt few
  told := h.told

/-- A session is started under the number its stream was given. -/
theorem launch (h : Accounted used s) (hh : s.phase.inHand = []) {session : Session}
    (hid : s.phase.pending = some session.id) (hnew : session.taken = 0)
    (link : Option Link) (jobs : List Job) :
    Accounted used { s with
      phase := .tracking session link
      record := { s.record with jobs := jobs, started := s.record.started ++ [session] } } where
  places := by
    have hplaces := h.places.append_right [session]
    rw [sessions, hh, List.append_nil] at hplaces
    rwa [sessions, Phase.inHand, List.map_append, List.map_singleton, Session.asStarted_of_taken hnew]
  own := h.own
  unread := by
    intro x hx
    rcases List.mem_append.1 hx with hx | hx
    · exact h.unread x (List.mem_append_left _ hx)
    · rw [List.mem_singleton.1 hx]; exact hnew
  reapedOnce := h.reapedOnce
  joinedOnce := h.joinedOnce
  next := h.next
  rising := by
    obtain ⟨hused, hlt⟩ := h.pending _ hid
    refine List.pairwise_append.2 ⟨h.rising, List.pairwise_singleton .., fun x hx y hy => ?_⟩
    rw [List.mem_singleton.1 hy, hused]
    exact hlt x hx
  below := by
    intro x hx
    rcases List.mem_append.1 hx with hx | hx
    · exact h.below x hx
    · rw [List.mem_singleton.1 hx]; exact Nat.le_of_eq (h.pending _ hid).1
  pending := nofun
  told := h.told

/-- Finished sessions are let go of, and the session in hand is tracked. -/
theorem track (h : Accounted used s) {session link registry} (now : Instant)
    (hp : s.phase = .tracking session link)
    (hi : (s.registry.sweep now).registry.insert session = .ok registry) :
    Accounted used { s with
      phase := s.afterStream link, registry := registry
      record := { s.record with
        reaped := s.record.reaped ++ (s.registry.sweep now).gone
        events := s.record.events ++ [(now, .sessionStarted session.id
          (s.registry.sweep now).gone.length registry.size)] } } := by
  obtain rfl := Registry.eq_of_insert_eq_ok hi
  have hnew : ({ (s.registry.sweep now).registry with
      entries := (s.registry.sweep now).registry.entries ++ [(session.id, session)] } :
      Registry).sessions = (s.registry.sweep now).registry.sessions ++ [session] := by
    simp [Registry.sessions]
  have hunread := h.unread
  rw [hp] at hunread
  refine { h with
    places := ?_, own := ?_, unread := ?_, reapedOnce := ?_, pending := ?_, told := ?_ }
  · -- What was swept out and what is left are together what was tracked before.
    have hswept := Registry.sweep_perm s.registry now
    have hplaces := h.places
    rw [sessions, hp] at hplaces
    simp only [sessions, afterStream_inHand, List.append_nil, hnew]
    refine hplaces.trans ?_
    have hmoved :=
      calc s.record.reaped ++ s.registry.sessions ++ s.record.joined ++ [session]
          |>.Perm (s.record.reaped ++ s.registry.sessions ++ ([session] ++ s.record.joined)) := by
            rw [List.append_assoc]
            exact List.perm_append_comm.append_left _
        _ |>.Perm (s.record.reaped ++ ((s.registry.finished now).map (·.2) ++
              (s.registry.sweep now).registry.sessions) ++ ([session] ++ s.record.joined)) :=
            (hswept.symm.append_left _).append_right _
    refine (hmoved.map Session.asStarted).trans (.of_eq ?_)
    simp [Registry.gone_sweep]
  · intro e he
    rcases List.mem_append.1 he with he | he
    · exact h.own e (Registry.mem_entries_of_mem_sweep he)
    · rw [List.mem_singleton.1 he]
  · intro x hx
    simp only [hnew, afterStream_inHand, List.append_nil] at hx
    refine hunread x ?_
    rcases List.mem_append.1 hx with hx | hx
    · obtain ⟨e, he, rfl⟩ := List.mem_map.1 hx
      exact List.mem_append_left _ (List.mem_map_of_mem (Registry.mem_entries_of_mem_sweep he))
    · exact List.mem_append_right _ hx
  · intro x hx
    rcases List.mem_append.1 hx with hx | hx
    · exact h.reapedOnce x hx
    · rw [Registry.gone_sweep] at hx
      obtain ⟨e, he, rfl⟩ := List.mem_map.1 hx
      have hmem : e.2 ∈ s.registry.sessions := List.mem_map_of_mem (List.mem_filter.1 he).1
      exact congrArg (· + 1) (hunread e.2 (List.mem_append_left _ hmem))
  · intro id hid
    rw [afterStream_pending] at hid
    cases hid
  · simp [h.told, Event.reaped]

/-- All tracked sessions are taken out to be waited for. -/
theorem takeOut (h : Accounted used s) (hh : s.phase.inHand = []) {now : Instant}
    (hr : s'.registry = { s.registry with entries := [] })
    (hst : s'.record.started = s.record.started) (hre : s'.record.reaped = s.record.reaped)
    (hj : s'.record.joined =
      s.record.joined ++ (Registry.joinAll now s.registry.sessions).sessions)
    (hh' : s'.phase.inHand = []) (hp : s'.phase.pending = none)
    (he : (s'.record.events.map (·.2.reaped)).sum = (s.record.events.map (·.2.reaped)).sum) :
    Accounted used s' where
  places := by
    have hplaces := h.places
    have hjoined := Registry.asStarted_joinAll now s.registry.sessions
    simp only [sessions, hh, hst, hre, hr, hj, hh', Registry.sessions, List.map_append, List.map_nil,
      List.append_nil, List.append_assoc] at hplaces hjoined ⊢
    rw [hjoined]
    exact hplaces.trans (List.perm_append_comm.append_left _)
  own := by simp [hr]
  unread := by simp [hr, hh', Registry.sessions]
  reapedOnce := by rw [hre]; exact h.reapedOnce
  joinedOnce := by
    intro x hx
    rw [hj] at hx
    rcases List.mem_append.1 hx with hx | hx
    · exact h.joinedOnce x hx
    · exact Registry.taken_joinAll (fun y hy => h.unread y (List.mem_append_left _ hy)) hx
  next := by rw [hr]; exact h.next
  rising := by rw [hst]; exact h.rising
  below := by rw [hst]; exact h.below
  pending := by simp [hp]
  told := by rw [hre, he]; exact h.told

/-- Every transition keeps the books; only a stream that says hello may use up a number. -/
theorem move (h : Accounted used s) (ht : Transition w s s')
    (few : used + (if s.phase.isGreeting then 1 else 0) < 2 ^ 64) :
    ∃ used' ≤ used + (if s.phase.isGreeting then 1 else 0), Accounted used' s' := by
  have same : Accounted used s' →
      ∃ used' ≤ used + (if s.phase.isGreeting then 1 else 0), Accounted used' s' :=
    fun h => ⟨used, Nat.le_add_right .., h⟩
  cases ht with
  | numbered hp =>
    have hgreet : s.phase.isGreeting = true := by rw [hp]; rfl
    rw [if_pos hgreet] at few ⊢
    exact ⟨used + 1, Nat.le_refl _, h.giveNumber few (by rw [hp]; rfl) ..⟩
  | launched hp => exact same (h.launch (by rw [hp]; rfl) (by rw [hp]; rfl) rfl ..)
  | tracked hp hi => exact same (h.track _ hp hi)
  | duplicate hp hi =>
    rw [h.insert_eq_ok hp] at hi
    cases hi
  | drained hp =>
    exact same (h.takeOut (by rw [hp]; rfl) rfl rfl rfl rfl rfl rfl (sum_reaped_append rfl rfl))
  | drainHung hp => exact same (h.takeOut (by rw [hp]; rfl) rfl rfl rfl rfl rfl rfl rfl)
  | admitted hp => exact same (h.frame rfl rfl rfl rfl (by rw [hp]; rfl) (.inr (by rw [hp]; rfl)) rfl)
  | notFetched hp | dismissed hp =>
    exact same (h.frame rfl rfl rfl rfl (by rw [hp, afterStream_inHand]; rfl)
      (.inl (afterStream_pending ..)) rfl)
  | full hp | refused hp =>
    exact same (h.frame rfl rfl rfl rfl (by rw [hp, afterStream_inHand]; rfl)
      (.inl (afterStream_pending ..)) (sum_reaped_append rfl rfl))
  | unreached hp | unanswered hp | connected hp | pinged hp | lost hp | exitAsked hp =>
    exact same (h.frame rfl rfl rfl rfl (by rw [hp]; rfl) (.inl rfl) (sum_reaped_append rfl rfl))
  | _ hp => exact same (h.frame rfl rfl rfl rfl (by rw [hp]; rfl) (.inl rfl) rfl)

theorem step (h : Accounted used s)
    (few : used + (if s.phase.isGreeting then 1 else 0) < 2 ^ 64) :
    ∃ used' ≤ used + (if s.phase.isGreeting then 1 else 0), Accounted used' (s.step w) := by
  cases hf : s.phase.isFinal with
  | true => exact ⟨used, Nat.le_add_right .., by rwa [step_of_final hf]⟩
  | false =>
    have hready : Accounted used (s.ready w).quiet :=
      h.frame rfl rfl rfl rfl rfl (.inr rfl) rfl
    obtain ⟨used', hle, h'⟩ := hready.move (step_transition hf) few
    exact ⟨used', hle, h'.frame rfl rfl rfl rfl rfl (.inr rfl) rfl⟩

/-- The books are right in every state of a run, as long as numbers last. -/
theorem run (h : Accounted 0 s) (n : Nat) (few : dataStreams w s n < 2 ^ 64) :
    ∃ used ≤ dataStreams w s n, Accounted used (run w n s) := by
  induction n with
  | zero => exact ⟨0, Nat.le_refl _, h⟩
  | succ n ih =>
    rw [dataStreams_succ] at few ⊢
    obtain ⟨used, hle, hn⟩ := ih (by omega)
    obtain ⟨used', hle', hn'⟩ := hn.step (w := w) (by omega)
    rw [run_succ]
    exact ⟨used', by omega, hn'⟩

/-- Whoever asks for the result of a tracked session that has finished is told it. -/
theorem inquire_of_finished (h : Accounted used s) {e : SessionId × Session} {now : Instant}
    (he : e ∈ s.registry.finished now) : ∃ result, (e.2.inquire now).1 = .ended result := by
  obtain ⟨hmem, hfin⟩ := List.mem_filter.1 he
  have hunread : e.2.collected = false :=
    decide_eq_false (by rw [h.unread e.2 (List.mem_append_left _ (List.mem_map_of_mem hmem))]; decide)
  unfold Session.finishedBy at hfin
  split at hfin
  · rename_i t ending hend
    refine ⟨Session.resultOf e.2.id ending, ?_⟩
    simp only [decide_eq_true_eq] at hfin
    simp [Session.inquire, hend, hfin, hunread]
  · cases hfin

end Accounted

/-! ## Losing the peer -/

/-- The server is busy with its peer: it dials, serves the connection, opens a data connection, or
waits before it dials again. -/
def Phase.isContact : Phase → Bool
  | .dialling | .serving _ | .fetching _ | .pausing => true
  | _ => false

theorem Transition.registry_of_contact (h : Transition w s s') (hc : s.phase.isContact = true) :
    s'.registry = s.registry := by
  cases h with
  | numbered hp | tracked hp | duplicate hp | drained hp | drainHung hp =>
    simp [hp, Phase.isContact] at hc
  | _ => rfl

theorem run_registry_of_contact (n : Nat) (h : ∀ k < n, (run w k s).phase.isContact = true) :
    (run w n s).registry = s.registry := by
  induction n with
  | zero => rfl
  | succ n ih =>
    have hc := h n (Nat.lt_succ_self n)
    have hf : (run w n s).phase.isFinal = false := by
      cases hp : (run w n s).phase <;> simp_all [Phase.isContact, Phase.isFinal]
    have hstep := (step_transition (w := w) hf).registry_of_contact hc
    rw [run_succ, ← ih fun k hk => h k (Nat.lt_succ_of_lt hk)]
    exact hstep

/-! ## Conservation -/

/-- **Every session is in one place.** In every state of a run, the sessions that were started are
those that were let go of, those that are tracked, those that are waited for at the end, and at most one
in hand, which is always tracked next. All are different, and each result is taken once, when its session
leaves the registry. Losing the peer leaves the registry alone, and a run that drains has lost no
session. -/
theorem sessions_conserved (w : World) (dials accepts : Openings) (mailbox : Option Mailbox)
    (n : Nat) (few : dataStreams w (start w dials accepts mailbox) n < 2 ^ 64) :
    let s := run w n (start w dials accepts mailbox)
    s.record.started.Perm (s.sessions.map Session.asStarted) ∧
    (s.sessions.map (·.id)).Nodup ∧
    (∀ e ∈ s.registry.entries, e.1 = e.2.id) ∧
    (∀ session link, s.phase = .tracking session link → ∀ now, ∃ registry,
      (s.registry.sweep now).registry.insert session = .ok registry) ∧
    ((∀ x ∈ s.registry.sessions ++ s.phase.inHand, x.taken = 0) ∧
      (∀ x ∈ s.record.reaped, x.taken = 1) ∧ ∀ x ∈ s.record.joined, x.taken ≤ 1) ∧
    (∀ now, ∀ e ∈ s.registry.finished now, ∃ result, (e.2.inquire now).1 = .ended result) ∧
    (∀ m, (∀ k < m, (run w k s).phase.isContact = true) → (run w m s).registry = s.registry) ∧
    ∀ joined, s.exit? = some (.drained joined) →
      joined + (s.record.events.map (·.2.reaped)).sum = s.record.started.length ∧
      ∀ x ∈ s.record.reaped ++ s.record.joined, x.taken = 1 := by
  intro s
  obtain ⟨used, -, h⟩ := (Accounted.start w dials accepts mailbox).run n few
  have hc : Closing s := (Closing.start w dials accepts mailbox).run n
  refine ⟨h.places, h.nodup_places, h.own, fun session link hp now => ⟨_, h.insert_eq_ok hp now⟩,
    ⟨h.unread, h.reapedOnce, h.joinedOnce⟩, fun now e he => h.inquire_of_finished he,
    fun m hm => run_registry_of_contact m hm, fun joined hx => ?_⟩
  have hp : s.phase = .ended (.drained joined) := exit?_eq_some_iff.1 hx
  obtain ⟨-, hempty, hjoined, hover⟩ := hc.of_drained hp
  constructor
  · have hlen : s.record.started.length = (s.sessions.map Session.asStarted).length := h.places.length_eq
    rw [sessions, hp] at hlen
    simp only [List.length_map, List.length_append, Registry.sessions, hempty, List.map_nil,
      List.length_nil, hjoined, Phase.inHand, Nat.add_zero] at hlen
    rw [← h.told, hlen, Nat.add_comm]
  · intro x hx
    rcases List.mem_append.1 hx with hx | hx
    · exact h.reapedOnce x hx
    · exact Nat.le_antisymm (h.joinedOnce x hx) (of_decide_eq_true (hover x hx).2)

/-- A client that comes after a millisecond and sends its flags. -/
def caller (flags : Flags) : Opening := .opens 1 ⟨[⟨0, .bytes flags.encode⟩], [], none⟩

/-- A world of two sessions, the first of which is over at once. -/
def shortAndLong : World := { config := .standard, worker := .ofPlans [.run 0 0, .run 5 7] }

/-- Two clients with payload, and one that asks the server to exit. -/
def threeCallers : Supervisor :=
  start shortAndLong ⟨[], .hangs⟩ ⟨[caller .empty, caller .empty, caller .exit], .hangs⟩ none

/-- Of two sessions one has finished when the other is tracked; the other is waited for. -/
theorem sessions_conserved_threeCallers :
    dataStreams shortAndLong threeCallers 13 < 2 ^ 64 ∧
      (run shortAndLong 13 threeCallers).exit? = some (.drained 1) ∧
      1 + ((run shortAndLong 13 threeCallers).record.events.map (·.2.reaped)).sum =
        (run shortAndLong 13 threeCallers).record.started.length ∧
      ∀ x ∈ (run shortAndLong 13 threeCallers).record.reaped ++
        (run shortAndLong 13 threeCallers).record.joined, x.taken = 1 := by
  have few : dataStreams shortAndLong threeCallers 13 < 2 ^ 64 :=
    Nat.lt_of_le_of_lt (dataStreams_le ..) (by decide)
  have drained : (run shortAndLong 13 threeCallers).exit? = some (.drained 1) := by decide +kernel
  have count := (sessions_conserved shortAndLong _ _ _ 13 few).2.2.2.2.2.2.2
  exact ⟨few, drained, count 1 drained⟩

end Supervisor

end StreamServer
