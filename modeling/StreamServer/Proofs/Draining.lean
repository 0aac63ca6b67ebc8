/-
Waiting for all sessions of a registry, in whatever order. Each wait ends at
the later of its beginning and the end of its session, so the clock runs
through the greatest of the ends seen so far; the greatest of all is the same
in every order. Each session is waited for once, and what is learned is how it
ended itself.
-/
import Mathlib
import StreamServer.Proofs.RegistryLaws
import StreamServer.Proofs.Runs

namespace StreamServer

namespace Session

/-- When the job ends, if it does. -/
def endedAt? (x : Session) : Option Instant := x.ending.map (·.1)

/-- What is noted of a session that was waited for. -/
def joined? (x : Session) : Option (SessionId × Ending) := x.ending.map fun e => (x.id, e.2)

end Session

namespace Registry

variable {r : Registry} {now t : Instant} {order : List (SessionId × Session)}

/-! ## The last end -/

/-- The later of a time and the last end of these sessions. -/
def lastEnd (now : Instant) (l : List Session) : Instant := (l.filterMap Session.endedAt?).foldr max now

theorem foldr_max_max (a b : Nat) (ts : List Nat) : ts.foldr max (max a b) = max a (ts.foldr max b) := by
  induction ts with
  | nil => rfl
  | cons t ts ih => rw [List.foldr_cons, List.foldr_cons, ih, Nat.max_left_comm]

theorem lastEnd_cons {x : Session} {u : Instant} {ending : Ending} (hx : x.ending = some (u, ending))
    (now : Instant) (rest : List Session) :
    lastEnd now (x :: rest) = lastEnd (max now u) rest := by
  have hend : x.endedAt? = some u := by simp [Session.endedAt?, hx]
  rw [lastEnd, lastEnd, List.filterMap_cons_some hend, List.foldr_cons, Nat.max_comm now u, foldr_max_max]

/-- The order of the sessions does not matter. -/
theorem lastEnd_perm {l m : List Session} (h : l.Perm m) (now : Instant) :
    lastEnd now l = lastEnd now m :=
  (h.filterMap _).foldr_eq now

/-! ## One session after another -/

/-- The clock runs through the greatest end seen so far. -/
theorem joinAll_time {l : List Session} (h : (joinAll now l).time = some t) : t = lastEnd now l := by
  induction l generalizing now with
  | nil => exact (Option.some.inj h).symm
  | cons x rest ih =>
    cases hx : x.joinedAt now with
    | none => simp [joinAll, hx] at h
    | some e =>
      obtain ⟨v, ending⟩ := e
      obtain ⟨-, u, hend, rfl⟩ := Session.joinedAt_eq_some_iff.1 hx
      simp only [joinAll, hx] at h
      rw [lastEnd_cons hend]
      exact ih h

/-- What is noted is how each session ended, in the order in which they were waited for. -/
theorem endings_of_time {l : List Session} (h : (joinAll now l).time = some t) :
    (joinAll now l).endings = l.filterMap Session.joined? := by
  induction l generalizing now with
  | nil => rfl
  | cons x rest ih =>
    cases hx : x.joinedAt now with
    | none => simp [joinAll, hx] at h
    | some e =>
      obtain ⟨v, ending⟩ := e
      obtain ⟨-, u, hend, -⟩ := Session.joinedAt_eq_some_iff.1 hx
      have hjoined : x.joined? = some (x.id, ending) := by simp [Session.joined?, hend]
      rw [List.filterMap_cons_some hjoined]
      simp only [joinAll, hx] at h ⊢
      rw [ih h]

/-! ## In any order -/

/-- The registry with its sessions in another order. -/
def inOrder (r : Registry) (order : List (SessionId × Session)) : Registry := { r with entries := order }

theorem sessions_inOrder (h : order.Perm r.entries) : (r.inOrder order).sessions.Perm r.sessions :=
  h.map _

theorem drain_time_inOrder (h : order.Perm r.entries) (now : Instant) :
    ((r.inOrder order).drain now).1.time = (r.drain now).1.time := by
  have hperm := sessions_inOrder h
  -- Whether the waiting is ever over depends on each session by itself.
  have hsome : (joinAll now (r.inOrder order).sessions).time.isSome = true ↔
      (joinAll now r.sessions).time.isSome = true := by
    rw [joinAll_isSome_iff, joinAll_isSome_iff]
    exact forall_congr' fun x => imp_congr_left hperm.mem_iff
  change (joinAll now (r.inOrder order).sessions).time = (joinAll now r.sessions).time
  cases ht : (joinAll now r.sessions).time with
  | none => exact Option.not_isSome_iff_eq_none.1 (by rw [hsome, ht]; nofun)
  | some t =>
    obtain ⟨u, hu⟩ := Option.isSome_iff_exists.1 (hsome.2 (by rw [ht]; rfl))
    rw [hu, joinAll_time hu, joinAll_time ht, lastEnd_perm hperm]

/-- What was learned each time a session with this number was waited for. -/
def Drain.resultsOf (d : Drain) (id : SessionId) : List (Except SessionError Int) :=
  (d.endings.filter (·.1 = id)).map fun e => Session.resultOf e.1 e.2

theorem filter_joined_of_not_mem {l : List Session} {id : SessionId} (h : id ∉ l.map (·.id)) :
    (l.filterMap Session.joined?).filter (·.1 = id) = [] := by
  refine List.filter_eq_nil_iff.2 fun e he hid => h ?_
  obtain ⟨x, hx, hjoined⟩ := List.mem_filterMap.1 he
  obtain ⟨ending, -, rfl⟩ := Option.map_eq_some_iff.1 hjoined
  exact List.mem_map.2 ⟨x, hx, by simpa using hid⟩

/-- Where no number stands twice, there is one note under the number of a session, its own. -/
theorem filter_joined_of_mem {l : List Session} (hids : (l.map (·.id)).Nodup) {x : Session} (hx : x ∈ l)
    {u : Instant} {ending : Ending} (hend : x.ending = some (u, ending)) :
    (l.filterMap Session.joined?).filter (·.1 = x.id) = [(x.id, ending)] := by
  induction l with
  | nil => cases hx
  | cons y rest ih =>
    simp only [List.map_cons, List.nodup_cons] at hids
    rcases List.mem_cons.1 hx with rfl | hx
    · have hjoined : x.joined? = some (x.id, ending) := by simp [Session.joined?, hend]
      rw [List.filterMap_cons_some hjoined, List.filter_cons_of_pos (by simp),
        filter_joined_of_not_mem hids.1]
    · have hne : y.id ≠ x.id := fun heq => hids.1 (heq ▸ List.mem_map_of_mem hx)
      cases hy : y.ending with
      | none =>
        have hjoined : y.joined? = none := by simp [Session.joined?, hy]
        rw [List.filterMap_cons_none hjoined]
        exact ih hids.2 hx
      | some e =>
        have hjoined : y.joined? = some (y.id, e.2) := by simp [Session.joined?, hy]
        rw [List.filterMap_cons_some hjoined, List.filter_cons_of_neg (by simpa using hne)]
        exact ih hids.2 hx

theorem Filed.session_ids (h : Filed r) : r.sessions.map (·.id) = r.ids := by
  simp only [sessions, ids, List.map_map]
  exact List.map_congr_left fun e he => (h.own e he).symm

theorem Filed.nodup_session_ids (h : Filed r) : (r.sessions.map (·.id)).Nodup :=
  h.session_ids ▸ h.distinct

/-- Waiting in any order is over at the last end, if each session ends, and at no time before. -/
theorem drain_over (h : order.Perm r.entries) (ht : ((r.inOrder order).drain now).1.time = some t) :
    t = lastEnd now r.sessions ∧ now ≤ t ∧ ∀ x ∈ r.sessions, ∀ u, x.finishedBy u = false → u < t := by
  rw [drain_time_inOrder h] at ht
  obtain ⟨hle, hfinished⟩ := joinAll_finished ht
  refine ⟨joinAll_time ht, hle, fun x hx u hrun => ?_⟩
  by_contra hge
  have hfin := Session.finishedBy_mono (Nat.le_of_not_lt hge) (hfinished x hx)
  rw [hrun] at hfin
  cases hfin

/-- In any order each session is waited for once. -/
theorem drain_endings_perm (h : order.Perm r.entries)
    (ht : ((r.inOrder order).drain now).1.time = some t) :
    ((r.inOrder order).drain now).1.endings.Perm (r.sessions.filterMap Session.joined?) := by
  have hendings : ((r.inOrder order).drain now).1.endings =
      (r.inOrder order).sessions.filterMap Session.joined? := endings_of_time ht
  rw [hendings]
  exact (sessions_inOrder h).filterMap _

/-- A session that was waited for in any order has told how it ended, and nothing else was told under its
number. -/
theorem resultsOf_drain (h : order.Perm r.entries) (hfiled : Filed r)
    (ht : ((r.inOrder order).drain now).1.time = some t) {x : Session} (hx : x ∈ r.sessions)
    {u : Instant} {ending : Ending} (hend : x.ending = some (u, ending)) :
    ((r.inOrder order).drain now).1.resultsOf x.id = [Session.resultOf x.id ending] := by
  have hperm := (drain_endings_perm h ht).filter (·.1 = x.id)
  rw [filter_joined_of_mem hfiled.nodup_session_ids hx hend] at hperm
  rw [Drain.resultsOf, List.perm_singleton.1 hperm]
  rfl

/-- Nothing is told under a number that stands nowhere. -/
theorem resultsOf_drain_of_not_mem (h : order.Perm r.entries) (hfiled : Filed r)
    (ht : ((r.inOrder order).drain now).1.time = some t) {id : SessionId} (hid : id ∉ r.ids) :
    ((r.inOrder order).drain now).1.resultsOf id = [] := by
  have hperm := (drain_endings_perm h ht).filter (·.1 = id)
  rw [← hfiled.session_ids] at hid
  rw [filter_joined_of_not_mem hid] at hperm
  rw [Drain.resultsOf, List.perm_nil.1 hperm]
  rfl

/-! ## Those who wait -/

namespace Keeper

/-- The keeper when held jobs have been told to end. -/
def released (k : Keeper) (releases : List (SessionId × Nat × Int)) : Keeper :=
  releases.foldl (fun k (id, ms, status) => k.release id (k.clock + ms) status) k

/-- The same, with the sessions of the registry in another order. -/
def Shuffled (k k' : Keeper) : Prop :=
  ∃ order, order.Perm k.registry.entries ∧ k' = { k with registry := k.registry.inOrder order }

variable {k k' : Keeper}

theorem Shuffled.release (h : Shuffled k k') (id : SessionId) (t : Instant) (status : Int) :
    Shuffled (k.release id t status) (k'.release id t status) := by
  obtain ⟨order, hperm, rfl⟩ := h
  unfold Keeper.release
  by_cases hid : id ∈ k.held
  · rw [if_pos hid, if_pos hid]
    exact ⟨_, hperm.map _, rfl⟩
  · rw [if_neg hid, if_neg hid]
    exact ⟨order, hperm, rfl⟩

theorem Shuffled.released (h : Shuffled k k') (releases : List (SessionId × Nat × Int)) :
    Shuffled (k.released releases) (k'.released releases) := by
  induction releases generalizing k k' with
  | nil => exact h
  | cons release releases ih =>
    have hclock : k'.clock = k.clock := by obtain ⟨order, -, rfl⟩ := h; rfl
    obtain ⟨id, ms, status⟩ := release
    have hnext := h.release id (k.clock + ms) status
    have hrest := ih hnext
    simp only [Keeper.released, List.foldl_cons, hclock] at hrest ⊢
    exact hrest

theorem release_frame (k : Keeper) (id : SessionId) (t : Instant) (status : Int) :
    (k.release id t status).clock = k.clock ∧
      (k.release id t status).registry.size = k.registry.size := by
  unfold Keeper.release
  split
  · exact ⟨rfl, List.length_map ..⟩
  · exact ⟨rfl, rfl⟩

theorem released_frame (k : Keeper) (releases : List (SessionId × Nat × Int)) :
    (k.released releases).clock = k.clock ∧
      (k.released releases).registry.size = k.registry.size := by
  induction releases generalizing k with
  | nil => exact ⟨rfl, rfl⟩
  | cons release releases ih =>
    obtain ⟨id, ms, status⟩ := release
    obtain ⟨hclock, hsize⟩ := k.release_frame id (k.clock + ms) status
    obtain ⟨hclock', hsize'⟩ := ih (k.release id (k.clock + ms) status)
    exact ⟨hclock'.trans hclock, hsize'.trans hsize⟩

/-- What a keeper is told who waits for all sessions. -/
theorem drain_reply (patience : Nat) (k : Keeper) (releases : List (SessionId × Nat × Int)) :
    (k.drain patience releases).1 =
      match ((k.released releases).registry.drain k.clock).1.time.filter (· ≤ k.clock + patience) with
      | some t => .drained k.registry.size (t - k.clock)
      | none => .blocked := by
  obtain ⟨hclock, hsize⟩ := k.released_frame releases
  unfold Keeper.drain
  dsimp only
  rw [show releases.foldl _ k = k.released releases from rfl, hclock, hsize]
  generalize ((k.released releases).registry.drain k.clock).1.time.filter
    (· ≤ k.clock + patience) = time
  cases time <;> rfl

/-- The order of the sessions makes no difference to a keeper. -/
theorem drain_reply_shuffled (h : Shuffled k k') (patience : Nat)
    (releases : List (SessionId × Nat × Int)) :
    (k'.drain patience releases).1 = (k.drain patience releases).1 := by
  have hclock : k'.clock = k.clock := by obtain ⟨order, -, rfl⟩ := h; rfl
  have hsize : k'.registry.size = k.registry.size := by
    obtain ⟨order, hperm, rfl⟩ := h
    exact hperm.length_eq
  obtain ⟨order, hperm, hk'⟩ := h.released releases
  have htime : ((k'.released releases).registry.drain k.clock).1.time =
      ((k.released releases).registry.drain k.clock).1.time := by
    rw [hk']
    exact drain_time_inOrder hperm k.clock
  rw [drain_reply, drain_reply, hclock, hsize, htime]

/-- Who is told that the waiting is over is told how many sessions there were, and when it was. -/
theorem drain_reply_drained {patience count ms : Nat} {releases : List (SessionId × Nat × Int)}
    (h : (k.drain patience releases).1 = .drained count ms) :
    count = k.registry.size ∧
      k.clock + ms = lastEnd k.clock (k.released releases).registry.sessions := by
  rw [drain_reply] at h
  split at h <;> cases h
  rename_i t ht
  obtain ⟨htime, -⟩ := Option.filter_eq_some_iff.1 ht
  obtain ⟨hlast, hle, -⟩ := drain_over (.refl _) htime
  exact ⟨rfl, by rw [Nat.add_sub_cancel' hle, hlast]⟩

end Keeper

end Registry

namespace Supervisor

variable {w : World} {s s' : Supervisor}

/-- A server that drains takes all sessions out, and ends when the last of them has, if it does. -/
theorem Transition.of_draining (h : Transition w s s') (hp : s.phase = .draining) :
    (∃ t, (Registry.joinAll s.clock s.registry.sessions).time = some t ∧
      s' = { s with
        clock := t, phase := .ended (.drained s.registry.size)
        registry := { s.registry with entries := [] }
        record := { s.record with
          joined := s.record.joined ++ (Registry.joinAll s.clock s.registry.sessions).sessions
          finalized := s.record.finalized ++ [t]
          events := s.record.events ++ [(t, .drained s.registry.size)] } }) ∨
    ((Registry.joinAll s.clock s.registry.sessions).time = none ∧
      s' = { s with
        phase := .stuck []
        registry := { s.registry with entries := [] }
        record := { s.record with
          joined := s.record.joined ++ (Registry.joinAll s.clock s.registry.sessions).sessions } }) := by
  cases h with
  | drained _ ht => exact .inl ⟨_, ht, rfl⟩
  | drainHung _ ht => exact .inr ⟨ht, rfl⟩
  | _ hp' => cases hp'.symm.trans hp

/-- The order of the sessions makes no difference to a server that drains, but to the record of those it
waited for. -/
theorem step_inOrder {order : List (SessionId × Session)} (hp : s.phase = .draining)
    (h : order.Perm s.registry.entries) :
    ({ s with registry := s.registry.inOrder order }.step w).quiet = { (s.step w).quiet with
      record := { (s.step w).quiet.record with
        joined := s.record.joined ++
          ((s.registry.inOrder order).drain (s.clock + w.lag s.steps)).1.sessions } } := by
  have hfinal : s.phase.isFinal = false := by rw [hp]; rfl
  have hsize : (s.registry.inOrder order).size = s.registry.size := h.length_eq
  have htime := Registry.drain_time_inOrder h (s.clock + w.lag s.steps)
  have hsame := (step_transition (w := w) hfinal).of_draining hp
  have hother := (step_transition (w := w) (s := { s with registry := s.registry.inOrder order })
    hfinal).of_draining hp
  rcases hsame with ⟨t, ht, hs⟩ | ⟨ht, hs⟩ <;> rcases hother with ⟨t', ht', hs'⟩ | ⟨ht', hs'⟩
  · obtain rfl : t' = t := Option.some.inj (ht'.symm.trans (htime.trans ht))
    rw [hs', hs]
    simp only [quiet, ready, hsize]
    rfl
  · cases ht'.symm.trans (htime.trans ht)
  · cases ht'.symm.trans (htime.trans ht)
  · rw [hs', hs]
    rfl

/-- A server that has drained tells how many sessions there were, and has waited for the last of them. -/
theorem exit_of_draining {exit : Exit} (hp : s.phase = .draining) (h : (s.step w).exit? = some exit) :
    exit = .drained s.registry.size ∧
      (s.step w).clock = Registry.lastEnd (s.clock + w.lag s.steps) s.registry.sessions := by
  have hphase : (s.step w).quiet.phase = .ended exit := exit?_eq_some_iff.1 h
  rcases (step_transition (w := w) (s := s) (by rw [hp]; rfl)).of_draining hp with
    ⟨t, ht, hs⟩ | ⟨-, hs⟩
  · have hclock : (s.step w).clock = t := congrArg Supervisor.clock hs
    rw [hs] at hphase
    cases hphase
    exact ⟨rfl, hclock.trans (Registry.drain_over (.refl _) ht).1⟩
  · rw [hs] at hphase
    cases hphase

end Supervisor

namespace Registry

/-- **Waiting for all sessions comes to the same in every order.** It is over exactly if each session ends
and has its result still, and then at the last of the ends or at once. Each was waited for once and has
told its own result under its own number. This goes for a keeper who waits, and for a server that drains. -/
theorem drain_in_any_order :
    (∀ (r : Registry) (order : List (SessionId × Session)) (now : Instant), order.Perm r.entries →
      let d := ((r.inOrder order).drain now).1
      (d.time.isSome = true ↔ ∀ x ∈ r.sessions, x.ending.isSome = true ∧ x.collected = false) ∧
      (Filed r → (d.time.isSome = true ↔ ∀ x ∈ r.sessions, x.ending.isSome = true)) ∧
      (∀ t, d.time = some t → t = lastEnd now r.sessions ∧ d.endings.length = r.size ∧
        d.endings.Perm (r.sessions.filterMap Session.joined?) ∧
        d.sessions = order.map (fun e => e.2.take) ∧
        ∀ x ∈ r.sessions, ∀ u, x.finishedBy u = false → u < t) ∧
      (Filed r → d.time.isSome = true →
        (∀ x ∈ r.sessions,
          (∀ u status, x.ending = some (u, .exited status) → d.resultsOf x.id = [.ok status]) ∧
          ∀ u, x.ending = some (u, .panicked) → d.resultsOf x.id = [.error (.aborted x.id)]) ∧
        ∀ id, id ∉ r.ids → d.resultsOf id = [])) ∧
    (∀ (patience : Nat) (k k' : Keeper) (releases : List (SessionId × Nat × Int)), k.Shuffled k' →
      (k'.drain patience releases).1 = (k.drain patience releases).1 ∧
      ∀ count ms, (k'.drain patience releases).1 = .drained count ms →
        count = k.registry.size ∧
          k.clock + ms = lastEnd k.clock (k.released releases).registry.sessions) ∧
    ∀ (w : Supervisor.World) (s : Supervisor) (order : List (SessionId × Session)),
      s.phase = .draining → order.Perm s.registry.entries →
      let s' := { s with registry := s.registry.inOrder order }
      (s'.step w).quiet = { (s.step w).quiet with
        record := { (s.step w).quiet.record with
          joined := s.record.joined ++
            (s'.registry.drain (s.clock + w.lag s.steps)).1.sessions } } ∧
      ∀ exit, (s'.step w).exit? = some exit → exit = .drained s.registry.size ∧
        (s'.step w).clock = lastEnd (s.clock + w.lag s.steps) s.registry.sessions := by
  refine ⟨fun r order now h => ⟨?_, fun hfiled => ?_, fun t ht => ?_, fun hfiled hsome => ?_⟩,
    fun patience k k' releases h => ?_, fun w s order hp h => ⟨Supervisor.step_inOrder hp h, ?_⟩⟩
  · rw [drain_time_inOrder h]
    exact joinAll_isSome_iff now r.sessions
  · rw [drain_time_inOrder h]
    exact hfiled.joinAll_isSome_iff now
  · obtain ⟨hlast, -, hnever⟩ := drain_over h ht
    refine ⟨hlast, (length_endings_drain ht).trans h.length_eq, drain_endings_perm h ht, ?_, hnever⟩
    exact (joinAll_sessions ht).trans (List.map_map ..)
  · obtain ⟨t, ht⟩ := Option.isSome_iff_exists.1 hsome
    exact ⟨fun x hx => ⟨fun u status hend => resultsOf_drain h hfiled ht hx hend,
      fun u hend => resultsOf_drain h hfiled ht hx hend⟩,
      fun id hid => resultsOf_drain_of_not_mem h hfiled ht hid⟩
  · have hreply := Keeper.drain_reply_shuffled h patience releases
    refine ⟨hreply, fun count ms hdrained => ?_⟩
    rw [hreply] at hdrained
    exact Keeper.drain_reply_drained hdrained
  · intro exit hexit
    obtain ⟨rfl, hclock⟩ := Supervisor.exit_of_draining
      (s := { s with registry := s.registry.inOrder order }) hp hexit
    have hsize : (s.registry.inOrder order).size = s.registry.size := h.length_eq
    exact ⟨by rw [hsize], hclock.trans (lastEnd_perm (sessions_inOrder h) _)⟩

/-- Three sessions: one that has finished at 10, one that breaks down last, one that exits before that. -/
def threeJobs : Registry where
  entries := [(⟨1⟩, .start ⟨1⟩ 0 (some (5, .exited 3))), (⟨2⟩, .start ⟨2⟩ 0 (some (40, .panicked))),
    (⟨4⟩, .start ⟨4⟩ 0 (some (30, .exited 0)))]
  nextId := ⟨5⟩
  cap := none

/-- Somebody who keeps them. -/
def threeJobsKeeper : Keeper := ⟨threeJobs, [], 10, []⟩

/-- Waited for backwards, they take until the second has ended, and each tells its own result. -/
theorem drain_in_any_order_threeJobs :
    ((threeJobs.inOrder threeJobs.entries.reverse).drain 10).1.time = some 40 ∧
    lastEnd 10 threeJobs.sessions = 40 ∧
    ((threeJobs.inOrder threeJobs.entries.reverse).drain 10).1.resultsOf ⟨2⟩ = [.error (.aborted ⟨2⟩)] ∧
    ((threeJobs.inOrder threeJobs.entries.reverse).drain 10).1.resultsOf ⟨1⟩ = [.ok 3] ∧
    ({ threeJobsKeeper with registry := threeJobs.inOrder threeJobs.entries.reverse }.drain 100 []).1 =
      .drained 3 30 := by
  have time : ((threeJobs.inOrder threeJobs.entries.reverse).drain 10).1.time = some 40 := rfl
  have filed : Filed threeJobs := by
    refine ⟨?_, ?_, ?_⟩ <;> simp [threeJobs, ids, Session.start]
  have reply : (threeJobsKeeper.drain 100 []).1 = .drained 3 30 := rfl
  obtain ⟨horder, hkeeper, -⟩ := drain_in_any_order
  obtain ⟨-, -, hover, hresults⟩ := horder threeJobs _ 10 (List.reverse_perm _)
  have hresults := (hresults filed (by rw [time]; rfl)).1
  refine ⟨time, ((hover 40 time).1).symm, ?_, ?_, ?_⟩
  · exact (hresults (.start ⟨2⟩ 0 (some (40, .panicked))) (by simp [sessions, threeJobs])).2 40 rfl
  · exact (hresults (.start ⟨1⟩ 0 (some (5, .exited 3))) (by simp [sessions, threeJobs])).1 5 3 rfl
  · exact (hkeeper 100 threeJobsKeeper _ [] ⟨_, List.reverse_perm _, rfl⟩).1.trans reply

end Registry

end StreamServer
