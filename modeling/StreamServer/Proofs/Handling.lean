/-
What dealing with one data stream changes. A stream is read, numbered, let in,
handed to the worker and tracked, and each of these can be where it ends; what
has been changed by then stays changed, and nothing else does.

Each step is described once, by all that it changes; the effects of a stream
are chains of such steps.
-/
import StreamServer.Proofs.Conservation
import StreamServer.Proofs.Echoing

namespace StreamServer

open Arrival

/-! ## The flags -/

/-- A stream that has less than what is to be read fails when it ends, and is waited for if it never
does. -/
theorem readExact_of_lt (need : Nat) (now : Instant) (got : List UInt8) {arrivals : List Arrival}
    (h : (incoming arrivals).length < need) :
    (fate arrivals = none ∧ ∃ got', readExact need now got arrivals = .never got') ∨
    (fate arrivals ≠ none ∧ ∃ t got', readExact need now got arrivals = .ended t got' ∨
      ∃ reason, readExact need now got arrivals = .fault t reason got') := by
  induction arrivals generalizing need now got with
  | nil => exact .inl ⟨rfl, got, rfl⟩
  | cons a arrivals ih =>
    simp only [readExact, incoming, fate] at h ⊢
    cases hin : a.input with
    | bytes data =>
      simp only [hin, List.length_append] at h ⊢
      rw [if_pos (by omega)]
      exact ih (need - data.length) (max now a.due) (got ++ data) (by omega)
    | ended => exact .inr ⟨by simp, max now a.due, got, .inl rfl⟩
    | fault reason => exact .inr ⟨by simp, max now a.due, got, .inr ⟨reason, rfl⟩⟩

namespace Greeting

variable {stream : Stream}

theorem read_of_short (h : (incoming stream.arrivals).length < 4) (now : Instant) :
    (fate stream.arrivals = none ∧ read stream now = .never) ∨
    (fate stream.arrivals ≠ none ∧ ∃ t e, read stream now = .failed t e) := by
  unfold read
  rcases readExact_of_lt Word.size now [] h with ⟨hfate, got, hr⟩ | ⟨hfate, t, got, hr | ⟨reason, hr⟩⟩
  · exact .inl ⟨hfate, by rw [hr]; rfl⟩
  · exact .inr ⟨hfate, t, _, by rw [hr]; rfl⟩
  · exact .inr ⟨hfate, t, _, by rw [hr]; rfl⟩

/-- The flags of a stream are its first word. -/
theorem read_of_word {word : Word} {payload : List UInt8}
    (h : Word.take? (incoming stream.arrivals) = some (word, payload)) (now : Instant) :
    ∃ t rest, read stream now = .flags t ⟨word⟩ rest ∧ incoming rest.arrivals = payload := by
  obtain ⟨a, b, c, d, hbytes, rfl⟩ := Word.take?_inv h
  obtain ⟨t, rest, hread, hrest, -⟩ := readExact_of_le Word.size now [] (by decide)
    (show Word.size ≤ (incoming stream.arrivals).length by simp [hbytes, Word.size])
  refine ⟨t, { stream with arrivals := rest }, ?_, ?_⟩
  · rw [read, hread, hbytes]
    rfl
  · rw [hrest, hbytes]
    rfl

end Greeting

/-- Whether a client asks the server to exit is for the lowest bit to say, whatever the others are. -/
theorem Flags.requestsExit_iff (flags : Flags) : flags.requestsExit = true ↔ flags.bits &&& 1 = 1 := by
  simp [requestsExit, contains, exit]

namespace Supervisor

variable {w : World} {s s' : Supervisor} {stream : Stream} {link : Option Link} {id : SessionId}

/-! ## The steps -/

/-- What becomes of a stream whose flags are read. -/
theorem Transition.of_greeting (h : Transition w s s') (hp : s.phase = .greeting stream link) :
    (∃ t flags rest, Greeting.read stream s.clock = .flags t flags rest ∧
      s' = if flags.requestsExit then
        { s with
          clock := t, phase := .draining, exiting := true
          record := { s.record with events := s.record.events ++ [(t, .exitRequested)] } }
      else
        { s with
          clock := t, phase := .admitting s.registry.nextId rest link
          registry := { s.registry with nextId := s.registry.nextId.next } }) ∨
    (∃ t e, Greeting.read stream s.clock = .failed t e ∧
      s' = { s with clock := t, phase := s.afterStream link }) ∨
    Greeting.read stream s.clock = .never ∧ ∃ streams, s' = { s with phase := .stuck streams } := by
  cases h with
  | exitAsked hp' hg hf | numbered hp' hg hf =>
    cases hp'.symm.trans hp
    exact .inl ⟨_, _, _, hg, by rw [hf]; rfl⟩
  | dismissed hp' hg =>
    cases hp'.symm.trans hp
    exact .inr (.inl ⟨_, _, hg, rfl⟩)
  | greetHung hp' hg =>
    cases hp'.symm.trans hp
    exact .inr (.inr ⟨hg, _, rfl⟩)
  | _ hp' => cases hp'.symm.trans hp

/-- What becomes of a stream that was given a number. -/
theorem Transition.of_admitting (h : Transition w s s') (hp : s.phase = .admitting id stream link) :
    (s.registry.checkCapacity s.clock = .ok () ∧ s' = { s with phase := .creating id stream link }) ∨
    ∃ e, s.registry.checkCapacity s.clock = .error e ∧
      s' = { s with
        phase := s.afterStream link
        record := { s.record with
          events := s.record.events ++ [(s.clock, .sessionRejected e.message)] } } := by
  cases h with
  | admitted hp' hc =>
    cases hp'.symm.trans hp
    exact .inl ⟨hc, rfl⟩
  | full hp' hc =>
    cases hp'.symm.trans hp
    exact .inr ⟨_, hc, rfl⟩
  | _ hp' => cases hp'.symm.trans hp

/-- What becomes of a stream that is handed to the worker. -/
theorem Transition.of_creating (h : Transition w s s') (hp : s.phase = .creating id stream link) :
    (∃ course, w.worker.create id stream s.clock = .ok course ∧
      s' = { s with
        phase := .tracking (.start id s.clock course.ending) link
        record := { s.record with
          jobs := s.record.jobs ++ [⟨id, s.clock, some course⟩]
          started := s.record.started ++ [.start id s.clock course.ending] } }) ∨
    ∃ e, w.worker.create id stream s.clock = .error e ∧
      s' = { s with
        phase := s.afterStream link
        record := { s.record with
          jobs := s.record.jobs ++ [⟨id, s.clock, none⟩]
          events := s.record.events ++ [(s.clock, .sessionRejected e.message)] } } := by
  cases h with
  | launched hp' hc =>
    cases hp'.symm.trans hp
    exact .inl ⟨_, hc, rfl⟩
  | refused hp' hc =>
    cases hp'.symm.trans hp
    exact .inr ⟨_, hc, rfl⟩
  | _ hp' => cases hp'.symm.trans hp

/-- A session whose number is free is tracked, and those that have finished are let go of. -/
theorem Transition.of_tracking {session : Session} (h : Transition w s s')
    (hp : s.phase = .tracking session link) (hfree : session.id ∉ s.registry.ids) :
    let gone := s.registry.finished s.clock
    let left := s.registry.entries.filter fun e => !e.2.finishedBy s.clock
    s' = { s with
      phase := s.afterStream link
      registry := { s.registry with entries := left ++ [(session.id, session)] }
      record := { s.record with
        reaped := s.record.reaped ++ gone.map (fun e => e.2.take)
        events := s.record.events ++
          [(s.clock, .sessionStarted session.id gone.length (left.length + 1))] } } := by
  have hinsert := Registry.insert_eq_ok (r := (s.registry.sweep s.clock).registry) (x := session)
      fun hmem => by
    obtain ⟨e, he, hid⟩ := List.mem_map.1 hmem
    exact hfree (List.mem_map.2 ⟨e, Registry.mem_entries_of_mem_sweep he, hid⟩)
  cases h with
  | tracked hp' hi =>
    cases hp'.symm.trans hp
    cases hi.symm.trans hinsert
    rw [Registry.gone_sweep, List.length_map]
    simp [Registry.size, Registry.sweep]
  | duplicate hp' hi =>
    cases hp'.symm.trans hp
    cases hi.symm.trans hinsert
  | _ hp' => cases hp'.symm.trans hp

/-! ## The effects -/

/-- A stream is being dealt with. -/
def Phase.isHandling : Phase → Bool
  | .greeting .. | .admitting .. | .creating .. | .tracking .. => true
  | _ => false

theorem afterStream_isHandling (s : Supervisor) (link : Option Link) :
    (s.afterStream link).isHandling = false := by
  unfold afterStream
  split
  · rfl
  · cases link <;> rfl

/-- What dealing with a stream can come to. -/
inductive Effect where
  | dismissed
  | exitAsked
  | rejected
  | started
deriving DecidableEq, Repr

/-- The server with no more changed than that it has gone on and is in another phase. -/
def goneOn (s : Supervisor) (t : Instant) (steps : Nat) (phase : Phase) : Supervisor :=
  { s.quiet with clock := t, steps := steps, phase := phase }

/-- The same with one number used. -/
def numbered (s : Supervisor) (t : Instant) (steps : Nat) (phase : Phase) : Supervisor :=
  { s.goneOn t steps phase with registry := s.registry.allocate.2 }

/-- By `t`, since `s` opened the stream, room was found for a session. -/
def RoomFound (s : Supervisor) (t : Instant) : Prop :=
  ∃ c, s.clock ≤ c ∧ c ≤ t ∧ s.registry.checkCapacity c = .ok ()

/-- All that dealing with `stream`, which `s` has opened, has changed in `s'` when it came to this. -/
def Effect.Changes (w : World) (stream : Stream) (link : Option Link) (s s' : Supervisor) :
    Effect → Prop
  | .dismissed => s'.quiet = s.goneOn s'.clock s'.steps (s.afterStream link)
  | .exitAsked =>
    s'.quiet = { s.goneOn s'.clock s'.steps .draining with
      exiting := true
      record := { s.quiet.record with
        events := s.record.events ++ [(s'.clock, .exitRequested)] } }
  | .rejected => ∃ (e : SessionError) (jobs : List Job),
    s'.quiet = { s.numbered s'.clock s'.steps (s.afterStream link) with
      record := { s.quiet.record with
        jobs := jobs
        events := s.record.events ++ [(s'.clock, .sessionRejected e.message)] } } ∧
    (s.registry.checkCapacity s'.clock = .error e ∧ jobs = s.record.jobs ∨
      s.RoomFound s'.clock ∧ (∃ rest : Stream,
        incoming rest.arrivals = (incoming stream.arrivals).drop 4 ∧
        w.worker.create s.registry.nextId rest s'.clock = .error e) ∧
      jobs = s.record.jobs ++ [⟨s.registry.nextId, s'.clock, none⟩])
  | .started => ∃ (began : Instant) (course : Worker.Course) (rest : Stream),
    let id := s.registry.nextId
    let session := Session.start id began course.ending
    let gone := s.registry.finished s'.clock
    let left := s.registry.entries.filter fun e => !e.2.finishedBy s'.clock
    s.RoomFound began ∧ began ≤ s'.clock ∧
    incoming rest.arrivals = (incoming stream.arrivals).drop 4 ∧
    w.worker.create id rest began = .ok course ∧
    s'.quiet = { s.numbered s'.clock s'.steps (s.afterStream link) with
      registry := { s.registry.allocate.2 with entries := left ++ [(id, session)] }
      record := { s.quiet.record with
        jobs := s.record.jobs ++ [⟨id, began, some course⟩]
        started := s.record.started ++ [session]
        reaped := s.record.reaped ++ gone.map (fun e => e.2.take)
        events := s.record.events ++
          [(s'.clock, .sessionStarted id gone.length s'.registry.size)] } } ∧
    s'.registry.size + gone.length = s.registry.size + 1

/-- What was told gives away what a stream has come to. -/
def Effect.ofNews : List (Instant × Event) → Effect
  | [] => .dismissed
  | (_, .exitRequested) :: _ => .exitAsked
  | (_, .sessionRejected _) :: _ => .rejected
  | _ => .started

theorem Effect.Changes.eq_ofNews {e : Effect} (h : e.Changes w stream link s s') :
    e = .ofNews (s'.record.events.drop s.record.events.length) := by
  have hevents : s'.record.events = s'.quiet.record.events := rfl
  cases e with
  | dismissed =>
    rw [hevents, show s'.quiet = _ from h]
    simp [goneOn, quiet, ofNews]
  | exitAsked =>
    rw [hevents, show s'.quiet = _ from h]
    simp [ofNews]
  | rejected =>
    obtain ⟨e, jobs, hs, -⟩ := h
    rw [hevents, hs]
    simp [ofNews]
  | started =>
    obtain ⟨began, course, rest, -, -, -, -, hs, -⟩ := h
    rw [hevents, hs]
    simp [ofNews]

/-! ## From step to step -/

section Chain

variable {o : Supervisor} {rest : Stream} {t : Instant} {n : Nat}

theorem RoomFound.mono {u : Instant} (h : o.RoomFound t) (htu : t ≤ u) : o.RoomFound u := by
  obtain ⟨c, hfrom, hc, hroom⟩ := h
  exact ⟨c, hfrom, Nat.le_trans hc htu, hroom⟩

theorem clock_of_quiet {x : Supervisor} (h : s'.quiet = x) : s'.clock = x.clock := by
  rw [← h]
  rfl

theorem steps_of_quiet {x : Supervisor} (h : s'.quiet = x) : s'.steps = x.steps := by
  rw [← h]
  rfl

theorem Transition.changes_of_admitting (stream : Stream)
    (h : Transition w (o.numbered t n (.admitting o.registry.nextId rest link)) s'.quiet)
    (ho : o.clock ≤ t) :
    (s'.quiet = o.numbered s'.clock s'.steps (.creating o.registry.nextId rest link) ∧
      o.RoomFound s'.clock) ∨
    Effect.rejected.Changes w stream link o s' := by
  rcases h.of_admitting rfl with ⟨hc, hs⟩ | ⟨e, hc, hs⟩
  · obtain rfl : s'.clock = t := clock_of_quiet hs
    obtain rfl : s'.steps = n := steps_of_quiet hs
    exact .inl ⟨hs, _, ho, Nat.le_refl _, hc⟩
  · obtain rfl : s'.clock = t := clock_of_quiet hs
    obtain rfl : s'.steps = n := steps_of_quiet hs
    exact .inr ⟨e, o.record.jobs, hs, .inl ⟨hc, rfl⟩⟩

theorem Transition.changes_of_creating {stream : Stream}
    (h : Transition w (o.numbered t n (.creating o.registry.nextId rest link)) s'.quiet)
    (hroom : o.RoomFound t) (hrest : incoming rest.arrivals = (incoming stream.arrivals).drop 4) :
    (∃ course, w.worker.create o.registry.nextId rest s'.clock =
        .ok course ∧ o.RoomFound s'.clock ∧
      s'.quiet =
        { o.numbered s'.clock s'.steps
            (.tracking (.start o.registry.nextId s'.clock course.ending) link) with
          record := { o.quiet.record with
            jobs := o.record.jobs ++ [⟨o.registry.nextId, s'.clock, some course⟩]
            started := o.record.started ++
              [.start o.registry.nextId s'.clock course.ending] } }) ∨
    Effect.rejected.Changes w stream link o s' := by
  rcases h.of_creating rfl with ⟨course, hc, hs⟩ | ⟨e, hc, hs⟩
  · obtain rfl : s'.clock = t := clock_of_quiet hs
    obtain rfl : s'.steps = n := steps_of_quiet hs
    exact .inl ⟨course, hc, hroom, hs⟩
  · obtain rfl : s'.clock = t := clock_of_quiet hs
    obtain rfl : s'.steps = n := steps_of_quiet hs
    exact .inr ⟨e, _, hs, .inr ⟨hroom, ⟨rest, hrest, hc⟩, rfl⟩⟩

theorem Transition.changes_of_tracking {stream : Stream} {course : Worker.Course} {began : Instant}
    (h : Transition w
      { o.numbered t n (.tracking (.start o.registry.nextId began course.ending) link) with
        record := { o.quiet.record with
          jobs := o.record.jobs ++ [⟨o.registry.nextId, began, some course⟩]
          started := o.record.started ++ [.start o.registry.nextId began course.ending] } } s'.quiet)
    (hfree : o.registry.nextId ∉ o.registry.ids) (hroom : o.RoomFound began) (hbegan : began ≤ t)
    (hrest : incoming rest.arrivals = (incoming stream.arrivals).drop 4)
    (hc : w.worker.create o.registry.nextId rest began = .ok course) :
    Effect.started.Changes w stream link o s' := by
  have hs := h.of_tracking rfl hfree
  obtain rfl : s'.clock = t := clock_of_quiet hs
  obtain rfl : s'.steps = n := steps_of_quiet hs
  have hsize : s'.registry.size = (o.registry.sweep s'.clock).registry.size + 1 := by
    rw [show s'.registry = s'.quiet.registry from rfl, hs]
    exact List.length_append
  have hall := o.registry.size_sweep_add s'.clock
  rw [Registry.length_gone_sweep] at hall
  refine ⟨began, course, rest, hroom, hbegan, hrest, hc, ?_, by omega⟩
  rw [hsize]
  exact hs

theorem step_from {x : Supervisor} (hf : s.phase.isFinal = false) (h : s.quiet = x) :
    Transition w { x with clock := (s.ready w).clock, steps := (s.ready w).steps }
      (s.step w).quiet := by
  rw [← h]
  exact step_transition hf

/-- From `s` on it takes so many steps at most to deal with the stream that `o` had opened, and it comes
to one of these effects. -/
def DealtWith (w : World) (stream : Stream) (link : Option Link) (o : Supervisor)
    (among : List Effect) (m : Nat) (s : Supervisor) : Prop :=
  ∃ k, k ≤ m ∧ (∀ j, j < k → (run w j s).phase.isHandling = true) ∧
    ∃ e ∈ among, e.Changes w stream link o (run w k s)

variable {among : List Effect} {m : Nat}

theorem DealtWith.now {e : Effect} (he : e ∈ among) (h : e.Changes w stream link o s) :
    DealtWith w stream link o among m s :=
  ⟨0, Nat.zero_le m, nofun, e, he, h⟩

theorem DealtWith.later (hs : s.phase.isHandling = true)
    (h : DealtWith w stream link o among m (s.step w)) :
    DealtWith w stream link o among (m + 1) s := by
  obtain ⟨k, hk, hhandling, hchanges⟩ := h
  refine ⟨k + 1, Nat.succ_le_succ hk, fun j hj => ?_, hchanges⟩
  cases j with
  | zero => exact hs
  | succ j => exact hhandling j (Nat.lt_of_succ_lt_succ hj)

theorem dealtWith_of_creating (hfree : o.registry.nextId ∉ o.registry.ids)
    (hrest : incoming rest.arrivals = (incoming stream.arrivals).drop 4)
    (h : s.quiet = o.numbered s.clock s.steps (.creating o.registry.nextId rest link))
    (hroom : o.RoomFound s.clock) : DealtWith w stream link o [.rejected, .started] 2 s := by
  have hp : s.phase = .creating o.registry.nextId rest link := congrArg (·.phase) h
  refine .later (by rw [hp]; rfl) ?_
  have hmove := step_from (w := w) (by rw [hp]; rfl) h
  rcases Transition.changes_of_creating hmove (hroom.mono (ready_clock_le w s)) hrest with
    ⟨course, hc, hroom, hs⟩ | hchanges
  · have hp' : (s.step w).phase =
        .tracking (.start o.registry.nextId (s.step w).clock course.ending) link :=
      congrArg (·.phase) hs
    refine .later (by rw [hp']; rfl) (.now (by simp : Effect.started ∈ _) ?_)
    exact (step_from (by rw [hp']; rfl) hs).changes_of_tracking hfree hroom (ready_clock_le w _)
      hrest hc
  · exact .now (by simp) hchanges

theorem dealtWith_of_admitting (hfree : o.registry.nextId ∉ o.registry.ids)
    (hrest : incoming rest.arrivals = (incoming stream.arrivals).drop 4)
    (h : s.quiet = o.numbered s.clock s.steps (.admitting o.registry.nextId rest link))
    (ho : o.clock ≤ s.clock) : DealtWith w stream link o [.rejected, .started] 3 s := by
  have hp : s.phase = .admitting o.registry.nextId rest link := congrArg (·.phase) h
  refine .later (by rw [hp]; rfl) ?_
  have hmove := step_from (w := w) (by rw [hp]; rfl) h
  have ho' := Nat.le_trans ho (ready_clock_le w s)
  rcases Transition.changes_of_admitting stream hmove ho' with ⟨hs, hroom⟩ | hchanges
  · exact dealtWith_of_creating hfree hrest hs hroom
  · exact .now (by simp) hchanges

/-- A stream that ends too early changes nothing. -/
theorem dealtWith_of_short (hp : s.phase = .greeting stream link)
    (hshort : (incoming stream.arrivals).length < 4) (hends : fate stream.arrivals ≠ none) :
    DealtWith w stream link s [.dismissed] (m + 1) s := by
  refine .later (by rw [hp]; rfl) (.now (by simp : Effect.dismissed ∈ _) ?_)
  have hmove := step_from (w := w) (by rw [hp]; rfl) (rfl : s.quiet = s.quiet)
  rcases Greeting.read_of_short hshort (s.ready w).clock with ⟨hopen, -⟩ | ⟨-, t, e, hread⟩
  · exact absurd hopen hends
  · rcases hmove.of_greeting hp with ⟨u, flags, rest, hread', -⟩ | ⟨u, e', hread', hs⟩ | ⟨hread', -⟩
    · cases hread.symm.trans hread'
    · obtain rfl : (s.step w).clock = u := clock_of_quiet hs
      exact hs.trans (by rw [goneOn, steps_of_quiet hs]; rfl)
    · cases hread.symm.trans hread'

/-- A stream with a whole word asks the server to exit, or is up for a session. -/
theorem dealtWith_of_word {word : Word} {payload : List UInt8} (hp : s.phase = .greeting stream link)
    (hfree : s.registry.nextId ∉ s.registry.ids)
    (hword : Word.take? (incoming stream.arrivals) = some (word, payload)) :
    DealtWith w stream link s (if word &&& 1 = 1 then [.exitAsked] else [.rejected, .started]) 4 s := by
  refine .later (by rw [hp]; rfl) ?_
  have hmove := step_from (w := w) (by rw [hp]; rfl) (rfl : s.quiet = s.quiet)
  obtain ⟨t, rest, hread, hpayload⟩ := Greeting.read_of_word hword (s.ready w).clock
  rw [Word.eq_drop_of_take? hword] at hpayload
  rcases hmove.of_greeting hp with ⟨u, flags, rest', hread', hs⟩ | ⟨u, e, hread', -⟩ | ⟨hread', -⟩
  · cases hread.symm.trans hread'
    have hflag := Flags.requestsExit_iff ⟨word⟩
    by_cases hbit : word &&& 1 = 1
    · rw [if_pos (hflag.2 hbit)] at hs
      obtain rfl : (s.step w).clock = t := clock_of_quiet hs
      rw [if_pos hbit]
      exact .now (by simp : Effect.exitAsked ∈ _) (hs.trans (by rw [goneOn, steps_of_quiet hs]; rfl))
    · rw [if_neg fun h => hbit (hflag.1 h)] at hs
      obtain rfl : (s.step w).clock = t := clock_of_quiet hs
      rw [if_neg hbit]
      exact dealtWith_of_admitting hfree hpayload
        (hs.trans (by rw [numbered, goneOn, steps_of_quiet hs]; rfl)) (step_clock_le w s)
  · cases hread.symm.trans hread'
  · cases hread.symm.trans hread'

end Chain

/-- A stream whose flags never come is waited for, with nothing changed. -/
theorem step_of_unending (hp : s.phase = .greeting stream link)
    (hshort : (incoming stream.arrivals).length < 4) (hopen : fate stream.arrivals = none) :
    ∃ streams, (s.step w).quiet = s.goneOn (s.step w).clock (s.step w).steps (.stuck streams) := by
  have hmove := step_from (w := w) (by rw [hp]; rfl) (rfl : s.quiet = s.quiet)
  rcases Greeting.read_of_short hshort (s.ready w).clock with ⟨-, hread⟩ | ⟨hends, -⟩
  · rcases hmove.of_greeting hp with ⟨u, flags, rest, hread', -⟩ | ⟨u, e', hread', -⟩ | ⟨-, streams, hs⟩
    · cases hread.symm.trans hread'
    · cases hread.symm.trans hread'
    · exact ⟨streams, hs.trans (by rw [goneOn, clock_of_quiet hs, steps_of_quiet hs])⟩
  · exact absurd hopen hends

theorem Effect.Changes.not_handling {e : Effect} (h : e.Changes w stream link s s') :
    s'.phase.isHandling = false := by
  have hphase : s'.phase = s'.quiet.phase := rfl
  rw [hphase]
  cases e with
  | dismissed =>
    rw [show s'.quiet = _ from h]
    exact s.afterStream_isHandling link
  | exitAsked =>
    rw [show s'.quiet = _ from h]
    rfl
  | rejected =>
    obtain ⟨e, jobs, hs, -⟩ := h
    rw [hs]
    exact s.afterStream_isHandling link
  | started =>
    obtain ⟨began, course, rest, -, -, -, -, hs, -⟩ := h
    rw [hs]
    exact s.afterStream_isHandling link

/-- As long as numbers last, the next one is free. -/
theorem Accounted.next_free {used : Nat} (h : Accounted used s) (hfew : used + 1 < 2 ^ 64) :
    s.registry.nextId ∉ s.registry.ids := by
  intro hmem
  obtain ⟨e, he, hid⟩ := List.mem_map.1 hmem
  have hplace : e.2 ∈ s.sessions := by
    simp only [sessions, List.mem_append]
    exact .inl (.inl (.inr (List.mem_map_of_mem he)))
  have hbelow : e.2.id.number.toNat ≤ used :=
    h.below e.2.asStarted (h.places.mem_iff.2 (List.mem_map_of_mem hplace))
  have hnext : s.registry.nextId.number.toNat = used + 1 := by
    rw [h.next, UInt64.toNat_ofNat_of_lt' hfew]
  rw [← h.own e he, hid] at hbelow
  omega

/-- **A data stream has one effect of four.** A stream that stays open with less than four bytes is waited
for, and nothing changes. Any other is dealt with in at most four steps, and all that has changed then is
one of the effects: it is dismissed, exactly if it ends before its fourth byte; it asks the server to
exit, exactly if the lowest bit of its first word is set; or else it is rejected or becomes a session.
The next number is free then, as it is in every run until numbers start again. -/
theorem stream_has_one_effect :
    (∀ (w : World) (s : Supervisor) (stream : Stream) (link : Option Link),
      s.phase = .greeting stream link → s.registry.nextId ∉ s.registry.ids →
      let short := (incoming stream.arrivals).length < 4
      (short ∧ fate stream.arrivals = none ∧
        ∃ streams, (s.step w).quiet = s.goneOn (s.step w).clock (s.step w).steps (.stuck streams)) ∨
      ∃ k, k ≤ 4 ∧ (∀ j, j < k → (run w j s).phase.isHandling = true) ∧
        (run w k s).phase.isHandling = false ∧
        ∃ e : Effect, e.Changes w stream link s (run w k s) ∧
          (∀ e' : Effect, e'.Changes w stream link s (run w k s) → e' = e) ∧
          (e = .dismissed ↔ short) ∧
          (e = .exitAsked ↔ ∃ word payload,
            Word.take? (incoming stream.arrivals) = some (word, payload) ∧ word &&& 1 = 1)) ∧
    ∀ (w : World) (dials accepts : Openings) (mailbox : Option Mailbox) (n : Nat),
      dataStreams w (start w dials accepts mailbox) (n + 1) < 2 ^ 64 →
      let s := run w n (start w dials accepts mailbox)
      s.phase.isGreeting = true → s.registry.nextId ∉ s.registry.ids := by
  refine ⟨fun w s stream link hp hfree => ?_, fun w dials accepts mailbox n hfew => ?_⟩
  · intro short
    -- The effect that a stream is bound to have is the only one that the events can tell.
    have exactly : ∀ {among : List Effect} (P : Effect → Prop), (∀ e ∈ among, P e) →
        DealtWith w stream link s among 4 s → ∃ k, k ≤ 4 ∧
          (∀ j, j < k → (run w j s).phase.isHandling = true) ∧
          (run w k s).phase.isHandling = false ∧
          ∃ e : Effect, e.Changes w stream link s (run w k s) ∧
            (∀ e' : Effect, e'.Changes w stream link s (run w k s) → e' = e) ∧ P e := by
      rintro among P hP ⟨k, hk, hhandling, e, he, hchanges⟩
      exact ⟨k, hk, hhandling, hchanges.not_handling, e, hchanges,
        fun e' h' => h'.eq_ofNews.trans hchanges.eq_ofNews.symm, hP e he⟩
    cases hword : Word.take? (incoming stream.arrivals) with
    | none =>
      have hshort : short := Word.take?_eq_none_iff.1 hword
      by_cases hopen : fate stream.arrivals = none
      · exact .inl ⟨hshort, hopen, step_of_unending hp hshort hopen⟩
      · refine .inr (exactly _ (fun e he => ?_) (dealtWith_of_short hp hshort hopen))
        simp [List.mem_singleton.1 he, hshort]
    | some found =>
      obtain ⟨word, payload⟩ := found
      have hlong : ¬short := fun hshort => by
        rw [Word.take?_eq_none_iff.2 hshort] at hword
        cases hword
      refine .inr (exactly _ (fun e he => ?_) (dealtWith_of_word hp hfree hword))
      by_cases hbit : word &&& 1 = 1
      · rw [if_pos hbit] at he
        simp [List.mem_singleton.1 he, hlong, hbit]
      · rw [if_neg hbit] at he
        rcases List.mem_pair.1 he with rfl | rfl <;> simp [hlong, hbit]
  · intro s hgreeting
    rw [dataStreams_succ, if_pos hgreeting] at hfew
    obtain ⟨used, hused, h⟩ := (Accounted.start w dials accepts mailbox).run (w := w) n (by omega)
    exact h.next_free (by omega)

/-- The last of three callers, when it has been accepted. -/
def lastCaller : Stream where
  serial := 2
  peer := "accept"
  opened := 3
  arrivals := [⟨3, .bytes Flags.exit.encode⟩]
  outlet := ⟨[], []⟩
  closeFault := none

/-- The last caller asks the server to exit, with one session tracked. -/
theorem stream_has_one_effect_threeCallers :
    (run shortAndLong 11 threeCallers).phase = .greeting lastCaller none ∧
    (run shortAndLong 11 threeCallers).registry.nextId ∉
      (run shortAndLong 11 threeCallers).registry.ids ∧
    (run shortAndLong 11 threeCallers).registry.size = 1 ∧
    ∃ k, k ≤ 4 ∧ Effect.exitAsked.Changes shortAndLong lastCaller none
      (run shortAndLong 11 threeCallers) (run shortAndLong k (run shortAndLong 11 threeCallers)) := by
  have opened : (run shortAndLong 11 threeCallers).phase = .greeting lastCaller none := by
    decide +kernel
  have few : dataStreams shortAndLong threeCallers (11 + 1) < 2 ^ 64 :=
    Nat.lt_of_le_of_lt (dataStreams_le ..) (by decide)
  have free := stream_has_one_effect.2 shortAndLong _ _ _ 11 few (by
    show (run shortAndLong 11 threeCallers).phase.isGreeting = true
    rw [opened]
    rfl)
  have asked : Word.take? (incoming lastCaller.arrivals) = some (1, []) := by decide +kernel
  refine ⟨opened, free, by decide +kernel, ?_⟩
  rcases stream_has_one_effect.1 shortAndLong _ _ _ opened free with
    ⟨hshort, -⟩ | ⟨k, hk, -, -, e, he, -, -, hexit⟩
  · rw [Word.take?_eq_none_iff.2 hshort] at asked
    cases asked
  · cases hexit.2 ⟨1, [], asked, by decide⟩
    exact ⟨k, hk, he⟩

end Supervisor

end StreamServer
