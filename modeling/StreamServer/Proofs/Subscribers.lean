/-
A subscriber changes nothing for the server it watches. The same run without
it has the same dials, streams, sessions, bytes and times, and ends the same
way; only the log may remark that an event went into no mailbox. The subscriber
itself gets the events in the order they are told. One is left out only where
as many as the mailbox holds were waiting to be read when it came.
-/
import Mathlib
import StreamServer.Proofs.Lockstep

namespace StreamServer.Supervisor

/-! ## Mailboxes -/

/-- The events a subscriber takes out, if there are as many. -/
def Move.count : Move → Nat
  | .read count | .leave count => count

namespace Mailbox

variable {m : Mailbox} {habit : Nat → Move} {events : List (Instant × Event)}

/-- Offers events one after another. -/
def offer (m : Mailbox) (events : List (Instant × Event)) : Mailbox :=
  events.foldl (fun m e => (m.post e.1 e.2).2) m

theorem offer_cons (m : Mailbox) (e : Instant × Event) (events : List (Instant × Event)) :
    m.offer (e :: events) = (m.post e.1 e.2).2.offer events := rfl

theorem offer_append (m : Mailbox) (events more : List (Instant × Event)) :
    m.offer (events ++ more) = (m.offer events).offer more :=
  List.foldl_append

theorem offer_concat (m : Mailbox) (events : List (Instant × Event)) (e : Instant × Event) :
    m.offer (events ++ [e]) = ((m.offer events).post e.1 e.2).2 := by
  rw [offer_append, offer_cons, offer, List.foldl_nil]

/-- How many events wait for a subscriber that stays, when so many have been told. -/
def waiting (habit : Nat → Move) : Nat → Nat
  | 0 => 0
  | n + 1 => min (waiting habit n - (habit n).count + 1) capacity

/-- How many of the events before it are still unread when the event with this number comes. -/
def unread (habit : Nat → Move) (n : Nat) : Nat := waiting habit n - (habit n).count

theorem unread_le (habit : Nat → Move) (n : Nat) : unread habit n ≤ capacity := by
  rw [unread]
  cases n with
  | zero => simp [waiting]
  | succ n =>
    rw [waiting]
    omega

/-- The events that find room in the mailbox when they come. -/
def roomFor (habit : Nat → Move) (events : List (Instant × Event)) : List (Instant × Event) :=
  (events.zipIdx.filter fun x => unread habit x.2 < capacity).map (·.1)

theorem roomFor_concat (habit : Nat → Move) (events : List (Instant × Event))
    (e : Instant × Event) :
    roomFor habit (events ++ [e]) = roomFor habit events ++
      if unread habit events.length < capacity then [e] else [] := by
  rw [roomFor, List.zipIdx_append, List.filter_append, List.map_append, ← roomFor]
  congr 1
  rw [List.zipIdx_singleton, Nat.zero_add, List.filter_cons]
  split <;> simp_all

/-- The subscriber is still there when so many events have been told. -/
def Stays (habit : Nat → Move) (n : Nat) : Prop := ∀ k < n, habit k = .read (habit k).count

instance (habit : Nat → Move) (n : Nat) : Decidable (Stays habit n) :=
  inferInstanceAs (Decidable (∀ k < n, habit k = .read (habit k).count))

/-- What is in the mailbox of a subscriber that is still there when these events have been told. -/
structure Keeps (habit : Nat → Move) (events : List (Instant × Event)) (m : Mailbox) : Prop where
  ways : m.habit = habit
  offered : m.offered = events.length
  attended : m.attended = true
  all : m.taken ++ m.held = roomFor habit events
  length_held : m.held.length = waiting habit events.length

namespace Keeps

variable {count : Nat}

theorem ready_of_read (h : Keeps habit events m) (hread : habit events.length = .read count) :
    m.ready = { m with held := m.held.drop count, taken := m.taken ++ m.held.take count } := by
  rw [ready, if_pos h.attended, moved, h.ways, h.offered, hread]

theorem length_drop (h : Keeps habit events m) (hcount : (habit events.length).count = count) :
    (m.held.drop count).length = unread habit events.length := by
  rw [List.length_drop, h.length_held, unread, hcount]

/-- An event that comes goes into the mailbox if there is room. -/
theorem post (h : Keeps habit events m) (hread : habit events.length = .read count)
    (e : Instant × Event) : Keeps habit (events ++ [e]) (m.post e.1 e.2).2 := by
  have hunread : (m.held.drop count).length = unread habit events.length :=
    h.length_drop (by rw [hread, Move.count])
  have hsplit : m.taken ++ m.held.take count ++ m.held.drop count = roomFor habit events := by
    rw [List.append_assoc, List.take_append_drop, h.all]
  have hoffered : m.offered + 1 = (events ++ [e]).length := by simp [h.offered]
  have hwaiting : waiting habit (events ++ [e]).length =
      min (unread habit events.length + 1) capacity := by
    rw [List.length_append, List.length_singleton, waiting, unread]
  have hle := unread_le habit events.length
  rw [Mailbox.post, h.ready_of_read hread]
  dsimp only
  split
  · rename_i hput
    refine ⟨h.ways, hoffered, h.attended, ?_, ?_⟩
    · rw [roomFor_concat, if_pos (hunread ▸ hput.2), ← List.append_assoc, hsplit]
    · rw [List.length_append, hunread, List.length_singleton, hwaiting]
      omega
  · rename_i hout
    have hfull : ¬ unread habit events.length < capacity :=
      fun hlt => hout ⟨h.attended, hunread ▸ hlt⟩
    refine ⟨h.ways, hoffered, h.attended, ?_, ?_⟩
    · rw [roomFor_concat, if_neg hfull, List.append_nil, hsplit]
    · rw [hunread, hwaiting]
      omega

/-- A subscriber that goes has got all that found room but for what it leaves unread. -/
theorem ready_of_leave (h : Keeps habit events m) (hleave : habit events.length = .leave count) :
    m.ready.attended = false ∧
      m.ready.received = (roomFor habit events).rdrop (unread habit events.length) := by
  have hunread : (m.held.drop count).length = unread habit events.length :=
    h.length_drop (by rw [hleave, Move.count])
  have hready : m.ready = { m with
      attended := false, held := [], taken := m.taken ++ m.held.take count } := by
    rw [ready, if_pos h.attended, moved, h.ways, h.offered, hleave]
  rw [hready]
  refine ⟨rfl, ?_⟩
  rw [← hunread, ← h.all, ← List.take_append_drop count m.held, ← List.append_assoc,
    List.take_append_drop, List.rdrop_append_length]
  exact List.append_nil _

end Keeps

theorem keeps_offer (hstays : Stays habit events.length) :
    Keeps habit events (offer { habit } events) := by
  induction events using List.reverseRecOn with
  | nil => exact ⟨rfl, rfl, rfl, rfl, rfl⟩
  | append_singleton events e ih =>
    rw [List.length_append, List.length_singleton] at hstays
    rw [offer_concat]
    exact (ih fun k hk => hstays k (by omega)).post (hstays _ (by omega)) e

theorem post_of_gone (hgone : m.ready.attended = false) (e : Instant × Event) :
    (m.post e.1 e.2).2.attended = false ∧ (m.post e.1 e.2).2.received = m.ready.received := by
  simp [post, hgone, received]

/-- Nothing goes into a mailbox once its subscriber has gone. -/
theorem received_offer_of_gone (hgone : m.attended = false) (events : List (Instant × Event)) :
    (m.offer events).received = m.received := by
  induction events generalizing m with
  | nil => rfl
  | cons e events ih =>
    have hready : m.ready = m := by simp [ready, hgone]
    obtain ⟨hstill, hsame⟩ := post_of_gone (m := m) (by rw [hready, hgone]) e
    rw [offer_cons, ih hstill, hsame, hready]

theorem received_of_leave {k count : Nat} (hk : k < events.length) (hstays : Stays habit k)
    (hleave : habit k = .leave count) :
    (offer { habit } events).received =
      (roomFor habit (events.take k)).rdrop (unread habit k) := by
  have hlen : (events.take k).length = k := List.length_take_of_le hk.le
  have hkeeps : Keeps habit (events.take k) (offer { habit } (events.take k)) :=
    keeps_offer (hlen.symm ▸ hstays)
  obtain ⟨hgone, hreceived⟩ := hkeeps.ready_of_leave (hlen.symm ▸ hleave)
  rw [hlen] at hreceived
  obtain ⟨hstill, hsame⟩ := post_of_gone hgone events[k]
  calc (offer { habit } events).received
    _ = (offer { habit } (events.take k ++ events[k] :: events.drop (k + 1))).received := by
      rw [← List.drop_eq_getElem_cons hk, List.take_append_drop]
    _ = (offer { habit } (events.take k)).ready.received := by
      rw [offer_append, offer_cons, received_offer_of_gone hstill, hsame]
    _ = (roomFor habit (events.take k)).rdrop (unread habit k) := hreceived

/-- Without reading, the first events stay in the mailbox and no other gets in. -/
theorem offer_of_unread (hhabit : ∀ k, habit k = .read 0) (events : List (Instant × Event)) :
    (offer { habit } events).taken = [] ∧ (offer { habit } events).held = events.take capacity := by
  induction events using List.reverseRecOn with
  | nil => simp [offer]
  | append_singleton events e ih =>
    have hkeeps : Keeps habit events (offer { habit } events) :=
      keeps_offer fun k _ => by rw [hhabit, Move.count]
    have hready := hkeeps.ready_of_read (hhabit _)
    rw [offer_concat]
    generalize offer { habit } events = m at ih hkeeps hready
    obtain ⟨htaken, hheld⟩ := ih
    have hput : m.attended = true ∧ m.held.length < capacity ↔ events.length < capacity := by
      rw [hkeeps.attended, hheld, List.length_take, eq_self, true_and]
      omega
    rw [post, hready, List.take_zero, List.append_nil, List.drop_zero]
    dsimp only
    by_cases hlt : events.length < capacity
    · rw [if_pos (hput.2 hlt)]
      refine ⟨htaken, ?_⟩
      dsimp only
      rw [hheld, List.take_of_length_le hlt.le, List.take_of_length_le (by simp; omega)]
    · rw [if_neg (mt hput.1 hlt)]
      refine ⟨htaken, ?_⟩
      dsimp only
      rw [hheld, List.take_append_of_le_length (Nat.le_of_not_lt hlt)]

end Mailbox

/-! ## With and without a subscriber -/

variable {m : Mailbox} {s t : Supervisor} {w : World}

/-- The server without its subscriber and what it said about events that went into no mailbox. -/
def unheard (s : Supervisor) : Supervisor :=
  { s with
    mailbox := none
    record := { s.record with log := s.record.log.filter fun e => e ≠ lostEntry e.time } }

/-- `s` is the server `t`, but that a subscriber watches it, whose mailbox was `m` at first. -/
structure Watched (m : Mailbox) (t s : Supervisor) : Prop where
  same : s.unheard = t.unheard
  alone : t.mailbox = none
  mailbox : s.mailbox = some (m.offer s.record.events)

namespace Watched

theorem clock (h : Watched m t s) : s.clock = t.clock := (congrArg (·.clock) h.same :)

theorem phase (h : Watched m t s) : s.phase = t.phase := (congrArg (·.phase) h.same :)

theorem dials (h : Watched m t s) : s.dials = t.dials := (congrArg (·.dials) h.same :)

theorem events (h : Watched m t s) : s.record.events = t.record.events :=
  (congrArg (·.record.events) h.same :)

/-- What is done to both leaves them so, if it has nothing to do with the subscriber. -/
theorem of_unheard {f : Supervisor → Supervisor} (h : Watched m t s)
    (hf : ∀ x, (f x).unheard = f x.unheard) (hm : ∀ x, (f x).mailbox = x.mailbox)
    (he : ∀ x, (f x).record.events = x.record.events) : Watched m (f t) (f s) where
  same := by rw [hf, hf, h.same]
  alone := by rw [hm, h.alone]
  mailbox := by rw [hm, he, h.mailbox]

theorem map {f : Supervisor → Supervisor} (h : Watched m t s) (hf : Blind f) :
    Watched m (f t) (f s) := by
  refine h.of_unheard (fun x => ?_) (fun x => (congrArg (·.mailbox) (hf.recast_self x) :)) hf.events
  calc (f x).unheard
    _ = ((f x).recast x.steps x.phase x.dials x.mailbox x.record.log).unheard :=
      congrArg unheard (hf.recast_self x)
    _ = f x.unheard := (hf.recast x x.steps x.phase x.dials none _).symm

theorem unheard_say (s : Supervisor) (log : Log) :
    (s.say log).unheard = (s.unheard.say log).unheard := by
  simp [unheard, Supervisor.say]

theorem say (h : Watched m t s) (log : Log) : Watched m (t.say log) (s.say log) where
  same := by rw [unheard_say, h.same, ← unheard_say]
  alone := h.alone
  mailbox := h.mailbox

end Watched

/-- An event is noted, and the log remarks on it only if it went into no mailbox. -/
theorem unheard_emit (s : Supervisor) (e : Event) :
    (s.emit e).unheard = { s.unheard with
      record := { s.unheard.record with events := s.record.events ++ [(s.clock, e)] } } := by
  unfold emit
  dsimp only
  split
  · rfl
  · split
    · rfl
    · simp [unheard, say, lostEntry, Log.trace]

theorem mailbox_emit (h : s.mailbox = some m) (e : Event) :
    (s.emit e).mailbox = some (m.post s.clock e).2 := by
  unfold emit
  simp only [h]
  split
  · rename_i hpost
    rw [hpost]
  · rename_i hpost
    rw [hpost]
    rfl

theorem events_emit (s : Supervisor) (e : Event) :
    (s.emit e).record.events = s.record.events ++ [(s.clock, e)] :=
  (congrArg (·.record.events) (quiet_emit s e) :)

namespace Watched

theorem emit (h : Watched m t s) (e : Event) : Watched m (t.emit e) (s.emit e) where
  same := by rw [unheard_emit, unheard_emit, h.same, h.events, h.clock]
  alone := by
    unfold Supervisor.emit
    simp only [h.alone]
  mailbox := by rw [mailbox_emit h.mailbox, events_emit, Mailbox.offer_concat]

end Watched

/-- Nothing but the same stands for a connection or a stream. -/
def identity : Kinship where
  link _ := Eq
  stream := Eq
  mono h _ := h
  dataPort h := congrArg _ h.symm
  closeLog h := congrArg _ h.symm
  held h := congrArg _ h
  refl _ := rfl
  transcript h := congrArg _ h.symm

theorem sameLink_identity_iff {u : Instant} {link link' : Option Link} :
    SameLink identity u link link' ↔ link = link' := by
  constructor
  · intro h
    cases h with
    | none => rfl
    | some h => exact congrArg some h
  · rintro rfl
    cases link with
    | none => exact .none
    | some l => exact .some rfl

theorem Phase.alikeBy_identity_iff {p p' : Phase} {u : Instant} :
    p.AlikeBy identity u p' ↔ p = p' := by
  constructor
  · intro h
    cases h with
    | serving hl | fetching hl => exact congrArg _ hl
    | greeting hl | admitting hl | creating hl | tracking hl =>
      exact congrArg _ (sameLink_identity_iff.1 hl)
    | stuck hs => exact congrArg _ (List.forall₂_eq_eq_eq ▸ hs)
    | accepting | dialling | pausing | draining | ended => rfl
  · rintro rfl
    cases p with
    | accepting => exact .accepting
    | dialling => exact .dialling
    | serving => exact .serving rfl
    | fetching => exact .fetching rfl
    | greeting => exact .greeting (sameLink_identity_iff.2 rfl)
    | admitting => exact .admitting (sameLink_identity_iff.2 rfl)
    | creating => exact .creating (sameLink_identity_iff.2 rfl)
    | tracking => exact .tracking (sameLink_identity_iff.2 rfl)
    | pausing => exact .pausing
    | draining => exact .draining
    | ended => exact .ended
    | stuck streams => exact .stuck (List.forall₂_same.2 fun _ _ => rfl)

theorem tried_identity (a : Control.Attempt) : identity.Tried a a := by
  cases a with
  | dialled opened h =>
    cases h with
    | linked => exact .linked rfl
    | failed => exact .unanswered rfl
    | never => exact .hung rfl
  | failed => exact .failed
  | never => exact .never

namespace Watched

theorem lockstep (m : Mailbox) : Lockstep identity (Watched m) where
  clock h := h.clock
  registry h := (congrArg (·.registry) h.same :)
  exiting h := (congrArg (·.exiting) h.same :)
  retry h := (congrArg (·.retry) h.same :)
  accepts h := (congrArg (·.accepts) h.same :)
  opened h := (congrArg (·.record.opened) h.same :)
  map h hf := h.map hf
  say h log := h.say log
  emit h e := h.emit e
  become {s s' u p p'} h hp := by
    rw [Phase.alikeBy_identity_iff.1 hp]
    exact h.of_unheard (f := (·.become p')) (fun _ => rfl) (fun _ => rfl) fun _ => rfl
  takeDial {s s'} h := by
    rw [h.dials]
    exact h.of_unheard (f := fun x => { x with dials := s.dials.take.2 }) (fun _ => rfl) (fun _ => rfl)
      fun _ => rfl

theorem act (h : Watched m t s) : Watched m (t.act w) (s.act w) := by
  have hphase := Phase.alikeBy_identity_iff (u := t.clock).2 h.phase.symm
  refine ((lockstep m).act ⟨h, hphase⟩ (fun l l' hl hl' => ?_) (fun _ => ?_) fun _ _ => ?_).alike
  · cases hl.symm.trans (h.phase.symm.trans hl')
    exact ⟨rfl, rfl, rfl, fun _ _ _ => rfl⟩
  · rw [h.dials]
    exact tried_identity _
  · rw [h.dials]

theorem step (h : Watched m t s) : Watched m (t.step w) (s.step w) := by
  have hready : Watched m (t.ready w) (s.ready w) := h.of_unheard (f := (·.ready w)) (fun _ => rfl)
    (fun _ => rfl) fun _ => rfl
  cases hf : t.phase.isFinal with
  | true => rwa [step_of_final hf, step_of_final (by rw [h.phase, hf])]
  | false =>
    rw [step_of_not_final hf, step_of_not_final (by rw [h.phase, hf])]
    exact hready.act

theorem run (h : Watched m t s) (n : Nat) : Watched m (run w n t) (run w n s) := by
  induction n generalizing t s with
  | zero => exact h
  | succ n ih => exact ih h.step

theorem start (w : World) (dials accepts : Openings) (m : Mailbox) :
    Watched m (start w dials accepts none) (start w dials accepts (some m)) :=
  ⟨rfl, rfl, rfl⟩

end Watched

theorem Watched.transcripts (h : Watched m t s) : s.transcripts = t.transcripts := by
  have hretired : s.record.transcripts = t.record.transcripts :=
    (congrArg (·.record.transcripts) h.same :)
  rw [Supervisor.transcripts, hretired, h.phase, Supervisor.transcripts]

/-- **A subscriber changes nothing.** Whatever it does, after any number of steps the server is where it
would be without it, in everything but its mailbox and the remarks on events that went into none. The
subscriber gets the events that were told, in order; one is left out only if the mailbox was full of
unread events when it came. One that goes has got those before but for the last, which it leaves unread.
One that never reads has the first 256. -/
theorem subscriber_changes_nothing (w : World) (dials accepts : Openings) (habit : Nat → Move)
    (n : Nat) :
    let alone := run w n (start w dials accepts none)
    let watched := run w n (start w dials accepts (some { habit }))
    let told := alone.record.events
    watched.unheard = alone.unheard ∧ watched.transcripts = alone.transcripts ∧
      watched.exit? = alone.exit? ∧
      ∃ m, watched.mailbox = some m ∧
        (Mailbox.Stays habit told.length → m.received = Mailbox.roomFor habit told ∧
          m.held.length = Mailbox.waiting habit told.length) ∧
        (∀ k count, k < told.length → Mailbox.Stays habit k → habit k = .leave count →
          m.received =
            (Mailbox.roomFor habit (told.take k)).rdrop (Mailbox.unread habit k)) ∧
        ((∀ k, habit k = .read 0) → m.taken = [] ∧ m.held = told.take 256) := by
  intro alone watched told
  have h : Watched { habit } alone watched := (Watched.start w dials accepts { habit }).run n
  refine ⟨h.same, h.transcripts, ?_, _, h.mailbox, ?_⟩
  · rw [exit?, h.phase, exit?]
  rw [h.events]
  refine ⟨fun hstays => ?_, fun k count hk hstays hleave => ?_, fun hhabit => ?_⟩
  · have hkeeps := Mailbox.keeps_offer hstays
    exact ⟨hkeeps.all, hkeeps.length_held⟩
  · exact Mailbox.received_of_leave hk hstays hleave
  · exact Mailbox.offer_of_unread hhabit told

/-- A server that dials a peer again and again. -/
def restless : World where
  config := { mode := .tcpReverse, remoteHost := some "peer", retryDelay := .ofMillis 1 }
  worker := .ofPlans []

/-- The peer is not there. -/
def refusing : Openings := ⟨[], .fails 0 "refused"⟩

theorem told_restless :
    (run restless 516 (start restless refusing refusing none)).record.events.length = 258 := by
  decide +kernel

/-- Reads the first event, and goes when two more have come. -/
def curious (k : Nat) : Move := if k = 3 then .leave 0 else .read (k % 2)

/-- Of the 258 events of a server that dials again and again, a subscriber that never reads has the
first 256, and a curious one just the first. -/
theorem subscriber_changes_nothing_restless :
    let watched habit := run restless 516 (start restless refusing refusing (some { habit }))
    (∃ m, (watched fun _ => .read 0).mailbox = some m ∧ m.taken = [] ∧ m.held.length = 256 ∧
        m.held.length = Mailbox.waiting (fun _ => .read 0) 258) ∧
      ∃ m, (watched curious).mailbox = some m ∧ m.received.length = 1 := by
  have htold := told_restless
  constructor
  · obtain ⟨-, -, -, m, hm, hstays, -, hunread⟩ :=
      subscriber_changes_nothing restless refusing refusing (fun _ => .read 0) 516
    obtain ⟨-, hwaiting⟩ := hstays fun _ _ => rfl
    obtain ⟨htaken, hheld⟩ := hunread fun _ => rfl
    rw [htold] at hwaiting
    refine ⟨m, hm, htaken, ?_, hwaiting⟩
    rw [hheld, List.length_take, htold]
    rfl
  · obtain ⟨-, -, -, m, hm, -, hleave, -⟩ :=
      subscriber_changes_nothing restless refusing refusing curious 516
    have hlong :
        3 < (run restless 516 (start restless refusing refusing none)).record.events.length := by
      rw [htold]
      decide
    have hreceived := hleave 3 0 hlong (by decide) rfl
    obtain ⟨e₀, e₁, e₂, hfirst⟩ := List.length_eq_three.1 (List.length_take_of_le hlong.le)
    have hunread : Mailbox.unread curious 3 = 2 := by decide
    have hroom : Mailbox.roomFor curious [e₀, e₁, e₂] = [e₀, e₁, e₂] := by
      simp +decide [Mailbox.roomFor]
    refine ⟨m, hm, ?_⟩
    rw [hreceived, hfirst, hroom, hunread]
    rfl

end StreamServer.Supervisor
