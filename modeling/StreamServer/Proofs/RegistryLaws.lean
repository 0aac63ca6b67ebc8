/-
What holds of a registry after any use of it: numbers handed out, sessions put
in under any numbers, also ones that are taken or were let go of, finished
sessions let go of, room looked for, all sessions waited for, in any order,
with jobs ending at any point in between.

All rests on the filing: each session stands under its own number, no number
stands twice, and the result of no session there was taken. So letting go of
finished sessions one number after another takes out just those that have
finished, and what was put in is what is tracked, what was let go of and what
was waited for.
-/
import Mathlib
import StreamServer.Proofs.RegistryFacts
import StreamServer.Registry.Keeper

namespace StreamServer.Registry

variable {r r' : Registry} {now t : Instant} {x : Session}

/-! ## The filing -/

/-- Every session stands under its own number, no number stands twice, and no result was taken. -/
structure Filed (r : Registry) : Prop where
  own : ∀ e ∈ r.entries, e.1 = e.2.id
  distinct : r.ids.Nodup
  unread : ∀ e ∈ r.entries, e.2.taken = 0

namespace Filed

theorem of_no_entries (h : r.entries = []) : Filed r where
  own := by simp [h]
  distinct := by simp [ids, h]
  unread := by simp [h]

/-- The next number and the cap have no part in the filing. -/
theorem of_entries_eq (h : Filed r) (he : r'.entries = r.entries) : Filed r' where
  own := he ▸ h.own
  distinct := by
    have hids : r'.ids = r.ids := by rw [ids, ids, he]
    exact hids ▸ h.distinct
  unread := he ▸ h.unread

theorem insert (h : Filed r) (hnew : x.taken = 0) (hi : r.insert x = .ok r') : Filed r' := by
  have hfree : x.id ∉ r.ids := by
    intro hmem
    simp [Registry.insert, contains, hmem] at hi
  obtain rfl := eq_of_insert_eq_ok hi
  refine ⟨fun e he => ?_, ?_, fun e he => ?_⟩
  · rcases List.mem_append.1 he with he | he
    · exact h.own e he
    · rw [List.mem_singleton.1 he]
  · simp only [ids, List.map_append, List.map_cons, List.map_nil]
    refine List.nodup_append.2 ⟨h.distinct, List.nodup_singleton _, fun a ha b hb hab => hfree ?_⟩
    rwa [← List.mem_singleton.1 hb, ← hab]
  · rcases List.mem_append.1 he with he | he
    · exact h.unread e he
    · rw [List.mem_singleton.1 he]
      exact hnew

theorem sweep (h : Filed r) (now : Instant) : Filed (r.sweep now).registry where
  own e he := h.own e (mem_entries_of_mem_sweep he)
  distinct := h.distinct.sublist (List.filter_sublist.map _)
  unread e he := h.unread e (mem_entries_of_mem_sweep he)

/-- A job that ends changes its session and not where that stands. -/
theorem endSession (h : Filed r) (id : SessionId) (t : Instant) (ending : Ending) :
    Filed (r.endSession id t ending) := by
  refine ⟨fun e he => ?_, ?_, fun e he => ?_⟩
  · obtain ⟨e', he', rfl⟩ := List.mem_map.1 he
    have hown := h.own e' he'
    by_cases hid : e'.1 = id
    · rw [if_pos hid]
      exact hown
    · rw [if_neg hid]
      exact hown
  · have hids : (r.endSession id t ending).ids = r.ids := by
      simp only [ids, Registry.endSession, List.map_map]
      refine List.map_congr_left fun e _ => ?_
      simp only [Function.comp_apply]
      split <;> rfl
    exact hids ▸ h.distinct
  · obtain ⟨e', he', rfl⟩ := List.mem_map.1 he
    have hunread := h.unread e' he'
    split <;> exact hunread

/-- Whatever stands under a number is all that stands there. -/
theorem eq_of_number_eq (h : Filed r) {e e' : SessionId × Session} (he : e ∈ r.entries)
    (he' : e' ∈ r.entries) (hid : e.1 = e'.1) : e = e' :=
  List.inj_on_of_nodup_map h.distinct he he' hid

end Filed

/-! ## Putting in -/

/-- A session whose number is taken is handed back. -/
theorem insert_of_tracked (h : x.id ∈ r.ids) : r.insert x = .error x := by
  simp [insert, contains, h]

/-! ## Letting go of finished sessions -/

/-- Takes out whatever stands under a number. -/
def remove (r : Registry) (id : SessionId) : Registry :=
  { r with entries := r.entries.filter fun e => e.1 ≠ id }

theorem foldl_remove (r : Registry) (ids : List SessionId) :
    ids.foldl remove r = { r with entries := r.entries.filter fun e => e.1 ∉ ids } := by
  induction ids generalizing r with
  | nil => simp
  | cons id ids ih =>
    rw [List.foldl_cons, ih]
    simp only [remove, List.filter_filter]
    congr 1
    refine List.filter_congr fun e _ => ?_
    simp only [List.mem_cons, not_or, ← Bool.decide_and, and_comm]

/-- A session has finished exactly when its number is among those of the finished ones. -/
theorem Filed.mem_numbers_iff (h : Filed r) {e : SessionId × Session} (he : e ∈ r.entries) :
    e.1 ∈ (r.finished now).map (·.1) ↔ e.2.finishedBy now = true := by
  constructor
  · intro hmem
    obtain ⟨e', he', hid⟩ := List.mem_map.1 hmem
    obtain ⟨hin, hfin⟩ := List.mem_filter.1 he'
    rwa [h.eq_of_number_eq he hin hid.symm]
  · intro hfin
    exact List.mem_map_of_mem (List.mem_filter.2 ⟨he, hfin⟩)

/-- Finished sessions can be let go of by their numbers, one after another. -/
theorem Filed.sweep_eq_foldl_remove (h : Filed r) (now : Instant) :
    (r.sweep now).registry = ((r.finished now).map (·.1)).foldl remove r := by
  rw [foldl_remove]
  simp only [Registry.sweep]
  congr 1
  refine List.filter_congr fun e he => ?_
  have hiff : e.1 ∈ (r.finished now).map (·.1) ↔ e.2.finishedBy now = true := h.mem_numbers_iff he
  cases hfin : e.2.finishedBy now <;> simp [hiff, hfin]

/-- The result of a session that is let go of was taken once. -/
theorem Filed.taken_of_mem_gone (h : Filed r) (hx : x ∈ (r.sweep now).gone) : x.taken = 1 := by
  rw [gone_sweep] at hx
  obtain ⟨e, he, rfl⟩ := List.mem_map.1 hx
  rw [Session.take, h.unread e (List.mem_filter.1 he).1]

/-- With nothing finished there is nothing to let go of. -/
theorem sweep_of_none_finished (h : r.finished now = []) : r.sweep now = ⟨r, [], []⟩ := by
  have hall : r.entries.filter (fun e => !e.2.finishedBy now) = r.entries := by
    refine List.filter_eq_self.2 fun e he => ?_
    have hrun := List.filter_eq_nil_iff.1 h e he
    simpa using hrun
  simp [Registry.sweep, h, hall]

/-- What was let go of had finished, so from then on as many run as before. -/
theorem running_sweep (r : Registry) {t : Instant} (h : now ≤ t) :
    (r.sweep now).registry.running t = r.running t := by
  simp only [Registry.sweep, running, List.countP_filter]
  refine List.countP_congr fun e _ => ?_
  cases hfin : e.2.finishedBy now with
  | false => simp
  | true => simp [Session.finishedBy_mono h hfin]

theorem checkCapacity_sweep (r : Registry) {t : Instant} (h : now ≤ t) :
    (r.sweep now).registry.checkCapacity t = r.checkCapacity t := by
  have hcap : (r.sweep now).registry.cap = r.cap := rfl
  rw [checkCapacity, checkCapacity, hcap, running_sweep r h]

theorem length_finished (r : Registry) (now : Instant) :
    (r.finished now).length = r.sessions.countP (·.finishedBy now) := by
  rw [sessions, List.countP_map]
  exact List.countP_eq_length_filter.symm

/-! ## Room -/

theorem checkCapacity_eq_error_iff {e : SessionError} :
    r.checkCapacity now = .error e ↔
      ∃ limit, r.cap = some limit ∧ limit.toNat ≤ r.running now ∧ e = .limitReached limit := by
  constructor
  · intro h
    cases hcap : r.cap with
    | none => simp [checkCapacity, hcap] at h
    | some limit =>
      obtain ⟨he, hle⟩ := le_of_checkCapacity_error hcap h
      exact ⟨limit, rfl, hle, he⟩
  · rintro ⟨limit, hcap, hle, rfl⟩
    rw [checkCapacity_of_cap hcap, if_pos hle]

/-! ## Waiting for all sessions -/

/-- Waiting for sessions one after another comes to an end if each of them does and none of the results
was taken before. -/
theorem joinAll_isSome_iff (now : Instant) (l : List Session) :
    (joinAll now l).time.isSome = true ↔ ∀ x ∈ l, x.ending.isSome = true ∧ x.collected = false := by
  induction l generalizing now with
  | nil => simp [joinAll]
  | cons x rest ih =>
    cases hc : x.collected <;> cases hx : x.ending <;> simp [joinAll, Session.joinedAt, hc, hx, ih]

theorem Filed.collected_eq_false (h : Filed r) (hx : x ∈ r.sessions) : x.collected = false := by
  obtain ⟨e, he, rfl⟩ := List.mem_map.1 hx
  simp [Session.collected, h.unread e he]

theorem Filed.joinAll_isSome_iff (h : Filed r) (now : Instant) :
    (joinAll now r.sessions).time.isSome = true ↔ ∀ x ∈ r.sessions, x.ending.isSome = true := by
  rw [Registry.joinAll_isSome_iff]
  exact forall₂_congr fun x hx => and_iff_left (h.collected_eq_false hx)

/-- Each session is waited for once. -/
theorem joinAll_endings {l : List Session} (h : (joinAll now l).time = some t) :
    (joinAll now l).endings.map (·.1) = l.map (·.id) := by
  induction l generalizing now with
  | nil => rfl
  | cons x rest ih =>
    cases hx : x.joinedAt now with
    | none => simp [joinAll, hx] at h
    | some e =>
      simp only [joinAll, hx] at h ⊢
      simp [ih h]

theorem length_endings_drain (h : (r.drain now).1.time = some t) :
    (r.drain now).1.endings.length = r.size := by
  have hids := congrArg List.length (joinAll_endings h)
  rw [List.length_map, List.length_map, sessions, List.length_map] at hids
  exact hids

/-! ## Any use of a registry -/

namespace Reply

/-- Sessions that were taken in. -/
def inserts : Reply → Nat
  | .inserted _ => 1
  | _ => 0

/-- Sessions that were let go of. -/
def reaps : Reply → Nat
  | .count n => n
  | _ => 0

/-- Sessions that were waited for. -/
def joins : Reply → Nat
  | .drained n _ => n
  | _ => 0

end Reply

namespace Keeper

/-- Does one thing after another; all that was learned, and what there is then. -/
def performAll (patience : Nat) (k : Keeper) : List Call → List Reply × Keeper
  | [] => ([], k)
  | call :: calls =>
    let done := k.perform patience call
    let rest := done.2.performAll patience calls
    (done.1 :: rest.1, rest.2)

variable {k : Keeper} {patience : Nat}

/-- A job that is told to end leaves its session where it stands. -/
theorem release_registry (h : Filed k.registry) (id : SessionId) (t : Instant) (status : Int) :
    Filed (k.release id t status).registry ∧
      (k.release id t status).registry.cap = k.registry.cap ∧
      (k.release id t status).registry.size = k.registry.size := by
  unfold release
  split
  · exact ⟨h.endSession .., rfl, List.length_map ..⟩
  · exact ⟨h, rfl, rfl⟩

theorem releases_registry (h : Filed k.registry) (releases : List (SessionId × Nat × Int)) :
    let k' := releases.foldl (fun k (id, ms, status) => k.release id (k.clock + ms) status) k
    Filed k'.registry ∧ k'.registry.cap = k.registry.cap ∧ k'.registry.size = k.registry.size := by
  induction releases generalizing k with
  | nil => exact ⟨h, rfl, rfl⟩
  | cons release releases ih =>
    obtain ⟨id, ms, status⟩ := release
    obtain ⟨hfiled, hcap, hsize⟩ := release_registry h id (k.clock + ms) status
    obtain ⟨hfiled', hcap', hsize'⟩ := ih hfiled
    exact ⟨hfiled', hcap'.trans hcap, hsize'.trans hsize⟩

/-- From a registry in order one call leads to a registry in order, with the same cap; unless waiting
is given up, what the call takes in, lets go of and waits for is what changes the size. -/
structure Orderly (k k' : Keeper) (reply : Reply) : Prop where
  filed : Filed k'.registry
  cap : k'.registry.cap = k.registry.cap
  balance : reply ≠ .blocked →
    k'.registry.size + reply.reaps + reply.joins = k.registry.size + reply.inserts

theorem startJob_orderly (h : Filed k.registry) (job : Job) (id : Option SessionId) :
    Orderly k (k.startJob job id).2 (k.startJob job id).1 := by
  -- A number of the registry's own or a given one: the sessions are the same.
  have hinsert : ∀ (id : SessionId) (r : Registry), r.entries = k.registry.entries →
      r.cap = k.registry.cap → ∀ r', r.insert (.start id k.clock (job.ending k.clock)) = .ok r' →
      Filed r' ∧ r'.cap = k.registry.cap ∧ r'.size = k.registry.size + 1 := by
    intro id r hentries hcap r' hi
    refine ⟨(h.of_entries_eq hentries).insert rfl hi, ?_, ?_⟩
    · rw [eq_of_insert_eq_ok hi]
      exact hcap
    · rw [eq_of_insert_eq_ok hi]
      simp [size, hentries]
  unfold startJob
  cases id with
  | none =>
    dsimp only
    split
    · rename_i r' hi
      obtain ⟨hfiled, hcap, hsize⟩ := hinsert _ k.registry.allocate.2 rfl rfl r' hi
      exact ⟨hfiled, hcap, fun _ => hsize⟩
    · exact ⟨h.of_entries_eq rfl, rfl, fun _ => rfl⟩
  | some id =>
    dsimp only
    split
    · rename_i r' hi
      obtain ⟨hfiled, hcap, hsize⟩ := hinsert id k.registry rfl rfl r' hi
      exact ⟨hfiled, hcap, fun _ => hsize⟩
    · exact ⟨h, rfl, fun _ => rfl⟩

theorem drain_orderly (h : Filed k.registry) (releases : List (SessionId × Nat × Int)) :
    Orderly k (k.drain patience releases).2 (k.drain patience releases).1 := by
  obtain ⟨-, hcap, hsize⟩ := releases_registry h releases
  unfold Keeper.drain
  dsimp only
  split
  · refine ⟨.of_no_entries rfl, hcap, fun _ => ?_⟩
    exact (Nat.zero_add _).trans hsize
  · exact ⟨.of_no_entries rfl, hcap, fun hne => absurd rfl hne⟩

theorem perform_orderly (patience : Nat) (h : Filed k.registry) (call : Call) :
    Orderly k (k.perform patience call).2 (k.perform patience call).1 := by
  cases call with
  | allocate => exact ⟨h.of_entries_eq rfl, rfl, fun _ => rfl⟩
  | start job id => exact startJob_orderly h job id
  | release id status =>
    obtain ⟨hfiled, hcap, hsize⟩ := release_registry h id k.clock status
    exact ⟨hfiled, hcap, fun _ => hsize⟩
  | advance ms => exact ⟨h, rfl, fun _ => rfl⟩
  | sweep => exact ⟨h.sweep k.clock, rfl, fun _ => k.registry.size_sweep_add k.clock⟩
  | check => exact ⟨h, rfl, fun _ => rfl⟩
  | contains id => exact ⟨h, rfl, fun _ => rfl⟩
  | drain releases => exact drain_orderly h releases

theorem performAll_filed (h : Filed k.registry) (calls : List Call) :
    let k' := (k.performAll patience calls).2
    Filed k'.registry ∧ k'.registry.cap = k.registry.cap := by
  induction calls generalizing k with
  | nil => exact ⟨h, rfl⟩
  | cons call calls ih =>
    obtain ⟨hfiled, hcap, -⟩ := perform_orderly patience h call
    obtain ⟨hfiled', hcap'⟩ := ih hfiled
    exact ⟨hfiled', hcap'.trans hcap⟩

/-- The replies say what became of each session that was put in. -/
theorem performAll_balance (h : Filed k.registry) {calls : List Call}
    (hdone : .blocked ∉ (k.performAll patience calls).1) :
    let done := k.performAll patience calls
    done.2.registry.size + (done.1.map Reply.reaps).sum + (done.1.map Reply.joins).sum =
      k.registry.size + (done.1.map Reply.inserts).sum := by
  induction calls generalizing k with
  | nil => rfl
  | cons call calls ih =>
    obtain ⟨hfiled, -, hbalance⟩ := perform_orderly patience h call
    obtain ⟨hfirst, hrest⟩ := not_or.1 (mt List.mem_cons.2 hdone)
    have hnow := hbalance (Ne.symm hfirst)
    have hlater := ih hfiled hrest
    simp only [performAll, List.map_cons, List.sum_cons] at hlater ⊢
    omega

end Keeper

/-- **A registry stays in order whatever is done with it.** Let anything have been done with a registry
that was empty at first. Each session stands under its own number, and no number stands twice. Letting
go of the finished sessions takes their results, each for the first time, and leaves exactly the others
and what room there is; doing so again when no other has finished changes nothing. Waiting for all is
over exactly if each of them ends. As many are tracked as were taken in, less those let go of, less
those waited for, unless waiting was given up. -/
theorem stays_in_order (patience : Nat) (cap : Option UInt32) (calls : List Call) :
    let done := (Keeper.start cap).performAll patience calls
    let r := done.2.registry
    (∀ e ∈ r.entries, e.1 = e.2.id) ∧ r.ids.Nodup ∧
    (∀ x : Session, x.id ∈ r.ids → r.insert x = .error x) ∧
    (∀ x : Session, x.id ∉ r.ids →
      r.insert x = .ok { r with entries := r.entries ++ [(x.id, x)] }) ∧
    (∀ now, let left := (r.sweep now).registry
      (r.sweep now).gone.length = r.sessions.countP (·.finishedBy now) ∧
      left = { r with entries := r.entries.filter fun e => !e.2.finishedBy now } ∧
      left = ((r.finished now).map (·.1)).foldl remove r ∧
      (∀ x ∈ (r.sweep now).gone, x.taken = 1) ∧
      (∀ t, left.sessions.all (!·.finishedBy t) = true → left.sweep t = ⟨left, [], []⟩) ∧
      ∀ t, now ≤ t → left.running t = r.running t ∧ left.checkCapacity t = r.checkCapacity t) ∧
    (∀ now e, r.checkCapacity now = .error e ↔
      ∃ limit, cap = some limit ∧ limit.toNat ≤ r.running now ∧ e = .limitReached limit) ∧
    (∀ now, let d := (r.drain now).1
      (r.drain now).2 = { r with entries := [] } ∧
      (d.time.isSome = true ↔ ∀ x ∈ r.sessions, x.ending.isSome = true) ∧
      ∀ t, d.time = some t → d.endings.map (·.1) = r.sessions.map (·.id) ∧
        d.endings.length = r.size ∧ d.sessions = r.sessions.map Session.take ∧
        ∀ x ∈ r.sessions, x.finishedBy t = true ∧ x.taken = 0) ∧
    (.blocked ∉ done.1 →
      r.size + (done.1.map Reply.reaps).sum + (done.1.map Reply.joins).sum =
        (done.1.map Reply.inserts).sum) := by
  intro done r
  obtain ⟨hfiled, hcap⟩ := Keeper.performAll_filed (k := .start cap) (.of_no_entries rfl) calls
  refine ⟨hfiled.own, hfiled.distinct, fun x => insert_of_tracked, fun x => insert_eq_ok,
    fun now => ⟨?_, rfl, hfiled.sweep_eq_foldl_remove now, fun x hx => hfiled.taken_of_mem_gone hx,
      fun t hnone => ?_, fun t ht => ⟨r.running_sweep ht, r.checkCapacity_sweep ht⟩⟩,
    fun now e => ?_, fun now => ⟨rfl, hfiled.joinAll_isSome_iff now, fun t ht => ?_⟩,
    fun hdone => ?_⟩
  · rw [length_gone_sweep, length_finished]
  · refine sweep_of_none_finished (List.filter_eq_nil_iff.2 fun e he hfin => ?_)
    have hrun := List.all_eq_true.1 hnone e.2 (List.mem_map_of_mem he)
    simp [hfin] at hrun
  · have hcap' : r.cap = cap := hcap
    rw [← hcap']
    exact checkCapacity_eq_error_iff
  · refine ⟨joinAll_endings ht, length_endings_drain ht, joinAll_sessions ht, fun x hx => ?_⟩
    obtain ⟨e, he, rfl⟩ := List.mem_map.1 hx
    exact ⟨(joinAll_finished ht).2 _ hx, hfiled.unread e he⟩
  · exact (Keeper.performAll_balance (k := .start cap) (.of_no_entries rfl) hdone).trans
      (Nat.zero_add _)

/-- Sessions one and seven, a second seven, another one once the first is let go of; then all are waited
for, and two more are put in. -/
def busyKeeper : List Call :=
  [.start (.ends 5 (.exited 0)) none, .start .held (some ⟨7⟩), .start .held (some ⟨7⟩), .check,
    .advance 10, .sweep, .start (.ends 0 .panicked) (some ⟨1⟩), .drain [(⟨7⟩, 30, 3)],
    .start .held none, .start .held (some ⟨7⟩), .sweep]

theorem stays_in_order_busyKeeper :
    let done := (Keeper.start (some 2)).performAll 1000 busyKeeper
    done.1.length = 11 ∧ done.2.registry.ids = [⟨2⟩, ⟨7⟩] ∧
    done.2.registry.insert (.start ⟨7⟩ 40 none) = .error (.start ⟨7⟩ 40 none) ∧
    done.2.registry.size + (done.1.map Reply.reaps).sum + (done.1.map Reply.joins).sum =
      (done.1.map Reply.inserts).sum := by
  obtain ⟨-, -, htaken, -, -, -, -, hbalance⟩ := stays_in_order 1000 (some 2) busyKeeper
  refine ⟨rfl, rfl, htaken _ ?_, hbalance ?_⟩
  · decide +kernel
  · have hreplies : ((Keeper.start (some 2)).performAll 1000 busyKeeper).1 =
        [.inserted ⟨1⟩, .inserted ⟨7⟩, .duplicate ⟨7⟩, .checked (.error (.limitReached 2)), .done,
          .count 1, .inserted ⟨1⟩, .drained 2 30, .inserted ⟨2⟩, .inserted ⟨7⟩, .count 0] := rfl
    simp [hreplies]

end StreamServer.Registry
