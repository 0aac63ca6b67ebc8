/-
Copying a stream back to where it comes from. What was written, what is in the
buffer and what is still to come are together the bytes of the stream, in that
order, whatever is read or written and wherever that is cut. So nothing is lost
and nothing comes twice, and what was written is a front of the stream at any
time.

That copying comes to an end, or to a point from which nothing can move it, is
a matter of counting: every round uses up some of what is to come, or a time
that was waited for. The bound on the rounds is never reached.
-/
import StreamServer.Proofs.Pinging
import StreamServer.Worker

namespace StreamServer

open Arrival

/-! ## When bytes were taken -/

namespace Outlet

variable {o : Outlet} {now t : Instant} {data : List UInt8}

/-- The writes stand in the order of their times, none of them after `now`. -/
structure Dated (o : Outlet) (now : Instant) : Prop where
  sorted : o.written.Pairwise (·.1 ≤ ·.1)
  past : ∀ x ∈ o.written, x.1 ≤ now

theorem Dated.mono (h : o.Dated now) (ht : now ≤ t) : o.Dated t :=
  ⟨h.sorted, fun x hx => Nat.le_trans (h.past x hx) ht⟩

theorem Dated.note (h : o.Dated now) (data : List UInt8) (left : Obstacles) :
    (o.note now data left).Dated now := by
  unfold Outlet.note
  cases data.isEmpty with
  | true => exact ⟨h.sorted, h.past⟩
  | false =>
    refine ⟨List.pairwise_append.2 ⟨h.sorted, by simp, ?_⟩, ?_⟩
    · intro x hx y hy
      cases List.mem_singleton.1 hy
      exact h.past x hx
    · intro x hx
      rcases List.mem_append.1 hx with hx | hx
      · exact h.past x hx
      · cases List.mem_singleton.1 hx
        exact Nat.le_refl now

end Outlet

/-! ## What is to come -/

namespace Arrival

/-- Reads that an arrival can give rise to. -/
def weight (a : Arrival) : Nat :=
  match a.input with
  | .bytes data => data.length + 1
  | _ => 1

/-- Reads that arrivals can give rise to. -/
def load (arrivals : List Arrival) : Nat := (arrivals.map weight).foldr (· + ·) 0

/-- One if the next arrival is still to be waited for. -/
def late (now : Instant) : List Arrival → Nat
  | [] => 0
  | a :: _ => if now < a.due then 1 else 0

theorem late_le_one (now : Instant) (arrivals : List Arrival) : late now arrivals ≤ 1 := by
  cases arrivals with
  | nil => exact Nat.zero_le 1
  | cons a rest => simp only [late]; split <;> omega

theorem late_mono {now t : Instant} (h : now ≤ t) (arrivals : List Arrival) :
    late t arrivals ≤ late now arrivals := by
  cases arrivals with
  | nil => exact Nat.le_refl 0
  | cons a rest =>
    by_cases ht : t < a.due
    · simp [late, ht, Nat.lt_of_le_of_lt h ht]
    · simp [late, ht]

variable (due : Instant) (data : List UInt8) (rest : List Arrival)

theorem incoming_leave : incoming (leave due data rest) = data ++ incoming rest := by
  unfold leave
  split
  · rename_i h
    rw [List.isEmpty_iff.1 h, List.nil_append]
  · rfl

theorem fate_leave : fate (leave due data rest) = fate rest := by
  unfold leave
  split <;> rfl

theorem load_leave_le : load (leave due data rest) ≤ data.length + 1 + load rest := by
  unfold leave
  split
  · exact Nat.le_add_left ..
  · exact Nat.le_refl _

/-- What a read of at least one byte leaves can give rise to fewer reads. -/
theorem load_leave_lt {room : Nat} (h : 0 < room) :
    load (leave due (data.drop room) rest) < data.length + 1 + load rest := by
  cases data with
  | nil => simp [leave]
  | cons b data =>
    have hle := load_leave_le due ((b :: data).drop room) rest
    simp only [List.length_drop, List.length_cons] at hle ⊢
    omega

end Arrival

namespace Worker.Copy

open Obstacles (TakesAll held shift)

variable {payload : List UInt8} {end_ : Option Input} {barrier : Option (Nat × Overflow)} {c : Copy}
  {now t : Instant} {bound : Nat}

/-- What can still keep copying going. -/
def toGo (c : Copy) (now : Instant) : Nat :=
  2 * load c.arrivals + late now c.arrivals + held now c.outlet.obstacles + if c.ended then 0 else 1

theorem toGo_lt_budget (c : Copy) (now : Instant) : c.toGo now < c.budget := by
  have hbudget : c.budget = 2 * load c.arrivals + 2 * c.pending.length
      + 2 * c.outlet.obstacles.length + 8 := rfl
  have hlate := late_le_one now c.arrivals
  have hheld := Obstacles.held_le now c.outlet.obstacles
  simp only [toGo, hbudget]
  split <;> omega

/-! ## What every read and write keeps -/

/-- Copying under way: what was written, what is in the buffer and what is to come make up the payload. -/
structure Under (payload : List UInt8) (end_ : Option Input) (barrier : Option (Nat × Overflow))
    (c : Copy) (now : Instant) : Prop where
  bytes : c.outlet.bytes ++ c.pending ++ incoming c.arrivals = payload
  fate : fate c.arrivals = end_
  ended : c.ended = true → end_ = some .ended ∧ incoming c.arrivals = []
  count : c.copied = c.outlet.bytes.length
  left : shift c.outlet.bytes.length c.outlet.obstacles.barrier? = barrier
  dated : c.outlet.Dated now

theorem Under.mono (h : Under payload end_ barrier c now) (ht : now ≤ t) :
    Under payload end_ barrier c t :=
  { h with dated := h.dated.mono ht }

theorem Under.written_prefix (h : Under payload end_ barrier c now) : c.outlet.bytes <+: payload := by
  rw [← h.bytes, List.append_assoc]
  exact List.prefix_append ..

/-- What was written is in front of the barrier. -/
theorem Under.takesAll (h : Under payload end_ barrier c now) :
    TakesAll barrier c.outlet.bytes.length := by
  intro b hb
  rw [← h.left] at hb
  obtain ⟨b', -, rfl⟩ := Option.map_eq_some_iff.1 hb
  exact Nat.le_add_right ..

/-- What comes of a read at `now`. -/
inductive Filled (payload : List UInt8) (end_ : Option Input) (barrier : Option (Nat × Overflow))
    (c : Copy) (now : Instant) : Fill × Copy → Prop
  | read {c'} (h : Under payload end_ barrier c' now) (hgo : c'.toGo now < c.toGo now)
      (ho : c'.outlet = c.outlet) (hp : c.pending ≠ [] → c'.pending ≠ []) :
      Filled payload end_ barrier c now (.read, c')
  | dry (ha : c.arrivals = []) : Filled payload end_ barrier c now (.idle none, c)
  | early {due} (hd : now < due) (hl : late due c.arrivals < late now c.arrivals) :
      Filled payload end_ barrier c now (.idle (some due), c)
  | failed {reason c'} (he : end_ = some (.fault reason)) (ho : c'.outlet = c.outlet) :
      Filled payload end_ barrier c now (.failed reason, c')

theorem Under.fill (h : Under payload end_ barrier c now) (hw : c.wantsMore = true) :
    Filled payload end_ barrier c now (c.fill now) := by
  simp only [wantsMore, Bool.and_eq_true, decide_eq_true_eq, Bool.not_eq_true'] at hw
  obtain ⟨hused, hopen⟩ := hw
  have hroom : 0 < capacity - c.used := Nat.sub_pos_of_lt hused
  have hbytes := h.bytes
  have hfate := h.fate
  unfold Copy.fill
  cases ha : c.arrivals with
  | nil => exact .dry ha
  | cons a rest =>
    rw [ha] at hbytes hfate
    dsimp only
    by_cases hdue : now < a.due
    · rw [if_pos hdue]
      exact .early hdue (by simp [ha, late, hdue])
    · rw [if_neg hdue]
      cases hin : a.input with
      | bytes data =>
        simp only [incoming, Arrival.fate, hin] at hbytes hfate
        refine .read ⟨?_, ?_, ?_, h.count, h.left, h.dated⟩ ?_ rfl fun hp => by simp [hp]
        · rw [← hbytes, incoming_leave]
          simp only [List.append_assoc, List.append_cancel_left_eq]
          rw [← List.append_assoc, List.take_append_drop]
        · rw [fate_leave]
          exact hfate
        · simp [hopen]
        · have hload := load_leave_lt a.due data rest hroom
          have hlate := late_le_one now (leave a.due (data.drop (capacity - c.used)) rest)
          have hsum : load (a :: rest) = data.length + 1 + load rest := by
            simp [load, weight, hin]
          simp only [toGo, ha, hsum]
          omega
      | ended =>
        simp only [incoming, Arrival.fate, hin] at hbytes hfate
        refine .read ⟨?_, ?_, fun _ => ⟨hfate.symm, ?_⟩, h.count, h.left, h.dated⟩ ?_ rfl id
        · simpa [ha, incoming, hin] using hbytes
        · simpa [ha, Arrival.fate, hin] using hfate
        · simp [incoming, hin]
        · simp [toGo, ha, hopen]
      | fault reason =>
        simp only [Arrival.fate, hin] at hfate
        exact .failed hfate.symm rfl

/-! ## How a round goes -/

/-- The outlet at the end of a round. -/
def Round.outlet : Round → Outlet
  | .again _ c | .finished _ _ c | .never c => c.outlet

/-- What copying fails with when a write does. -/
def faultText (fault : WriteFault) : String := fault.text "write zero byte into writer"

/-- How copying comes to an end, or to a point from which nothing moves it. -/
inductive Stops (payload : List UInt8) (end_ : Option Input) (barrier : Option (Nat × Overflow)) :
    Round → Prop
  /-- The stream has ended and all of it was written. -/
  | copied {t : Instant} {c : Copy} (he : end_ = some .ended) (hb : c.outlet.bytes = payload)
      (hall : TakesAll barrier payload.length) :
      Stops payload end_ barrier (.finished t (.copied payload.length) c)
  /-- A read has failed. -/
  | unread {t : Instant} {reason : String} {c : Copy} (he : end_ = some (.fault reason))
      (hb : c.outlet.bytes <+: payload) :
      Stops payload end_ barrier (.finished t (.failed reason) c)
  /-- A write has failed. -/
  | unwritten {t : Instant} {room : Nat} {overflow : Overflow} {fault : WriteFault} {c : Copy}
      (hl : barrier = some (room, overflow))
      (hf : overflow.fault? = some fault) (hroom : room < payload.length)
      (hb : c.outlet.bytes = payload.take room) :
      Stops payload end_ barrier (.finished t (.failed (faultText fault)) c)
  /-- Nothing more comes on a stream that stays open. -/
  | idle {c : Copy} (he : end_ = none) (hb : c.outlet.bytes = payload)
      (hall : TakesAll barrier payload.length) : Stops payload end_ barrier (.never c)
  /-- A write waits for ever. -/
  | blocked {room : Nat} {c : Copy} (hl : barrier = some (room, .stall none))
      (hroom : room < payload.length) (hb : c.outlet.bytes = payload.take room) :
      Stops payload end_ barrier (.never c)

/-- Between two rounds the buffer is empty and free, or else a write waits. -/
def Settled (c : Copy) : Prop :=
  c.pending = [] ∧ c.used = 0 ∨
    c.pending ≠ [] ∧ ∃ lift rest, c.outlet.obstacles = (0, .stall lift) :: rest

theorem Settled.lift (h : Settled c) (hp : c.pending ≠ []) :
    ∃ lift rest, c.outlet.obstacles = (0, .stall lift) :: rest := by
  rcases h with ⟨hnil, -⟩ | ⟨-, h⟩
  · exact absurd hnil hp
  · exact h

/-- A round leads to one from which there is less to go than `bound`, or it is the last. -/
def Goes (payload : List UInt8) (end_ : Option Input) (barrier : Option (Nat × Overflow)) (bound : Nat) :
    Round → Prop
  | .again t c => Under payload end_ barrier c t ∧ Settled c ∧ c.toGo t < bound
  | r => Stops payload end_ barrier r ∧ r.outlet.written.Pairwise (·.1 ≤ ·.1)

theorem Goes.mono {r : Round} {bound' : Nat} (h : Goes payload end_ barrier bound r)
    (hle : bound ≤ bound') : Goes payload end_ barrier bound' r := by
  cases r with
  | again t c => exact ⟨h.1, h.2.1, Nat.lt_of_lt_of_le h.2.2 hle⟩
  | finished | never => exact h

theorem Under.drained (h : Under payload end_ barrier c now) (hp : c.pending = []) :
    Goes payload end_ barrier (c.toGo now + 1) (c.drained now) := by
  unfold Copy.drained
  dsimp only
  cases hended : c.ended with
  | true =>
    obtain ⟨he, hin⟩ := h.ended hended
    have hb : c.outlet.bytes = payload := by simpa [hp, hin] using h.bytes
    rw [if_pos rfl, h.count, hb]
    exact ⟨.copied he hb (hb ▸ h.takesAll), h.dated.sorted⟩
  | false => exact ⟨⟨h.bytes, h.fate, by simp, h.count, h.left, h.dated⟩, .inl ⟨hp, rfl⟩,
      by simp [toGo, hended]⟩

/-- Where the barrier is reached there is still something to write beyond it. -/
theorem Under.full {overflow : Overflow} {rest : Obstacles} (h : Under payload end_ barrier c now)
    (hp : c.pending ≠ []) (hl : c.outlet.obstacles = (0, overflow) :: rest)
    (hfinal : Obstacles.barrier? ((0, overflow) :: rest) = some (0, overflow)) :
    ∃ room, barrier = some (room, overflow) ∧ room < payload.length ∧
      c.outlet.bytes = payload.take room := by
  refine ⟨c.outlet.bytes.length, ?_, ?_, ?_⟩
  · rw [← h.left, hl, hfinal]
    rfl
  · rw [← h.bytes]
    have hpos := List.length_pos_iff.2 hp
    simp only [List.length_append]
    omega
  · rw [← h.bytes, List.append_assoc, List.take_left]

theorem Under.unread {reason : String} {c' : Copy} (h : Under payload end_ barrier c now)
    (he : end_ = some (.fault reason)) (ho : c'.outlet = c.outlet) :
    Goes payload end_ barrier bound (.finished now (.failed reason) c') := by
  refine ⟨.unread he ?_, ?_⟩
  · rw [ho]
    exact h.written_prefix
  · rw [show (Round.finished now (.failed reason) c').outlet = c.outlet from ho]
    exact h.dated.sorted

section Waiting

variable {lift : Option Instant} {rest : Obstacles}
  (hl : c.outlet.obstacles = (0, .stall lift) :: rest)

include hl in
theorem toGo_lift (hlift : lift = some t) (hstands : ¬(Overflow.stall lift).liftedBy now = true) :
    now < t ∧ c.toGo t < c.toGo now := by
  subst hlift
  have hlt := Overflow.lt_of_not_liftedBy hstands
  have hlate := late_mono (Nat.le_of_lt hlt) c.arrivals
  have hheld : held t c.outlet.obstacles < held now c.outlet.obstacles := by
    rw [hl]
    exact Obstacles.held_lift hstands
  refine ⟨hlt, ?_⟩
  simp only [toGo]
  omega

theorem toGo_late (hd : now < t) (hlate : late t c.arrivals < late now c.arrivals) :
    c.toGo t < c.toGo now := by
  have hheld := Obstacles.held_mono (Nat.le_of_lt hd) c.outlet.obstacles
  simp only [toGo]
  omega

include hl

/-- A write that waits at an obstacle goes on when it is lifted, or never. -/
theorem Under.wait (h : Under payload end_ barrier c now) (hp : c.pending ≠ [])
    (hstands : ¬(Overflow.stall lift).liftedBy now = true) :
    Goes payload end_ barrier (c.toGo now) (c.wait lift) := by
  cases hlift : lift with
  | none =>
    subst hlift
    obtain ⟨room, hbarrier, hroom, hb⟩ := h.full hp hl rfl
    exact ⟨.blocked hbarrier hroom hb, h.dated.sorted⟩
  | some t =>
    obtain ⟨hlt, hgo⟩ := toGo_lift hl hlift hstands
    exact ⟨h.mono (Nat.le_of_lt hlt), .inr ⟨hp, _, _, hl⟩, hgo⟩

/-- While a write has to wait, what else is waited for comes first or is given up. -/
theorem Under.stalled (h : Under payload end_ barrier c now) (hp : c.pending ≠ [])
    (hstands : ¬(Overflow.stall lift).liftedBy now = true) :
    Goes payload end_ barrier (c.toGo now) (c.stalled now lift) := by
  unfold Copy.stalled
  by_cases hw : c.wantsMore = true
  · rw [if_pos hw]
    have hfill := h.fill hw
    generalize c.fill now = r at hfill
    cases hfill with
    | read h' hgo ho hp' =>
      exact (h'.wait (by rw [ho]; exact hl) (hp' hp) hstands).mono (Nat.le_of_lt hgo)
    | dry =>
      have hlift : earlier lift none = lift := by cases lift <;> rfl
      dsimp only
      rw [hlift]
      exact h.wait hl hp hstands
    | @early due hd hlate =>
      have settled : Settled c := .inr ⟨hp, _, _, hl⟩
      have hgo := toGo_late hd hlate
      cases hlift : lift with
      | none => exact ⟨h.mono (Nat.le_of_lt hd), settled, hgo⟩
      | some u =>
        obtain ⟨hlt, hgo'⟩ := toGo_lift hl hlift hstands
        refine ⟨h.mono (Nat.le_min.2 ⟨Nat.le_of_lt hlt, Nat.le_of_lt hd⟩), settled, ?_⟩
        rcases Nat.le_total u due with hle | hle
        · rwa [Nat.min_eq_left hle]
        · rwa [Nat.min_eq_right hle]
    | failed he ho => exact h.unread he ho
  · rw [if_neg hw]
    exact h.wait hl hp hstands

end Waiting

/-- What a write comes to in front of which an obstacle stands. -/
def halted (c : Copy) (now : Instant) : Overflow → Round
  | .refuse reason => .finished now (.failed reason) c
  | .swallow => .finished now (.failed "write zero byte into writer") c
  | .stall lift => c.stalled now lift

theorem Under.halted {overflow : Overflow} {rest : Obstacles} (h : Under payload end_ barrier c now)
    (hp : c.pending ≠ []) (hl : c.outlet.obstacles = (0, overflow) :: rest)
    (hstands : ¬overflow.liftedBy now = true) :
    Goes payload end_ barrier (c.toGo now) (c.halted now overflow) := by
  cases overflow with
  | refuse reason =>
    obtain ⟨room, hbarrier, hroom, hb⟩ := h.full hp hl rfl
    have hfault : (Overflow.refuse reason).fault? = some (.refused reason) := rfl
    exact ⟨.unwritten hbarrier hfault hroom hb, h.dated.sorted⟩
  | swallow =>
    obtain ⟨room, hbarrier, hroom, hb⟩ := h.full hp hl rfl
    have hfault : Overflow.swallow.fault? = some .swallowed := rfl
    exact ⟨.unwritten hbarrier hfault hroom hb, h.dated.sorted⟩
  | stall lift => exact h.stalled hl hp hstands

theorem flush_of_halted {overflow : Overflow} {outlet : Outlet} (hp : c.pending ≠ [])
    (ho : c.outlet.offer now c.pending = (overflow.answer, outlet)) :
    c.flush now = { c with outlet := outlet }.halted now overflow := by
  rw [flush, if_neg hp, ho]
  cases overflow <;> rfl

theorem flush_of_taken {n : Nat} {outlet : Outlet} (hp : c.pending ≠ [])
    (ho : c.outlet.offer now c.pending = (.taken (n + 1), outlet)) :
    c.flush now = (c.wrote (n + 1) outlet).flush now := by
  rw [flush, if_neg hp, ho]

/-- What is in the way on a new outlet is all that changes what there is to go. -/
theorem toGo_outlet (c : Copy) (now : Instant) (outlet : Outlet) :
    { c with outlet := outlet }.toGo now + held now c.outlet.obstacles =
      c.toGo now + held now outlet.obstacles := by
  simp only [toGo]
  omega

theorem Under.wrote {n : Nat} {left : Obstacles} (h : Under payload end_ barrier c now)
    (hle : n ≤ c.pending.length) (hb : shift n left.barrier? = c.outlet.obstacles.barrier?) :
    Under payload end_ barrier (c.wrote n (c.outlet.note now (c.pending.take n) left)) now where
  bytes := by
    simp only [Copy.wrote, Outlet.bytes_note, List.append_assoc]
    rw [← List.append_assoc (c.pending.take n), List.take_append_drop, ← List.append_assoc]
    exact h.bytes
  fate := h.fate
  ended := h.ended
  count := by
    simp only [Copy.wrote, Outlet.bytes_note, List.length_append, List.length_take, h.count,
      Nat.min_eq_left hle]
  left := by
    simp only [Copy.wrote, Outlet.bytes_note, List.length_append, List.length_take,
      Nat.min_eq_left hle, Outlet.obstacles_note]
    rw [← Obstacles.shift_shift, hb]
    exact h.left
  dated := h.dated.note ..

/-- Obstacles that were lifted can be forgotten. -/
theorem Under.cleared {left : Obstacles} (h : Under payload end_ barrier c now)
    (hclear : c.outlet.obstacles.clear now 0 = left) :
    Under payload end_ barrier { c with outlet := { c.outlet with obstacles := left } } now := by
  have hbarrier := Obstacles.barrier?_clear now 0 c.outlet.obstacles
  rw [Obstacles.shift_zero, hclear] at hbarrier
  exact ⟨h.bytes, h.fate, h.ended, h.count, by rw [← h.left, ← hbarrier]; rfl,
    ⟨h.dated.sorted, h.dated.past⟩⟩

/-- What an attempt to write what is pending leads to. -/
inductive Attempted (payload : List UInt8) (end_ : Option Input) (barrier : Option (Nat × Overflow))
    (c : Copy) (now : Instant) : Prop
  /-- Something was taken, and the rest is tried. -/
  | taken {c'} (hf : c.flush now = c'.flush now) (h : Under payload end_ barrier c' now)
      (hless : c'.pending.length < c.pending.length)
      (hfree : ∀ overflow rest, c.outlet.obstacles.clear now 0 ≠ (0, overflow) :: rest)
      (hgo : c'.toGo now + held now c.outlet.obstacles =
        c.toGo now + held now (c.outlet.obstacles.clear now 0))
  /-- An obstacle stands right in front. -/
  | halted {c' overflow rest} (hf : c.flush now = c'.halted now overflow)
      (h : Under payload end_ barrier c' now) (hp : c'.pending ≠ [])
      (hl : c'.outlet.obstacles = (0, overflow) :: rest) (hstands : ¬overflow.liftedBy now = true)
      (hgo : c'.toGo now + held now c.outlet.obstacles =
        c.toGo now + held now (c.outlet.obstacles.clear now 0))

theorem Under.attempted (h : Under payload end_ barrier c now) (hp : c.pending ≠ []) :
    Attempted payload end_ barrier c now := by
  have hoffered := c.outlet.offered now hp
  generalize hoffer : c.outlet.offer now c.pending = r at hoffered
  cases hoffered with
  | @taken k left hle hfree hb hh =>
    refine .taken (flush_of_taken hp hoffer) (h.wrote hle hb) ?_ hfree ?_
    · simp only [Copy.wrote, List.length_drop]
      omega
    · rw [← hh]
      exact toGo_outlet c now (c.outlet.note now (c.pending.take (k + 1)) left)
  | halted hstands hclear =>
    refine .halted (flush_of_halted hp hoffer) (h.cleared hclear) hp rfl hstands ?_
    rw [hclear]
    exact toGo_outlet ..

/-- Writing what is pending gets it all written, or as much of it as there is room for. -/
theorem Under.flush (h : Under payload end_ barrier c now) :
    Goes payload end_ barrier (c.toGo now + 1) (c.flush now) := by
  -- Every attempt that takes something leaves less to be written.
  induction hn : c.pending.length using Nat.strongRecOn generalizing c with
  | ind n ih =>
    by_cases hp : c.pending = []
    · rw [Copy.flush, if_pos hp]
      exact h.drained hp
    · have hheld := Obstacles.held_clear_le now 0 c.outlet.obstacles
      cases h.attempted hp with
      | taken hf h' hless _ hgo =>
        rw [hf]
        exact (ih _ (hn ▸ hless) h' rfl).mono (by omega)
      | halted hf h' hp' hl hstands hgo =>
        rw [hf]
        exact (h'.halted hp' hl hstands).mono (by omega)

/-- A write that has waited for an obstacle gets somewhere in the round after. -/
theorem Under.flush_waiting {lift : Option Instant} {rest : Obstacles}
    (h : Under payload end_ barrier c now) (hp : c.pending ≠ [])
    (hl : c.outlet.obstacles = (0, .stall lift) :: rest) :
    Goes payload end_ barrier (c.toGo now) (c.flush now) := by
  have hheld := Obstacles.held_clear_le now 0 c.outlet.obstacles
  cases h.attempted hp with
  | taken hf h' _ hfree hgo =>
    -- Nothing could be taken in front of the obstacle, so it is lifted.
    have hlifted : (Overflow.stall lift).liftedBy now = true := by
      refine Decidable.byContradiction fun hstands => ?_
      exact hfree _ _ (by rw [hl, Obstacles.clear, if_neg hstands])
    have hless : held now (c.outlet.obstacles.clear now 0) < held now c.outlet.obstacles := by
      rw [hl]
      exact Obstacles.held_clear_lt hlifted
    rw [hf]
    exact h'.flush.mono (by omega)
  | halted hf h' hp' hl hstands hgo =>
    rw [hf]
    exact (h'.halted hp' hl hstands).mono (by omega)

theorem Under.round (h : Under payload end_ barrier c now) (hs : Settled c) :
    Goes payload end_ barrier (c.toGo now) (c.round now) := by
  unfold Copy.round
  by_cases hw : c.wantsMore = true
  · rw [if_pos hw]
    have hfill := h.fill hw
    generalize c.fill now = r at hfill
    cases hfill with
    | @read c' h' hgo ho hp' =>
      -- The read has used something up, so the writing need not.
      exact h'.flush.mono hgo
    | dry ha =>
      dsimp only
      by_cases hp : c.pending = []
      · have hb : c.outlet.bytes = payload := by simpa [hp, ha, incoming] using h.bytes
        have he : end_ = none := by simpa [ha, Arrival.fate] using h.fate.symm
        rw [if_pos (by simp [hp])]
        exact ⟨.idle he hb (hb ▸ h.takesAll), h.dated.sorted⟩
      · obtain ⟨lift, rest, hl⟩ := hs.lift hp
        rw [if_neg (by simpa using hp)]
        exact h.flush_waiting hp hl
    | early hd hlate =>
      dsimp only
      by_cases hp : c.pending = []
      · rw [if_pos (by simp [hp])]
        exact ⟨h.mono (Nat.le_of_lt hd), hs, toGo_late hd hlate⟩
      · obtain ⟨lift, rest, hl⟩ := hs.lift hp
        rw [if_neg (by simpa using hp)]
        exact h.flush_waiting hp hl
    | failed he ho => exact h.unread he ho
  · rw [if_neg hw]
    rcases hs with ⟨hp, hused⟩ | ⟨hp, lift, rest, hl⟩
    · have hended : c.ended = true := by simpa [wantsMore, hused, capacity] using hw
      have hflush : c.flush now = c.drained now := by simp [Copy.flush, hp]
      have hlast : c.drained now = .finished now (.copied c.copied) { c with used := 0 } := by
        simp [Copy.drained, hended]
      have hgoes := h.drained hp
      rw [hlast] at hgoes
      rw [hflush, hlast]
      exact hgoes
    · exact h.flush_waiting hp hl

/-! ## All rounds -/

theorem Under.rounds {n : Nat} (h : Under payload end_ barrier c now) (hs : Settled c)
    (hn : c.toGo now < n) : Stops payload end_ barrier (rounds n c now) ∧
      (rounds n c now).outlet.written.Pairwise (·.1 ≤ ·.1) := by
  induction n generalizing c now with
  | zero => exact absurd hn (Nat.not_lt_zero _)
  | succ n ih =>
    have hround := h.round hs
    unfold Copy.rounds
    generalize c.round now = r at hround
    cases r with
    | again t c' =>
      obtain ⟨h', hs', hgo⟩ := hround
      exact ih h' hs' (by omega)
    | finished | never => exact hround

/-- Copying what a stream brings, on an outlet nothing was written on, stops in one of these ways. -/
theorem run_stops {stream : Stream} (hw : stream.outlet.written = []) (now : Instant) :
    Stops (incoming stream.arrivals) (fate stream.arrivals) stream.outlet.obstacles.barrier?
        ((Copy.start stream).run now) ∧
      ((Copy.start stream).run now).outlet.written.Pairwise (·.1 ≤ ·.1) := by
  have hbytes : stream.outlet.bytes = [] := by simp [Outlet.bytes, hw]
  have hunder : Under (incoming stream.arrivals) (fate stream.arrivals) stream.outlet.obstacles.barrier?
      (Copy.start stream) now := by
    refine ⟨?_, rfl, by simp [Copy.start], ?_, ?_, ⟨?_, ?_⟩⟩ <;> simp only [Copy.start]
    · rw [hbytes]
      rfl
    · rw [hbytes]
      rfl
    · rw [hbytes]
      exact Obstacles.shift_zero _
    · simp [hw]
    · simp [hw]
  exact hunder.rounds (.inl ⟨rfl, rfl⟩) (toGo_lt_budget _ now)

end Worker.Copy

end StreamServer
