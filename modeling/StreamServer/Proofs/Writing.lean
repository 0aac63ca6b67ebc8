/-
What becomes of bytes that are written. A write takes the front of its data,
and all of it exactly when it is done. Whether it is done, fails or waits for
ever is settled by the first obstacle that is never lifted: `barrier?` is that
obstacle, with the number of bytes that are taken before it. The obstacles in
front of it only take time.
-/
import StreamServer.Stream

namespace StreamServer

/-! ## Obstacles -/

/-- What writing fails with at an obstacle, if it does. -/
def Overflow.fault? : Overflow → Option WriteFault
  | .refuse reason => some (.refused reason)
  | .swallow => some .swallowed
  | .stall _ => none

theorem Overflow.eq_stall_of_liftedBy {overflow : Overflow} {now : Instant}
    (h : overflow.liftedBy now = true) : ∃ t ≤ now, overflow = .stall (some t) := by
  unfold liftedBy at h
  split at h
  · exact ⟨_, of_decide_eq_true h, rfl⟩
  · cases h

theorem Overflow.liftedBy_mono {overflow : Overflow} {now t : Instant} (ht : now ≤ t)
    (h : overflow.liftedBy now = true) : overflow.liftedBy t = true := by
  obtain ⟨u, hu, rfl⟩ := eq_stall_of_liftedBy h
  exact decide_eq_true (Nat.le_trans hu ht)

theorem Overflow.lt_of_not_liftedBy {now t : Instant}
    (h : ¬(Overflow.stall (some t)).liftedBy now = true) : now < t :=
  Nat.lt_of_not_le fun hle => h (decide_eq_true hle)

/-- So many bytes further on. -/
def Obstacles.shift (n : Nat) (barrier : Option (Nat × Overflow)) : Option (Nat × Overflow) :=
  barrier.map fun b => (n + b.1, b.2)

/-- The first obstacle that is never lifted, and how many bytes are taken in all before it. -/
def Obstacles.barrier? : Obstacles → Option (Nat × Overflow)
  | [] => none
  | (room, .stall (some _)) :: rest => shift room (barrier? rest)
  | (room, overflow) :: _ => some (room, overflow)

/-- So many bytes are taken in front of the barrier, if there is one. -/
def Obstacles.TakesAll (barrier : Option (Nat × Overflow)) (length : Nat) : Prop :=
  ∀ b ∈ barrier, length ≤ b.1

/-- How often the obstacles can still be met with: until one is lifted, and until that is noticed. -/
def Obstacles.held (now : Instant) (obstacles : Obstacles) : Nat :=
  obstacles.length + obstacles.countP fun o => !o.2.liftedBy now

namespace Obstacles

variable {obstacles rest : Obstacles} {now t : Instant} {spare room n : Nat} {overflow : Overflow}

@[simp] theorem shift_zero (barrier : Option (Nat × Overflow)) : shift 0 barrier = barrier := by
  cases barrier <;> simp [shift]

@[simp] theorem shift_shift (m n : Nat) (barrier : Option (Nat × Overflow)) :
    shift m (shift n barrier) = shift (m + n) barrier := by
  cases barrier <;> simp [shift, Nat.add_assoc]

theorem barrier?_cons_of_lifted (h : overflow.liftedBy now = true) :
    barrier? ((room, overflow) :: rest) = shift room (barrier? rest) := by
  obtain ⟨t, -, rfl⟩ := Overflow.eq_stall_of_liftedBy h
  rfl

/-- Room in front of the first obstacle is room in front of the barrier. -/
theorem barrier?_add (spare room : Nat) (overflow : Overflow) (rest : Obstacles) :
    barrier? ((spare + room, overflow) :: rest) = shift spare (barrier? ((room, overflow) :: rest)) := by
  rcases overflow with _ | _ | ⟨_ | t⟩
  · rfl
  · rfl
  · rfl
  · exact (shift_shift ..).symm

theorem barrier?_clear (now : Instant) (spare : Nat) (obstacles : Obstacles) :
    barrier? (obstacles.clear now spare) = shift spare obstacles.barrier? := by
  fun_induction clear now spare obstacles with
  | case1 => rfl
  | case2 spare room overflow rest hlifted ih =>
    rw [ih, barrier?_cons_of_lifted hlifted, shift_shift]
  | case3 spare room overflow rest => exact barrier?_add ..

/-- A barrier is never lifted. -/
theorem barrier?_ne_lifting (obstacles : Obstacles) (n : Nat) (t : Instant) :
    obstacles.barrier? ≠ some (n, .stall (some t)) := by
  fun_induction barrier? obstacles generalizing n with
  | case1 => nofun
  | case2 room u rest ih =>
    intro h
    obtain ⟨b, hb, heq⟩ := Option.map_eq_some_iff.1 h
    exact ih b.1 (by rw [hb, ← (Prod.mk.inj heq).2])
  | case3 room overflow rest hfinal =>
    intro h
    cases h
    exact hfinal t rfl

/-- The barrier is not before the first obstacle. -/
theorem le_of_barrier?_cons {overflow' : Overflow}
    (h : barrier? ((room, overflow) :: rest) = some (n, overflow')) : room ≤ n := by
  rw [← Nat.add_zero room, barrier?_add] at h
  obtain ⟨b, -, hb⟩ := Option.map_eq_some_iff.1 h
  cases hb
  exact Nat.le_add_right ..

/-- What is met with first is not lifted. -/
theorem not_lifted_of_clear (h : obstacles.clear now spare = (room, overflow) :: rest) :
    ¬overflow.liftedBy now = true := by
  fun_induction clear now spare obstacles with
  | case1 => cases h
  | case2 spare room overflow rest hlifted ih => exact ih h
  | case3 spare room overflow rest hstands =>
    cases h
    exact hstands

theorem held_cons_of_lifted (h : overflow.liftedBy now = true) :
    held now ((room, overflow) :: rest) = held now rest + 1 := by
  simp [held, h]
  omega

theorem held_cons (room : Nat) (h : ¬overflow.liftedBy now = true) :
    held now ((room, overflow) :: rest) = held now rest + 2 := by
  simp [held, h]
  omega

theorem held_clear_le (now : Instant) (spare : Nat) (obstacles : Obstacles) :
    held now (obstacles.clear now spare) ≤ held now obstacles := by
  fun_induction clear now spare obstacles with
  | case1 => exact Nat.le_refl _
  | case2 spare room overflow rest hlifted ih =>
    rw [held_cons_of_lifted hlifted]
    exact Nat.le_succ_of_le ih
  | case3 spare room overflow rest hstands =>
    exact Nat.le_of_eq ((held_cons _ hstands).trans (held_cons _ hstands).symm)

/-- An obstacle that is lifted is not met with again. -/
theorem held_clear_lt (h : overflow.liftedBy now = true) :
    held now (Obstacles.clear now spare ((room, overflow) :: rest)) <
      held now ((room, overflow) :: rest) := by
  rw [Obstacles.clear, if_pos h, held_cons_of_lifted h]
  exact Nat.lt_succ_of_le (held_clear_le ..)

theorem held_mono (h : now ≤ t) (obstacles : Obstacles) : held t obstacles ≤ held now obstacles := by
  refine Nat.add_le_add_left (List.countP_mono_left fun o _ hstands => ?_) _
  simp only [Bool.not_eq_true'] at hstands ⊢
  cases hlifted : o.2.liftedBy now with
  | false => rfl
  | true => rw [Overflow.liftedBy_mono h hlifted] at hstands; cases hstands

/-- A stall that stands is met with less often once it is lifted. -/
theorem held_lift (h : ¬(Overflow.stall (some t)).liftedBy now = true) :
    held t ((room, .stall (some t)) :: rest) < held now ((room, .stall (some t)) :: rest) := by
  have hlifted : (Overflow.stall (some t)).liftedBy t = true := decide_eq_true (Nat.le_refl t)
  rw [held_cons_of_lifted hlifted, held_cons _ h]
  exact Nat.succ_lt_succ (Nat.lt_succ_of_le (held_mono (Nat.le_of_lt (Overflow.lt_of_not_liftedBy h)) _))

theorem held_le (now : Instant) (obstacles : Obstacles) : held now obstacles ≤ 2 * obstacles.length := by
  have hcount := List.countP_le_length (p := fun o => !o.2.liftedBy now) (l := obstacles)
  simp only [held]
  omega

end Obstacles

/-! ## Writing -/

/-- When writing all of some bytes is over, unless it never is. -/
def Sent.time? : Sent → Option Instant
  | .done t | .failed t _ => some t
  | .never => none

/-- How writing so many bytes ends at this barrier, if there is one. -/
inductive Sent.Meets (barrier : Option (Nat × Overflow)) (length : Nat) : Sent → Prop
  | done {t} (h : Obstacles.TakesAll barrier length) : Meets barrier length (.done t)
  | failed {t n overflow fault} (hb : barrier = some (n, overflow)) (hlt : n < length)
      (hf : overflow.fault? = some fault) : Meets barrier length (.failed t fault)
  | never {n} (hb : barrier = some (n, .stall none)) (hlt : n < length) : Meets barrier length .never

/-- A barrier further on is met with by more bytes. -/
theorem Sent.Meets.shift {barrier : Option (Nat × Overflow)} {n length : Nat} {sent : Sent}
    (h : Meets barrier (length - n) sent) (hn : n ≤ length) :
    Meets (Obstacles.shift n barrier) length sent := by
  cases h with
  | done hroom =>
    refine .done fun b hb => ?_
    obtain ⟨b', hb', rfl⟩ := Option.map_eq_some_iff.1 hb
    have hle := hroom b' hb'
    omega
  | failed hb hlt hf => exact .failed (by rw [hb]; rfl) (Nat.add_lt_of_lt_sub' hlt) hf
  | never hb hlt => exact .never (by rw [hb]; rfl) (Nat.add_lt_of_lt_sub' hlt)

namespace Outlet

variable {o : Outlet} {now t : Instant} {data : List UInt8} {spare room : Nat} {obstacles : Obstacles}

@[simp] theorem obstacles_note (o : Outlet) (now : Instant) (data : List UInt8) (left : Obstacles) :
    (o.note now data left).obstacles = left := rfl

@[simp] theorem bytes_note (o : Outlet) (now : Instant) (data : List UInt8) (left : Obstacles) :
    (o.note now data left).bytes = o.bytes ++ data := by
  unfold note bytes
  split
  · rename_i hempty
    simp [List.isEmpty_iff.1 hempty]
  · simp

theorem take_ne_of_lt {n : Nat} (h : ¬data.length ≤ n) : data.take n ≠ data := fun heq => h <| by
  have hlength : min n data.length = data.length := by simpa using congrArg List.length heq
  exact hlength ▸ Nat.min_le_left ..

theorem sendPast_bytes (o : Outlet) (now : Instant) (data : List UInt8) (spare : Nat)
    (obstacles : Obstacles) :
    ∃ part, part <+: data ∧ (o.sendPast now data spare obstacles).2.bytes = o.bytes ++ part ∧
      (part = data ↔ ∃ t, (o.sendPast now data spare obstacles).1 = .done t) := by
  fun_induction sendPast o now data spare obstacles with
  | case1 | case3 => exact ⟨_, List.prefix_refl _, bytes_note .., by simp⟩
  | case2 _ _ _ _ _ _ _ _ ih => exact ih
  | case4 _ _ data spare room rest hshort | case5 _ _ data spare room rest hshort
  | case6 _ _ data spare room rest hshort =>
    exact ⟨_, List.take_prefix (spare + room) data, bytes_note .., by simp [take_ne_of_lt hshort]⟩
  | case7 o now data spare room rest _ t _ o' ih =>
    obtain ⟨part, hpart, hbytes, hall⟩ := ih
    refine ⟨data.take (spare + room) ++ part, ?_, ?_, ?_⟩
    · obtain ⟨more, hmore⟩ := hpart
      exact ⟨more, by rw [List.append_assoc, hmore, List.take_append_drop]⟩
    · rw [hbytes, bytes_note, List.append_assoc]
    · rw [← hall]
      constructor
      · intro h
        exact List.append_cancel_left (h.trans (List.take_append_drop _ data).symm)
      · intro h
        rw [h, List.take_append_drop]

/-- A write takes the front of the data, and all of it exactly when it is done. -/
theorem send_bytes (o : Outlet) (now : Instant) (data : List UInt8) :
    ∃ part, part <+: data ∧ (o.send now data).2.bytes = o.bytes ++ part ∧
      (part = data ↔ ∃ t, (o.send now data).1 = .done t) :=
  sendPast_bytes ..

theorem le_of_sendPast (h : (o.sendPast now data spare obstacles).1.time? = some t) : now ≤ t := by
  fun_induction sendPast o now data spare obstacles with
  | case1 | case3 | case4 | case5 =>
    cases h
    exact Nat.le_refl _
  | case2 _ _ _ _ _ _ _ _ ih => exact ih h
  | case6 => cases h
  | case7 o now data spare room rest _ u hstands _ ih =>
    exact Nat.le_trans (Nat.le_of_lt (Overflow.lt_of_not_liftedBy hstands)) (ih h)

/-- Writing is not over before it begins. -/
theorem le_of_send (h : (o.send now data).1.time? = some t) : now ≤ t := le_of_sendPast h

theorem sendPast_meets (o : Outlet) (now : Instant) (data : List UInt8) (spare : Nat)
    (obstacles : Obstacles) :
    (o.sendPast now data spare obstacles).1.Meets (Obstacles.shift spare obstacles.barrier?)
      data.length := by
  fun_induction sendPast o now data spare obstacles with
  | case1 => exact .done nofun
  | case2 o now data spare room overflow rest hlifted ih =>
    rwa [Obstacles.barrier?_cons_of_lifted hlifted, Obstacles.shift_shift]
  | case3 o now data spare room overflow rest hstands hroom =>
    refine .done fun b hb => Nat.le_trans hroom ?_
    rw [← Obstacles.barrier?_add] at hb
    exact Obstacles.le_of_barrier?_cons hb
  | case4 _ _ _ _ _ _ hshort | case5 _ _ _ _ _ _ hshort =>
    exact .failed rfl (Nat.lt_of_not_le hshort) rfl
  | case6 _ _ _ _ _ _ hshort => exact .never rfl (Nat.lt_of_not_le hshort)
  | case7 o now data spare room rest hshort u _ _ ih =>
    -- What is left of the data goes on behind the obstacle.
    rw [Obstacles.shift_zero, List.length_drop] at ih
    have hmeets := ih.shift (Nat.le_of_lt (Nat.lt_of_not_le hshort))
    rwa [← Obstacles.shift_shift] at hmeets

/-- How a write ends is settled by the barrier and by how much is written. -/
theorem send_meets (o : Outlet) (now : Instant) (data : List UInt8) :
    (o.send now data).1.Meets o.obstacles.barrier? data.length := by
  have h := o.sendPast_meets now data 0 o.obstacles
  rwa [Obstacles.shift_zero] at h

theorem written_of_sendPast_at_once (hne : data.isEmpty = false)
    (h : (o.sendPast now data spare obstacles).1 = .done now) :
    (o.sendPast now data spare obstacles).2.written = o.written ++ [(now, data)] := by
  fun_induction sendPast o now data spare obstacles with
  | case1 | case3 => simp [note, hne]
  | case2 _ _ _ _ _ _ _ _ ih => exact ih hne h
  | case4 | case5 | case6 => cases h
  | case7 o now data spare room rest _ u hstands _ _ =>
    -- There is less room than data, so all of it can only be taken later.
    have hlater : u ≤ now := le_of_sendPast (by rw [h]; rfl)
    exact absurd (Overflow.lt_of_not_liftedBy hstands) (Nat.not_lt_of_le hlater)

/-- A write that is done at once is noted down as one. -/
theorem written_of_done_at_once (hne : data.isEmpty = false) (h : (o.send now data).1 = .done now) :
    (o.send now data).2.written = o.written ++ [(now, data)] :=
  written_of_sendPast_at_once hne h

/-- What comes of one attempt: something is taken, or an obstacle stands right in front. -/
inductive Offered (o : Outlet) (now : Instant) (data : List UInt8) : Offer × Outlet → Prop
  | taken {n : Nat} {left : Obstacles} (hle : n + 1 ≤ data.length)
      (hfree : ∀ overflow rest, o.obstacles.clear now 0 ≠ (0, overflow) :: rest)
      (hb : Obstacles.shift (n + 1) left.barrier? = o.obstacles.barrier?)
      (hh : left.held now = (o.obstacles.clear now 0).held now) :
      Offered o now data (.taken (n + 1), o.note now (data.take (n + 1)) left)
  | halted {overflow : Overflow} {rest : Obstacles} (hstands : ¬overflow.liftedBy now = true)
      (hclear : o.obstacles.clear now 0 = (0, overflow) :: rest) :
      Offered o now data (overflow.answer, { o with obstacles := (0, overflow) :: rest })

theorem offered (o : Outlet) (now : Instant) (hne : data ≠ []) : Offered o now data (o.offer now data) := by
  have hbarrier := Obstacles.barrier?_clear now 0 o.obstacles
  rw [Obstacles.shift_zero] at hbarrier
  obtain ⟨k, hk⟩ : ∃ k, data.length = k + 1 :=
    Nat.exists_eq_succ_of_ne_zero (mt List.length_eq_zero_iff.1 hne)
  rcases hclear : o.obstacles.clear now 0 with _ | ⟨⟨_ | room, overflow⟩, rest⟩ <;>
    simp only [offer, hclear]
  · rw [hclear] at hbarrier
    have htake : data.take (k + 1) = data := List.take_of_length_le (Nat.le_of_eq hk)
    have h : Offered o now data (.taken (k + 1), o.note now (data.take (k + 1)) []) :=
      .taken (Nat.le_of_eq hk.symm) (by simp [hclear]) hbarrier (by rw [hclear])
    rwa [htake, ← hk] at h
  · exact .halted (Obstacles.not_lifted_of_clear hclear) hclear
  · have hstands := Obstacles.not_lifted_of_clear hclear
    obtain ⟨n, hn⟩ : ∃ n, min (room + 1) data.length = n + 1 :=
      Nat.exists_eq_succ_of_ne_zero (by omega)
    have htake : data.take (room + 1) = data.take (n + 1) := by rw [← hn, List.take_eq_take_min]
    have hsplit : n + 1 + (room + 1 - data.length) = room + 1 := by omega
    rw [htake, hn]
    refine .taken (by omega) (by simp [hclear]) ?_ ?_
    · rw [← hbarrier, hclear, ← Obstacles.barrier?_add, hsplit]
    · rw [hclear]
      exact (Obstacles.held_cons _ hstands).trans (Obstacles.held_cons _ hstands).symm

end Outlet

end StreamServer
