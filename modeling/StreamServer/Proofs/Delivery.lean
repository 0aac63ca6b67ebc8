/-
What a control connection has got by a time. Nothing overtakes what comes
before it, so by any time a front part of the stream is there. Waiting ends at
the first time at which a word is complete or the stream is over, or at its
deadline; nothing else about the stream has a say in it. A word takes four
bytes off what is there from then on, and a silence takes none.
-/
import StreamServer.Proofs.ControlWords

namespace StreamServer.Control

open Arrival

/-! ## Front parts of a stream -/

theorem dueBy_prefix {d d' : Instant} (h : d ≤ d') (arrivals : List Arrival) :
    dueBy d arrivals <+: dueBy d' arrivals := by
  induction arrivals with
  | nil => exact List.prefix_refl _
  | cons a arrivals ih =>
    simp only [dueBy, List.takeWhile_cons] at ih ⊢
    by_cases hd : a.due ≤ d
    · have hd' : a.due ≤ d' := Nat.le_trans hd h
      simpa [hd, hd'] using ih
    · simp [hd]

theorem incoming_append (front back : List Arrival) :
    incoming front <+: incoming (front ++ back) := by
  induction front with
  | nil => exact List.nil_prefix
  | cons a front ih =>
    cases hin : a.input with
    | bytes data => simpa [incoming, hin] using ih
    | ended | fault _ => simp [incoming, hin]

theorem fate_append {front : List Arrival} {end_ : Input} (h : fate front = some end_)
    (back : List Arrival) : fate (front ++ back) = some end_ := by
  induction front with
  | nil => cases h
  | cons a front ih =>
    cases hin : a.input with
    | bytes data =>
      simp only [fate, hin, List.cons_append] at h ⊢
      exact ih h
    | ended | fault _ => simpa [fate, hin] using h

/-- Bytes are no way to end. -/
theorem fate_ne_bytes (arrivals : List Arrival) (data : List UInt8) :
    fate arrivals ≠ some (.bytes data) := by
  induction arrivals with
  | nil => nofun
  | cons a arrivals ih =>
    cases hin : a.input with
    | bytes _ => simpa [fate, hin] using ih
    | ended | fault _ => simp [fate, hin]

/-- Complete words that have come in by a time. -/
def wordsBy (d : Instant) (arrivals : List Arrival) : Nat :=
  (incoming (dueBy d arrivals)).length / 4

theorem wordsBy_mono {d d' : Instant} (h : d ≤ d') (arrivals : List Arrival) :
    wordsBy d arrivals ≤ wordsBy d' arrivals := by
  obtain ⟨back, hback⟩ := dueBy_prefix h arrivals
  unfold wordsBy
  rw [← hback]
  exact Nat.div_le_div_right (incoming_append ..).length_le

namespace Inbox

variable {i : Inbox} {d d' : Instant}

/-- Bytes that are there by a time. -/
def got (i : Inbox) (d : Instant) : List UInt8 := i.buffer ++ incoming (dueBy d i.arrivals)

/-- How the stream has ended by a time, if it has. -/
def fateBy (i : Inbox) (d : Instant) : Option Input := fate (dueBy d i.arrivals)

/-- No word is complete by a time, and the stream has not ended. -/
def Quiet (i : Inbox) (d : Instant) : Prop := (i.got d).length < 4 ∧ i.fateBy d = none

theorem got_prefix (i : Inbox) (h : d ≤ d') : i.got d <+: i.got d' := by
  obtain ⟨back, hback⟩ := dueBy_prefix h i.arrivals
  unfold got
  rw [← hback]
  exact (List.prefix_append_right_inj i.buffer).2 (incoming_append ..)

theorem got_prefix_bytes (i : Inbox) (d : Instant) : i.got d <+: i.bytes := by
  have hall : dueBy d i.arrivals <+: i.arrivals := List.takeWhile_prefix _
  obtain ⟨back, hback⟩ := hall
  refine (List.prefix_append_right_inj i.buffer).2 ?_
  calc incoming (dueBy d i.arrivals)
      <+: incoming (dueBy d i.arrivals ++ back) := incoming_append ..
    _ = incoming i.arrivals := by rw [hback]

theorem length_got_le (i : Inbox) (h : d ≤ d') : (i.got d).length ≤ (i.got d').length :=
  (i.got_prefix h).length_le

theorem fateBy_of_le {end_ : Input} (h : d ≤ d') (hend : i.fateBy d = some end_) :
    i.fateBy d' = some end_ := by
  obtain ⟨back, hback⟩ := dueBy_prefix h i.arrivals
  unfold fateBy
  rw [← hback]
  exact fate_append hend back

/-- What was quiet at a time was so before. -/
theorem Quiet.of_le (h : i.Quiet d') (hle : d ≤ d') : i.Quiet d := by
  refine ⟨Nat.lt_of_le_of_lt (i.length_got_le hle) h.1, ?_⟩
  cases hend : i.fateBy d with
  | none => rfl
  | some end_ =>
    have hlater := h.2
    rw [fateBy_of_le hle hend] at hlater
    cases hlater

/-- An inbox is quiet exactly when there is nothing to be read. -/
theorem readable_eq_none_iff : readable (i.got d) (i.fateBy d) = none ↔ i.Quiet d := by
  unfold Quiet
  constructor
  · intro h
    have hlt : (i.got d).length < 4 := by
      refine Nat.lt_of_not_le fun hle => ?_
      obtain ⟨w, hw⟩ := readable_word_iff.2 hle
      rw [h] at hw
      cases hw
    -- Less than a word can be read only as the end of the stream.
    refine ⟨hlt, ?_⟩
    rw [readable_of_short hlt] at h
    cases hend : i.fateBy d with
    | none => rfl
    | some end_ =>
      rw [hend] at h
      cases end_ with
      | bytes data => exact absurd hend (fate_ne_bytes _ data)
      | ended | fault _ => cases h
  · rintro ⟨hlt, hend⟩
    rw [readable_of_short hlt, hend]

/-- From a time on, both have got the same and have met with the same end. -/
def SameFrom (t : Instant) (i j : Inbox) : Prop := ∀ d, t ≤ d → i.got d = j.got d ∧ i.fateBy d = j.fateBy d

/-- Bytes that are read into the buffer were there when they were due. -/
theorem sameFrom_of_read {buffer data : List UInt8} {a : Arrival} {arrivals : List Arrival}
    (hin : a.input = .bytes data) :
    SameFrom a.due ⟨buffer ++ data, arrivals⟩ ⟨buffer, a :: arrivals⟩ := by
  intro d hd
  have hdue : dueBy d (a :: arrivals) = a :: dueBy d arrivals := by simp [dueBy, hd]
  simp [got, fateBy, hdue, incoming, fate, hin]

/-- Before the next arrival is due there is only what is buffered. -/
theorem quiet_before {buffer rest : List UInt8} {a : Arrival} {arrivals : List Arrival}
    (hb : Codec.decode buffer = (none, rest)) (hd : d < a.due) : Quiet ⟨buffer, a :: arrivals⟩ d := by
  have hdue : dueBy d (a :: arrivals) = [] := by simp [dueBy, hd]
  have hlt := Codec.length_lt_of_decode_eq_none hb
  simpa [Quiet, got, fateBy, hdue, incoming, fate] using hlt

theorem quiet_nil {buffer rest : List UInt8} (hb : Codec.decode buffer = (none, rest))
    (d : Instant) : Quiet ⟨buffer, []⟩ d := by
  have hlt := Codec.length_lt_of_decode_eq_none hb
  simpa [Quiet, got, fateBy, dueBy, incoming, fate] using hlt

theorem SameFrom.quiet {t : Instant} {j : Inbox} (h : SameFrom t i j) (hd : t ≤ d) :
    i.Quiet d ↔ j.Quiet d := by
  obtain ⟨hgot, hfate⟩ := h d hd
  rw [Quiet, Quiet, hgot, hfate]

end Inbox

/-! ## When waiting ends -/

/-- How waiting from `now` on an inbox ends: with what can be read at the first time something can, or
with silence at the deadline. What is left is the same but for the word that was taken. -/
def Awaited.Timely (deadline : Option Instant) (now : Instant) (i : Inbox) : Awaited → Prop
  | .received u what rest =>
    now ≤ u ∧ (∀ d, now ≤ d → d < u → i.Quiet d) ∧ (∀ t, deadline = some t → u ≤ t) ∧
      readable (i.got u) (i.fateBy u) = some what ∧
      ∀ w, what = .word w → ∀ d, u ≤ d → rest.got d = (i.got d).drop 4 ∧ rest.fateBy d = i.fateBy d
  | .silence u rest => deadline = some u ∧ i.Quiet u ∧ rest.SameFrom u i
  | .never => deadline = none ∧ ∀ d, i.Quiet d

/-- Reading bytes into the buffer changes nothing about how waiting ends. -/
theorem Awaited.Timely.of_read {deadline : Option Instant} {now due : Instant} {i j : Inbox}
    {a : Awaited} (hsame : j.SameFrom due i) (hquiet : ∀ d, d < due → i.Quiet d)
    (hdue : ∀ t, deadline = some t → due ≤ t) (h : a.Timely deadline (max now due) j) :
    a.Timely deadline now i := by
  cases a with
  | received u what rest =>
    obtain ⟨hle, hbefore, hlimit, hwhat, hrest⟩ := h
    have hu : due ≤ u := Nat.le_trans (Nat.le_max_right now due) hle
    obtain ⟨hgot, hfate⟩ := hsame u hu
    refine ⟨Nat.le_trans (Nat.le_max_left now due) hle, fun d hd hlt => ?_, hlimit,
      by rw [← hgot, ← hfate]; exact hwhat, fun w hw d hd => ?_⟩
    · rcases Nat.lt_or_ge d due with hd' | hd'
      · exact hquiet d hd'
      · exact (hsame.quiet hd').1 (hbefore d (Nat.max_le.2 ⟨hd, hd'⟩) hlt)
    · obtain ⟨hgot', hfate'⟩ := hsame d (Nat.le_trans hu hd)
      rw [← hgot', ← hfate']
      exact hrest w hw d hd
  | silence u rest =>
    obtain ⟨rfl, hq, hrest⟩ := h
    have hu : due ≤ u := hdue u rfl
    refine ⟨rfl, (hsame.quiet hu).1 hq, fun d hd => ?_⟩
    obtain ⟨hgot, hfate⟩ := hsame d (Nat.le_trans hu hd)
    rw [← hgot, ← hfate]
    exact hrest d hd
  | never =>
    refine ⟨h.1, fun d => ?_⟩
    rcases Nat.lt_or_ge d due with hd | hd
    · exact hquiet d hd
    · exact (hsame.quiet hd).1 (h.2 d)

/-- A word that is buffered is taken at once. -/
theorem timely_of_decode {deadline : Option Instant} {now : Instant} {buffer rest : List UInt8}
    {w : Word} {arrivals : List Arrival} (hd : ∀ t, deadline = some t → now ≤ t)
    (hb : Codec.decode buffer = (some w, rest)) :
    (Awaited.received now (.word w) ⟨rest, arrivals⟩).Timely deadline now ⟨buffer, arrivals⟩ := by
  have htake := Codec.decode_eq_some hb
  refine ⟨Nat.le_refl _, fun d hle hlt => absurd hle (Nat.not_le_of_lt hlt), hd,
    readable_of_take? (Word.take?_append htake _), fun w' _ d _ => ⟨?_, rfl⟩⟩
  exact Word.eq_drop_of_take? (Word.take?_append htake _)

/-- The end of a stream is met with when it is due. -/
theorem timely_of_end {deadline : Option Instant} {now : Instant} {buffer left : List UInt8}
    {a : Arrival} {arrivals : List Arrival} {what : Received} {rest : Inbox}
    (hd : ∀ t, deadline = some t → now ≤ t) (hp : passesBefore deadline a.due = none)
    (hb : Codec.decode buffer = (none, left)) (hin : ∀ data, a.input ≠ .bytes data)
    (hwhat : readable buffer (some a.input) = some what) (hword : ∀ w, what ≠ .word w) :
    (Awaited.received (max now a.due) what rest).Timely deadline now ⟨buffer, a :: arrivals⟩ := by
  have hdue : ∀ t, deadline = some t → a.due ≤ t := by
    intro t ht
    simpa [passesBefore, ht] using hp
  have harrived : dueBy (max now a.due) (a :: arrivals) =
      a :: dueBy (max now a.due) arrivals :=
    List.takeWhile_cons_of_pos (decide_eq_true (Nat.le_max_right now a.due))
  have hfate : ∀ rest, fate (a :: rest) = some a.input ∧ incoming (a :: rest) = [] := by
    intro rest
    cases h : a.input with
    | bytes data => exact absurd h (hin data)
    | ended | fault _ => simp [fate, incoming, h]
  refine ⟨Nat.le_max_left .., fun d hle hlt => Inbox.quiet_before hb ?_,
    fun t ht => Nat.max_le.2 ⟨hd t ht, hdue t ht⟩, ?_, fun w hw => absurd hw (hword w)⟩
  · exact Nat.lt_of_not_le fun hdued => Nat.not_lt_of_le (Nat.max_le.2 ⟨hle, hdued⟩) hlt
  · simp only [Inbox.got, Inbox.fateBy, harrived, (hfate _).1, (hfate _).2, List.append_nil]
    exact hwhat

theorem await_timely {deadline : Option Instant} {now : Instant}
    (hd : ∀ t, deadline = some t → now ≤ t) (buffer : List UInt8) (arrivals : List Arrival) :
    (await deadline now buffer arrivals).Timely deadline now ⟨buffer, arrivals⟩ := by
  fun_induction await deadline now buffer arrivals with
  | case1 _ _ _ _ hb | case4 _ _ _ _ _ _ hb => exact timely_of_decode hd hb
  | case2 _ _ _ hb _ hdl => exact ⟨hdl, Inbox.quiet_nil hb _, fun _ _ => ⟨rfl, rfl⟩⟩
  | case3 _ _ _ hb hdl => exact ⟨hdl, Inbox.quiet_nil hb⟩
  | case5 _ _ _ _ _ hb _ hp =>
    obtain ⟨hdl, hlt⟩ := Option.filter_eq_some_iff.1 hp
    exact ⟨hdl, Inbox.quiet_before hb (by simpa using hlt), fun _ _ => ⟨rfl, rfl⟩⟩
  | case6 now _ a _ _ hb hp _ _ hin ih =>
    -- Bytes come in before the deadline passes: waiting goes on, with more in the buffer.
    have hdue : ∀ t, deadline = some t → a.due ≤ t := by
      intro t ht
      simpa [passesBefore, ht] using hp
    exact (ih fun t ht => Nat.max_le.2 ⟨hd t ht, hdue t ht⟩).of_read (Inbox.sameFrom_of_read hin)
      (fun _ => Inbox.quiet_before hb) hdue
  | case7 _ buffer _ _ _ hb hp _ hin =>
    have hlt := Codec.length_lt_of_decode_eq_none hb
    refine timely_of_end hd hp hb (by simp [hin]) (by rw [readable_of_short hlt, hin]) fun w => ?_
    rw [atEnd_of_short hlt]
    split <;> simp
  | case8 _ _ _ _ _ hb hp _ _ hin =>
    have hlt := Codec.length_lt_of_decode_eq_none hb
    exact timely_of_end hd hp hb (by simp [hin]) (by rw [readable_of_short hlt, hin]) (by simp)

/-! ## Words that have been taken -/

/-- The inbox of a connection that has taken the first `n` words of a stream by `t`: from then on it
has got what has come in of the stream by any time, less these words. -/
structure Inbox.Trails (arrivals : List Arrival) (n : Nat) (t : Instant) (i : Inbox) : Prop where
  enough : ∀ d, t ≤ d → 4 * n ≤ (incoming (dueBy d arrivals)).length
  got : ∀ d, t ≤ d → i.got d = (incoming (dueBy d arrivals)).drop (4 * n)
  fateBy : ∀ d, t ≤ d → i.fateBy d = fate (dueBy d arrivals)

namespace Inbox.Trails

variable {arrivals : List Arrival} {n : Nat} {t now u : Instant} {i rest : Inbox}
  {deadline : Option Instant}

theorem fresh (arrivals : List Arrival) (t : Instant) : Trails arrivals 0 t ⟨[], arrivals⟩ where
  enough := fun _ _ => Nat.zero_le _
  got := fun _ _ => rfl
  fateBy := fun _ _ => rfl

theorem mono (h : Trails arrivals n t i) (htu : t ≤ u) : Trails arrivals n u i where
  enough := fun d hd => h.enough d (Nat.le_trans htu hd)
  got := fun d hd => h.got d (Nat.le_trans htu hd)
  fateBy := fun d hd => h.fateBy d (Nat.le_trans htu hd)

theorem word {w : Word} (h : Trails arrivals n t i) (hnow : t ≤ now)
    (ha : (Awaited.received u (.word w) rest).Timely deadline now i) :
    Trails arrivals (n + 1) u rest := by
  obtain ⟨hu, -, -, hwhat, hrest⟩ := ha
  have htu : t ≤ u := Nat.le_trans hnow hu
  have hfour : 4 ≤ (i.got u).length := readable_word_iff.1 ⟨w, hwhat⟩
  refine ⟨fun d hd => ?_, fun d hd => ?_, fun d hd => ?_⟩
  · have hlater := Nat.le_trans hfour (i.length_got_le hd)
    rw [h.got d (Nat.le_trans htu hd), List.length_drop] at hlater
    omega
  · rw [(hrest w rfl d hd).1, h.got d (Nat.le_trans htu hd), List.drop_drop]
    rfl
  · rw [(hrest w rfl d hd).2, h.fateBy d (Nat.le_trans htu hd)]

theorem silence (h : Trails arrivals n t i) (hnow : t ≤ u) (hrest : rest.SameFrom u i) :
    Trails arrivals n u rest := by
  refine ⟨fun d hd => h.enough d (Nat.le_trans hnow hd), fun d hd => ?_, fun d hd => ?_⟩
  · rw [(hrest d hd).1, h.got d (Nat.le_trans hnow hd)]
  · rw [(hrest d hd).2, h.fateBy d (Nat.le_trans hnow hd)]

/-- A quiet inbox has no word that was not taken. -/
theorem wordsBy_of_quiet (h : Trails arrivals n t i) (htu : t ≤ u) (hq : i.Quiet u) :
    wordsBy u arrivals = n := by
  have henough := h.enough u htu
  have hlt := hq.1
  rw [h.got u htu, List.length_drop] at hlt
  unfold wordsBy
  omega

/-- Behind the words that were taken there is one more. -/
theorem four_le_got (h : Trails arrivals n t i) (htu : t ≤ u) (hmore : n < wordsBy u arrivals) :
    4 ≤ (i.got u).length := by
  unfold wordsBy at hmore
  rw [h.got u htu, List.length_drop]
  omega

end Inbox.Trails

end StreamServer.Control
