/-
What a control connection does depends on its peer through the words alone:
which they are and when the last byte of each is there, and how and when the
stream ends. How the bytes are cut into pieces, and how early the first three
of a word come in, makes no difference to any result, to any time, to what is
written or to what is said.

Two inboxes are alike from a time on when they hold the same bytes in the end,
and by any later time the same number of words and the same end. Waiting keeps
them alike, and acts on nothing else.
-/
import StreamServer.Proofs.Likeness

namespace StreamServer

/-- What a script brings; pieces that carry nothing are passed over. -/
def Script.reads (p : Script) : List Arrival := p.arrivals.filter (!·.isEmpty)

/-! ## Words and when they are complete -/

namespace Control

open Arrival

/-- The bytes that come in before the stream ends, each with the time from which on it can be read:
no byte can be read before those in front of it. -/
def deliveries : Instant → List Arrival → List (Instant × UInt8)
  | _, [] => []
  | now, a :: rest =>
    match a.input with
    | .bytes data => data.map (max now a.due, ·) ++ deliveries (max now a.due) rest
    | .ended | .fault _ => []

/-- How a stream ends, if it does, and from when on that can be read. -/
def ending : Instant → List Arrival → Option (Instant × Input)
  | _, [] => none
  | now, a :: rest =>
    match a.input with
    | .bytes _ => ending (max now a.due) rest
    | end_ => some (max now a.due, end_)

/-- When the last byte of each word can be read. -/
def completions : List (Instant × UInt8) → List Instant
  | _ :: _ :: _ :: (t, _) :: rest => t :: completions rest
  | _ => []

/-- Both bring the same bytes, complete each word at the same time, and end in the same way at the
same time. Times count from the opening of the stream. -/
structure SameWords (arrivals arrivals' : List Arrival) : Prop where
  bytes : incoming arrivals = incoming arrivals'
  words : completions (deliveries 0 arrivals) = completions (deliveries 0 arrivals')
  ends : ending 0 arrivals = ending 0 arrivals'

instance (arrivals arrivals' : List Arrival) : Decidable (SameWords arrivals arrivals') :=
  decidable_of_iff (incoming arrivals = incoming arrivals' ∧
      completions (deliveries 0 arrivals) = completions (deliveries 0 arrivals') ∧
      ending 0 arrivals = ending 0 arrivals')
    ⟨fun ⟨h₁, h₂, h₃⟩ => ⟨h₁, h₂, h₃⟩, fun ⟨h₁, h₂, h₃⟩ => ⟨h₁, h₂, h₃⟩⟩

theorem le_of_mem_deliveries {now : Instant} {arrivals : List Arrival} {x : Instant × UInt8}
    (h : x ∈ deliveries now arrivals) : now ≤ x.1 := by
  induction arrivals generalizing now with
  | nil => cases h
  | cons a arrivals ih =>
    cases hin : a.input with
    | bytes data =>
      simp only [deliveries, hin, List.mem_append, List.mem_map] at h
      rcases h with ⟨_, _, rfl⟩ | h
      · exact Nat.le_max_left ..
      · exact Nat.le_trans (Nat.le_max_left ..) (ih h)
    | ended | fault _ => simp [deliveries, hin] at h

/-- Nothing is there before what comes in front of it. -/
theorem deliveries_sorted (now : Instant) (arrivals : List Arrival) :
    (deliveries now arrivals).Pairwise (·.1 ≤ ·.1) := by
  induction arrivals generalizing now with
  | nil => exact .nil
  | cons a arrivals ih =>
    cases hin : a.input with
    | bytes data =>
      simp only [deliveries, hin]
      refine List.pairwise_append.2 ⟨?_, ih _, fun x hx y hy => ?_⟩
      · exact List.pairwise_map.2 (List.pairwise_of_forall fun _ _ => Nat.le_refl _)
      · obtain ⟨_, _, rfl⟩ := List.mem_map.1 hx
        exact le_of_mem_deliveries hy
    | ended | fault _ => simp [deliveries, hin]

theorem takeWhile_deliveries_of_lt {now d : Instant} (h : d < now) (arrivals : List Arrival) :
    (deliveries now arrivals).takeWhile (·.1 ≤ d) = [] := by
  cases hl : deliveries now arrivals with
  | nil => rfl
  | cons x rest =>
    have hx : now ≤ x.1 := le_of_mem_deliveries (by rw [hl]; exact List.mem_cons_self)
    rw [List.takeWhile_cons_of_neg]
    simpa using Nat.lt_of_lt_of_le h hx

theorem deliveries_max (now : Instant) (a : Arrival) (arrivals : List Arrival) :
    deliveries (max now a.due) (a :: arrivals) = deliveries now (a :: arrivals) := by
  simp only [deliveries, Nat.max_assoc, Nat.max_self]

theorem ending_max (now : Instant) (a : Arrival) (arrivals : List Arrival) :
    ending (max now a.due) (a :: arrivals) = ending now (a :: arrivals) := by
  simp only [ending, Nat.max_assoc, Nat.max_self]

theorem le_of_ending {now : Instant} {arrivals : List Arrival} {x : Instant × Input}
    (h : ending now arrivals = some x) : now ≤ x.1 := by
  induction arrivals generalizing now with
  | nil => cases h
  | cons a arrivals ih =>
    refine Nat.le_trans (Nat.le_max_left now a.due) ?_
    cases hin : a.input with
    | bytes data =>
      simp only [ending, hin] at h
      exact ih h
    | ended | fault _ =>
      simp only [ending, hin, Option.some.injEq] at h
      subst h
      exact Nat.le_refl _

/-- What has come in by a time are the bytes that can be read by then. -/
theorem incoming_dueBy_eq {now d : Instant} (h : now ≤ d) (arrivals : List Arrival) :
    incoming (dueBy d arrivals) = ((deliveries now arrivals).takeWhile (·.1 ≤ d)).map (·.2) := by
  induction arrivals generalizing now with
  | nil => rfl
  | cons a arrivals ih =>
    by_cases hdue : a.due ≤ d
    · have hmax : max now a.due ≤ d := Nat.max_le.2 ⟨h, hdue⟩
      have hcons : dueBy d (a :: arrivals) = a :: dueBy d arrivals := by simp [dueBy, hdue]
      rw [hcons]
      cases hin : a.input with
      | bytes data =>
        have hall : ∀ x ∈ data.map (max now a.due, ·), decide (x.1 ≤ d) = true := by
          intro x hx
          obtain ⟨_, _, rfl⟩ := List.mem_map.1 hx
          exact decide_eq_true hmax
        simp only [incoming, deliveries, hin, ih hmax]
        rw [List.takeWhile_append_of_pos hall, List.map_append, List.map_map]
        congr 1
        exact (List.map_id data).symm
      | ended | fault _ => simp [incoming, deliveries, hin]
    · have hlt : d < max now a.due := Nat.lt_of_lt_of_le (Nat.lt_of_not_le hdue) (Nat.le_max_right ..)
      have hnil : dueBy d (a :: arrivals) = [] := by simp [dueBy, hdue]
      rw [hnil, ← deliveries_max, takeWhile_deliveries_of_lt hlt]
      rfl

/-- The end that has come in by a time is the one that can be read by then. -/
theorem fate_dueBy_eq {now d : Instant} (h : now ≤ d) (arrivals : List Arrival) :
    fate (dueBy d arrivals) = ((ending now arrivals).filter (·.1 ≤ d)).map (·.2) := by
  induction arrivals generalizing now with
  | nil => rfl
  | cons a arrivals ih =>
    by_cases hdue : a.due ≤ d
    · have hmax : max now a.due ≤ d := Nat.max_le.2 ⟨h, hdue⟩
      have hcons : dueBy d (a :: arrivals) = a :: dueBy d arrivals := by simp [dueBy, hdue]
      rw [hcons]
      cases hin : a.input with
      | bytes data => simpa [fate, ending, hin] using ih hmax
      | ended | fault _ =>
        have hkept : ∀ end_ : Input, (some (max now a.due, end_)).filter (·.1 ≤ d) =
            some (max now a.due, end_) := fun _ => Option.filter_eq_some_iff.2 ⟨rfl, by simpa using hmax⟩
        simp [fate, ending, hin, hkept]
    · have hlt : d < max now a.due := Nat.lt_of_lt_of_le (Nat.lt_of_not_le hdue) (Nat.le_max_right ..)
      have hnil : dueBy d (a :: arrivals) = [] := by simp [dueBy, hdue]
      have hlate : (ending (max now a.due) (a :: arrivals)).filter (·.1 ≤ d) = none := by
        refine Option.filter_eq_none_iff.2 fun x hx => ?_
        have hle := le_of_ending hx
        simpa using Nat.lt_of_lt_of_le hlt hle
      rw [hnil, ← ending_max, hlate]
      rfl

/-- By any time as many words are there as have been completed. -/
theorem length_takeWhile_div {l : List (Instant × UInt8)} (hl : l.Pairwise (·.1 ≤ ·.1))
    (d : Instant) :
    (l.takeWhile (·.1 ≤ d)).length / 4 = ((completions l).takeWhile (· ≤ d)).length := by
  fun_induction completions l with
  | case1 a b c t byte rest ih =>
    simp only [List.pairwise_cons] at hl
    obtain ⟨ha, hb, hc, -, hrest⟩ := hl
    by_cases ht : t ≤ d
    · -- The bytes in front of the last of a word are there when that is.
      have ha' : a.1 ≤ d := Nat.le_trans (ha (t, byte) (by simp)) ht
      have hb' : b.1 ≤ d := Nat.le_trans (hb (t, byte) (by simp)) ht
      have hc' : c.1 ≤ d := Nat.le_trans (hc (t, byte) (by simp)) ht
      simp only [List.takeWhile_cons, ht, ha', hb', hc', decide_true, if_true, List.length_cons,
        ← ih hrest]
      omega
    · -- However many of the other three are there, the word is not complete.
      by_cases ha' : a.1 ≤ d <;> by_cases hb' : b.1 ≤ d <;> by_cases hc' : c.1 ≤ d <;>
        simp [ht, ha', hb', hc']
  | case2 l hshort =>
    have hlt : l.length < 4 := by
      rcases l with _ | ⟨a, _ | ⟨b, _ | ⟨c, _ | ⟨⟨t, byte⟩, rest⟩⟩⟩⟩
      · simp
      · simp
      · simp
      · simp
      · exact (hshort a b c t byte rest rfl).elim
    have hle : (l.takeWhile (·.1 ≤ d)).length ≤ l.length := (List.takeWhile_prefix _).length_le
    exact Nat.div_eq_of_lt (Nat.lt_of_le_of_lt hle hlt)

/-! ## Counting from the opening of a stream -/

/-- Arrivals whose times have counted from `opened`. -/
def postpone (opened : Instant) (arrivals : List Arrival) : List Arrival :=
  arrivals.map fun a => { a with due := opened + a.due }

theorem incoming_postpone (opened : Instant) (arrivals : List Arrival) :
    incoming (postpone opened arrivals) = incoming arrivals := by
  induction arrivals with
  | nil => rfl
  | cons a arrivals ih =>
    cases hin : a.input with
    | bytes data => simpa [postpone, incoming, hin] using ih
    | ended | fault _ => simp [postpone, incoming, hin]

theorem deliveries_postpone (opened now : Instant) (arrivals : List Arrival) :
    deliveries (opened + now) (postpone opened arrivals) =
      (deliveries now arrivals).map fun x => (opened + x.1, x.2) := by
  induction arrivals generalizing now with
  | nil => rfl
  | cons a arrivals ih =>
    cases hin : a.input with
    | bytes data =>
      have hrest := ih (max now a.due)
      simp only [postpone] at hrest
      simp [postpone, deliveries, hin, Nat.add_max_add_left, hrest]
    | ended | fault _ => simp [postpone, deliveries, hin]

theorem ending_postpone (opened now : Instant) (arrivals : List Arrival) :
    ending (opened + now) (postpone opened arrivals) =
      (ending now arrivals).map fun x => (opened + x.1, x.2) := by
  induction arrivals generalizing now with
  | nil => rfl
  | cons a arrivals ih =>
    cases hin : a.input with
    | bytes data =>
      have hrest := ih (max now a.due)
      simp only [postpone] at hrest
      simp [postpone, ending, hin, Nat.add_max_add_left, hrest]
    | ended | fault _ => simp [postpone, ending, hin, Nat.add_max_add_left]

theorem completions_map (opened : Instant) (l : List (Instant × UInt8)) :
    completions (l.map fun x => (opened + x.1, x.2)) = (completions l).map (opened + ·) := by
  fun_induction completions l with
  | case1 a b c t byte rest ih => simp [completions, ih]
  | case2 l hshort =>
    rcases l with _ | ⟨a, _ | ⟨b, _ | ⟨c, _ | ⟨⟨t, byte⟩, rest⟩⟩⟩⟩
    · rfl
    · rfl
    · rfl
    · rfl
    · exact (hshort a b c t byte rest rfl).elim

namespace SameWords

variable {arrivals arrivals' : List Arrival} {opened d : Instant}

theorem wordsBy_eq (h : SameWords arrivals arrivals') (hd : opened ≤ d) :
    wordsBy d (postpone opened arrivals) = wordsBy d (postpone opened arrivals') := by
  have count : ∀ arrivals, wordsBy d (postpone opened arrivals) =
      (((completions (deliveries 0 arrivals)).map (opened + ·)).takeWhile (· ≤ d)).length := by
    intro arrivals
    unfold wordsBy
    rw [incoming_dueBy_eq hd, List.length_map, length_takeWhile_div (deliveries_sorted ..)]
    rw [← completions_map, ← deliveries_postpone]
    rfl
  rw [count, count, h.words]

theorem fate_eq (h : SameWords arrivals arrivals') (hd : opened ≤ d) :
    fate (dueBy d (postpone opened arrivals)) = fate (dueBy d (postpone opened arrivals')) := by
  have found : ∀ arrivals, fate (dueBy d (postpone opened arrivals)) =
      (((ending 0 arrivals).map fun x => (opened + x.1, x.2)).filter (·.1 ≤ d)).map (·.2) := by
    intro arrivals
    rw [fate_dueBy_eq hd, ← ending_postpone]
    rfl
  rw [found, found, h.ends]

end SameWords

/-! ## Inboxes that are alike -/

namespace Inbox

/-- From a time on no difference between two inboxes can be told by waiting for words. -/
structure Alike (t : Instant) (i j : Inbox) : Prop where
  bytes : i.bytes = j.bytes
  words : ∀ d, t ≤ d → (i.got d).length / 4 = (j.got d).length / 4
  ends : ∀ d, t ≤ d → i.fateBy d = j.fateBy d

variable {t now u v d : Instant} {i j rest rest' : Inbox} {deadline : Option Instant}

theorem Alike.symm (h : Alike t i j) : Alike t j i where
  bytes := h.bytes.symm
  words d hd := (h.words d hd).symm
  ends d hd := (h.ends d hd).symm

theorem Alike.mono (h : Alike t i j) (htu : t ≤ u) : Alike u i j where
  bytes := h.bytes
  words d hd := h.words d (Nat.le_trans htu hd)
  ends d hd := h.ends d (Nat.le_trans htu hd)

/-- The first word that has come in is the first of the stream. -/
theorem take?_bytes_of_length (h : 4 ≤ (i.got d).length) :
    ∃ w left, Word.take? i.bytes = some (w, left) ∧
      ∀ end_, readable (i.got d) end_ = some (.word w) := by
  cases hw : Word.take? (i.got d) with
  | none => exact absurd h (Nat.not_le_of_lt (Word.take?_eq_none_iff.1 hw))
  | some p =>
    obtain ⟨more, hmore⟩ := i.got_prefix_bytes d
    exact ⟨p.1, p.2 ++ more, hmore ▸ Word.take?_append hw more, fun _ => readable_of_take? hw⟩

/-- When a stream has ended, everything has come in. -/
theorem got_of_fateBy {end_ : Input} (h : i.fateBy d = some end_) : i.got d = i.bytes := by
  have hall : fate (inTime (some d) i.arrivals) = some end_ := h
  exact congrArg (i.buffer ++ ·) (incoming_inTime hall).1

theorem Alike.readable_eq (h : Alike t i j) (hd : t ≤ d) :
    readable (i.got d) (i.fateBy d) = readable (j.got d) (j.fateBy d) := by
  have hwords := h.words d hd
  have hends := h.ends d hd
  by_cases hi : 4 ≤ (i.got d).length
  · obtain ⟨w, left, hw, hread⟩ := take?_bytes_of_length hi
    obtain ⟨w', left', hw', hread'⟩ := take?_bytes_of_length (i := j) (d := d) (by omega)
    rw [h.bytes, hw'] at hw
    cases hw
    rw [hread, hread']
  · rw [readable_of_short (Nat.lt_of_not_le hi), readable_of_short (by omega), hends]
    cases hj : j.fateBy d with
    | none => rfl
    | some end_ =>
      -- The bytes that are left over count only at the end, and then all of them are there.
      rw [got_of_fateBy (hends.trans hj), got_of_fateBy hj, h.bytes]

theorem Alike.of_word {w : Word} (h : Alike t i j) (htu : t ≤ u)
    (hi : ∀ d, u ≤ d → rest.got d = (i.got d).drop 4 ∧ rest.fateBy d = i.fateBy d)
    (hj : ∀ d, u ≤ d → rest'.got d = (j.got d).drop 4 ∧ rest'.fateBy d = j.fateBy d)
    (hw : Word.take? i.bytes = some (w, rest.bytes)) (hw' : Word.take? j.bytes = some (w, rest'.bytes)) :
    Alike u rest rest' where
  bytes := by
    rw [h.bytes, hw'] at hw
    exact (congrArg Prod.snd (Option.some.inj hw)).symm
  words d hd := by
    have hwords := h.words d (Nat.le_trans htu hd)
    rw [(hi d hd).1, (hj d hd).1, List.length_drop, List.length_drop]
    omega
  ends d hd := by rw [(hi d hd).2, (hj d hd).2, h.ends d (Nat.le_trans htu hd)]

theorem Alike.of_silence (h : Alike t i j) (htu : t ≤ u) (hi : rest.SameFrom u i)
    (hj : rest'.SameFrom u j) (hb : rest.bytes = i.bytes) (hb' : rest'.bytes = j.bytes) :
    Alike u rest rest' where
  bytes := by rw [hb, hb', h.bytes]
  words d hd := by rw [(hi d hd).1, (hj d hd).1, h.words d (Nat.le_trans htu hd)]
  ends d hd := by rw [(hi d hd).2, (hj d hd).2, h.ends d (Nat.le_trans htu hd)]

end Inbox

/-- Waiting can tell no difference between inboxes that are alike. -/
theorem await_alike {t now : Instant} {deadline : Option Instant} {i j : Inbox}
    (h : i.Alike t j) (htn : t ≤ now) (hd : ∀ d, deadline = some d → now ≤ d) :
    (await deadline now i.buffer i.arrivals).AlikeBy Inbox.Alike
      (await deadline now j.buffer j.arrivals) := by
  have hagrees := await_agrees (fun _ => h.readable_eq) htn hd
  have hi := await_timely hd i.buffer i.arrivals
  have hj := await_timely hd j.buffer j.arrivals
  have hfi := await_fits deadline now i.buffer i.arrivals
  have hfj := await_fits deadline now j.buffer j.arrivals
  generalize await deadline now i.buffer i.arrivals = a at hagrees hi hfi
  generalize await deadline now j.buffer j.arrivals = b at hagrees hj hfj
  cases hagrees with
  | @received u what rest rest' =>
    obtain ⟨hu, -, -, -, hrest⟩ := hi
    obtain ⟨-, -, -, -, hrest'⟩ := hj
    have htu : t ≤ u := Nat.le_trans htn hu
    cases what with
    | word w => exact .word (h.of_word htu (hrest w rfl) (hrest' w rfl) hfi.1 hfj.1)
    | closed => exact .finished nofun
    | failed e => exact .finished nofun
  | @silence u rest rest' =>
    have htu : t ≤ u := Nat.le_trans htn (hd u hi.1)
    exact .silence (h.of_silence htu hi.2.2 hj.2.2 hfi.1 hfj.1)
  | never => exact .never

end Control

/-! ## Connections that are alike -/

namespace Link

open Control

/-- The connections differ at most in how the bytes to be read are cut and in when each comes in,
and from `t` on that makes no difference to waiting. -/
abbrev Alike (t : Instant) (l m : Link) : Prop := AlikeBy Inbox.Alike t l m

theorem next_alike {l m : Link} {t now : Instant} (h : l.Alike t m) (htn : t ≤ now) :
    (l.next now).AlikeBy Inbox.Alike (m.next now) := by
  obtain ⟨hm, halike⟩ := h
  have hlive : m.liveness = l.liveness := by rw [hm]; rfl
  refine next_alikeBy (fun h => h.mono) hm ?_
  unfold sight
  rw [hlive]
  exact await_alike halike htn fun _ => Instant.le_of_timeout?

/-! ## Whole conversations -/

/-- What an onlooker sees of a step on a connection: when it is over and what comes of it, unless it
never is; whether a ping is outstanding then; all that has been written, and when; and what is said. -/
structure Glimpse (α : Type) where
  outcome : Option (Instant × Except ConnectionError α)
  outstanding : Bool
  written : List (Instant × List UInt8)
  log : Log

def Turn.glimpse (turn : Turn) : Glimpse Event where
  outcome := turn.outcome
  outstanding := turn.link.pingOutstanding
  written := turn.link.stream.outlet.written
  log := turn.log

theorem Turn.glimpse_eq {turn turn' : Turn} {rest : Inbox} (h : turn' = turn.withInbox rest) :
    turn'.glimpse = turn.glimpse := by
  rw [h]
  rfl

/-- Takes one turn after another, each so much later than the one before was over, until the stream
is over or a turn never is. -/
def talk (l : Link) (t : Instant) : (waits : List Nat) → List (Glimpse Event)
  | [] => []
  | wait :: waits =>
    let turn := l.next (t + wait)
    turn.glimpse :: match turn.outcome with
      | some (u, result) => if reportsEnd result then [] else talk turn.link u waits
      | none => []

theorem talk_alike {l m : Link} {t : Instant} (h : l.Alike t m) (waits : List Nat) :
    l.talk t waits = m.talk t waits := by
  induction waits generalizing l m t with
  | nil => rfl
  | cons wait waits ih =>
    obtain ⟨hsame, hlink⟩ := next_alike h (Nat.le_add_right t wait)
    have hglimpse := Turn.glimpse_eq hsame
    have houtcome := congrArg Glimpse.outcome hglimpse
    simp only [Turn.glimpse] at houtcome
    simp only [talk, hglimpse, houtcome]
    congr 1
    cases ho : (l.next (t + wait)).outcome with
    | none => rfl
    | some p =>
      obtain ⟨u, result⟩ := p
      dsimp only
      by_cases hend : reportsEnd result = true
      · rw [if_pos hend, if_pos hend]
      · rw [if_neg hend, if_neg hend]
        exact ih (hlink u result ho (eq_false_of_ne_true hend))

end Link

namespace Control

/-- Both exchanges end at the same time and with the same. -/
abbrev Handshake.Alike : Handshake → Handshake → Prop := AlikeBy Inbox.Alike

theorem handshake_alike {stream : Stream} {arrivals : List Arrival} {now : Instant}
    (h : Inbox.Alike now ⟨[], stream.arrivals⟩ ⟨[], arrivals⟩) (timeout : Duration) :
    (handshake timeout stream now).Alike
      (handshake timeout { stream with arrivals := arrivals } now) :=
  handshake_alikeBy (fun _ ht => await_alike h ht (by simp)) timeout

/-- Opens a stream that does as the script says, shakes hands on it and takes turns: what an onlooker
sees. -/
def converse (timeout : Duration) (p : Script) (serial : Nat) (peer : String) (opened : Instant)
    (waits : List Nat) : Link.Glimpse UInt16 × List (Link.Glimpse Event) :=
  match handshake timeout (p.openAt serial peer opened) opened with
  | .linked t link =>
    (⟨some (t, .ok link.dataPort), link.pingOutstanding, link.stream.outlet.written, []⟩,
      link.talk t waits)
  | .failed t e stream => (⟨some (t, .error e), false, stream.outlet.written, []⟩, [])
  | .never stream => (⟨none, false, stream.outlet.written, []⟩, [])

/-- Streams that bring the same words are alike from their opening on. -/
theorem SameWords.alike {p : Script} {arrivals : List Arrival}
    (h : SameWords p.reads { p with arrivals := arrivals }.reads) (opened : Instant) :
    Inbox.Alike opened ⟨[], postpone opened p.reads⟩
      ⟨[], postpone opened { p with arrivals := arrivals }.reads⟩ where
  bytes := by simp [Inbox.bytes, incoming_postpone, h.bytes]
  words d hd := by simpa [Inbox.got, wordsBy] using h.wordsBy_eq hd
  ends d hd := h.fate_eq hd

/-- **What a control connection does depends on the words of its peer alone.** Let two peers differ
only in the pieces their bytes come in and in the times of these pieces, but so that the bytes are the
same, the last byte of each word is there at the same time, and the stream ends in the same way at the
same time, or in neither case. Then shaking hands and any turns after that, each begun any time after
the one before, come to the same: the same port, events and errors at the same times, the same pings
outstanding, the same bytes written at the same times, and the same said. -/
theorem timing_of_words {p : Script} {arrivals : List Arrival}
    (h : SameWords p.reads { p with arrivals := arrivals }.reads) (timeout : Duration)
    (serial : Nat) (peer : String) (opened : Instant) (waits : List Nat) :
    converse timeout p serial peer opened waits =
      converse timeout { p with arrivals := arrivals } serial peer opened waits := by
  have hshake : (handshake timeout (p.openAt serial peer opened) opened).Alike
      (handshake timeout ({ p with arrivals := arrivals }.openAt serial peer opened) opened) :=
    handshake_alike (h.alike opened) timeout
  unfold converse
  generalize handshake timeout (p.openAt serial peer opened) opened = a at hshake
  generalize handshake timeout ({ p with arrivals := arrivals }.openAt serial peer opened) opened = b
    at hshake
  cases hshake with
  | @linked t l m h =>
    have htalk := Link.talk_alike h waits
    rw [h.1] at htalk
    simp only
    rw [h.1, htalk]
    rfl
  | failed h => simp [h]
  | never h => simp [h]

/-- A peer whose words come in pieces: the answer to START in two, and the next word together with
the second of them, but for its last byte. -/
def choppyPeer : Script where
  arrivals := [⟨0, .bytes [0xb4, 0x15]⟩, ⟨1, .bytes [0, 0, 1, 0, 0]⟩, ⟨6, .bytes [0, 7]⟩, ⟨8, .ended⟩]
  obstacles := []
  closeFault := none

/-- The same words, each in one piece. -/
def wholeWords : List Arrival :=
  [⟨1, .bytes [0xb4, 0x15, 0, 0]⟩, ⟨3, .bytes []⟩, ⟨6, .bytes [1, 0, 0, 0]⟩, ⟨7, .bytes [7]⟩, ⟨8, .ended⟩]

/-- The connection to the first of them, opened at 5, when hands have been shaken. -/
def choppyLink : Link where
  stream := { choppyPeer.openAt 0 "peer" 5 with
    arrivals := [⟨11, .bytes [0, 7]⟩, ⟨13, .ended⟩], outlet := ⟨[], [(5, Command.start.encode)]⟩ }
  buffer := [1, 0, 0]
  dataPort := 5556
  liveness := .fresh (.ofMillis 3)

/-- A ping goes out while three bytes of a word are there, the word is dispatched when the fourth is,
and the byte that is left over is reported: on both peers alike. -/
theorem timing_of_words_choppyPeer :
    SameWords choppyPeer.reads { choppyPeer with arrivals := wholeWords }.reads ∧
      converse (.ofMillis 3) choppyPeer 0 "peer" 5 [0, 0, 0] =
        converse (.ofMillis 3) { choppyPeer with arrivals := wholeWords } 0 "peer" 5 [0, 0, 0] ∧
      (converse (.ofMillis 3) choppyPeer 0 "peer" 5 [0, 0, 0]).2.map (·.outcome) =
        [some (9, .ok .pingSent), some (11, .ok .openData),
          some (13, .error (.receive (.truncated 1)))] := by
  have same : SameWords choppyPeer.reads { choppyPeer with arrivals := wholeWords }.reads := by
    decide +kernel
  have linked : handshake (.ofMillis 3) (choppyPeer.openAt 0 "peer" 5) 5 = .linked 6 choppyLink := by
    decide +kernel
  have pinged : (choppyLink.next 6).outcome = some (9, .ok .pingSent) := rfl
  have ordered : ((choppyLink.next 6).link.next 9).outcome = some (11, .ok .openData) := rfl
  have ended : (((choppyLink.next 6).link.next 9).link.next 11).outcome =
      some (13, .error (.receive (.truncated 1))) := rfl
  refine ⟨same, timing_of_words same .., ?_⟩
  unfold converse
  rw [linked]
  simp [Link.talk, Link.Turn.glimpse, Link.reportsEnd, pinged, ordered, ended]

end Control

end StreamServer
