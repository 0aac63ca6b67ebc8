/-
Connections that differ in what is left to be read and in nothing else. What
is to be read is looked at by waiting alone, so if waiting comes to the same
on both, at the same time, then so does a turn, and so does shaking hands.

What is left to be read is then alike again, in whatever way it was: `R` says
in which, from a time on.
-/
import StreamServer.Proofs.Delivery

namespace StreamServer

namespace Control

/-! ## Waiting -/

/-- Both waits end at the same time and with the same. -/
inductive Awaited.Agrees : Awaited → Awaited → Prop
  | received {u what rest rest'} : Agrees (.received u what rest) (.received u what rest')
  | silence {u rest rest'} : Agrees (.silence u rest) (.silence u rest')
  | never : Agrees .never .never

section Waiting

variable {t now u v : Instant} {i j rest rest' : Inbox} {deadline : Option Instant}
  {what what' : Received}

/-- What can be read of the inboxes is the same at any time from `t` on. -/
def Inbox.Agrees (t : Instant) (i j : Inbox) : Prop :=
  ∀ d, t ≤ d → readable (i.got d) (i.fateBy d) = readable (j.got d) (j.fateBy d)

theorem Inbox.Agrees.symm (h : i.Agrees t j) : j.Agrees t i := fun d hd => (h d hd).symm

theorem Inbox.Agrees.quiet {d : Instant} (h : i.Agrees t j) (hd : t ≤ d) (hi : i.Quiet d) :
    j.Quiet d := by
  rw [← readable_eq_none_iff, ← h d hd]
  exact readable_eq_none_iff.2 hi

/-- What one inbox gets, the other does not get later. -/
theorem le_of_timely (h : i.Agrees t j) (htn : t ≤ now)
    (hi : (Awaited.received u what rest).Timely deadline now i)
    (hj : (Awaited.received v what' rest').Timely deadline now j) : v ≤ u := by
  obtain ⟨hu, -, -, hwhat, -⟩ := hi
  obtain ⟨-, hbefore, -⟩ := hj
  refine Nat.le_of_not_lt fun hlt => ?_
  have hquiet := h.symm.quiet (Nat.le_trans htn hu) (hbefore u hu hlt)
  rw [Inbox.readable_eq_none_iff.2 hquiet] at hwhat
  cases hwhat

/-- What one inbox gets keeps the other from silence. -/
theorem not_quiet_of_timely (h : i.Agrees t j) (htn : t ≤ now)
    (hi : (Awaited.received u what rest).Timely deadline now i) (huv : u ≤ v) : ¬j.Quiet v := by
  obtain ⟨hu, -, -, hwhat, -⟩ := hi
  intro hquiet
  have hquiet' := h.symm.quiet (Nat.le_trans htn hu) (hquiet.of_le huv)
  rw [Inbox.readable_eq_none_iff.2 hquiet'] at hwhat
  cases hwhat

/-- Waiting can tell no difference between inboxes of which the same can be read. -/
theorem await_agrees (h : i.Agrees t j) (htn : t ≤ now) (hd : ∀ d, deadline = some d → now ≤ d) :
    (await deadline now i.buffer i.arrivals).Agrees (await deadline now j.buffer j.arrivals) := by
  have hi := await_timely hd i.buffer i.arrivals
  have hj := await_timely hd j.buffer j.arrivals
  generalize await deadline now i.buffer i.arrivals = a at hi
  generalize await deadline now j.buffer j.arrivals = b at hj
  cases a with
  | received u what rest =>
    cases b with
    | received v what' rest' =>
      have huv : u = v := Nat.le_antisymm (le_of_timely h.symm htn hj hi) (le_of_timely h htn hi hj)
      subst huv
      obtain ⟨hu, -, -, hwhat, -⟩ := hi
      obtain ⟨-, -, -, hwhat', -⟩ := hj
      have hsame : some what = some what' :=
        hwhat.symm.trans ((h u (Nat.le_trans htn hu)).trans hwhat')
      cases hsame
      exact .received
    | silence v rest' => exact absurd hj.2.1 (not_quiet_of_timely h htn hi (hi.2.2.1 v hj.1))
    | never => exact absurd (hj.2 u) (not_quiet_of_timely h htn hi (Nat.le_refl u))
  | silence u rest =>
    cases b with
    | received v what' rest' =>
      exact absurd hi.2.1 (not_quiet_of_timely h.symm htn hj (hj.2.2.1 u hi.1))
    | silence v rest' =>
      cases hi.1.symm.trans hj.1
      exact .silence
    | never => cases hi.1.symm.trans hj.1
  | never =>
    cases b with
    | received v what' rest' =>
      exact absurd (hi.2 v) (not_quiet_of_timely h.symm htn hj (Nat.le_refl v))
    | silence v rest' => cases hi.1.symm.trans hj.1
    | never => exact .never

end Waiting

/-- The waits agree, and what is left is alike from then on, unless the stream is over. -/
inductive Awaited.AlikeBy (R : Instant → Inbox → Inbox → Prop) : Awaited → Awaited → Prop
  | word {u w rest rest'} (h : R u rest rest') :
    AlikeBy R (.received u (.word w) rest) (.received u (.word w) rest')
  | finished {u what rest rest'} (h : ∀ w, what ≠ .word w) :
    AlikeBy R (.received u what rest) (.received u what rest')
  | silence {u rest rest'} (h : R u rest rest') : AlikeBy R (.silence u rest) (.silence u rest')
  | never : AlikeBy R .never .never

end Control

/-! ## Turns -/

namespace Link

open Control

variable {R : Instant → Inbox → Inbox → Prop} {l m : Link}

/-- The turn, with something else left to be read. -/
def Turn.withInbox (turn : Turn) (rest : Inbox) : Turn := { turn with link := turn.link.withInbox rest }

theorem sending_withInbox {now : Instant} {c : Command} {log : Log} {rest : Inbox}
    {after : Link → Instant → Turn}
    (hafter : ∀ l t, after (l.withInbox rest) t = (after l t).withInbox rest) :
    (l.withInbox rest).sending now c log after = (l.sending now c log after).withInbox rest := by
  have hsend : (l.withInbox rest).send now c =
      ((l.send now c).1, (l.send now c).2.withInbox rest) := rfl
  unfold sending
  rw [hsend]
  rcases l.send now c with ⟨sent, l'⟩
  cases sent with
  | done t =>
    dsimp only
    rw [hafter]
    rfl
  | failed t fault => rfl
  | never => rfl

/-- What is left to be read has no part in what is done with a command. -/
theorem dispatch_withInbox (l : Link) (now : Instant) (c : Command) (rest : Inbox) :
    (l.withInbox rest).dispatch now c = (l.dispatch now c).withInbox rest := by
  cases c with
  | ping => exact sending_withInbox fun _ _ => rfl
  | new | stop | start | pong | unknown _ => rfl

theorem onSilence_withInbox (l : Link) (now : Instant) (rest : Inbox) :
    (l.withInbox rest).onSilence now = (l.onSilence now).withInbox rest := by
  have hlive : (l.withInbox rest).liveness = l.liveness := rfl
  unfold onSilence
  rw [hlive]
  cases l.liveness.check now.elapsed with
  | sendPing => exact sending_withInbox fun _ _ => rfl
  | waiting => rfl
  | dead waited => rfl

/-- The connections differ at most in what is left to be read, and that is alike from `t` on. -/
def AlikeBy (R : Instant → Inbox → Inbox → Prop) (t : Instant) (l m : Link) : Prop :=
  m = l.withInbox m.inbox ∧ R t l.inbox m.inbox

namespace AlikeBy

variable {t u : Instant}

theorem mono (h : l.AlikeBy R t m) (hmono : ∀ {t u i j}, R t i j → t ≤ u → R u i j) (htu : t ≤ u) :
    l.AlikeBy R u m :=
  ⟨h.1, hmono h.2 htu⟩

theorem liveness (h : l.AlikeBy R t m) : m.liveness = l.liveness := by
  rw [h.1]
  rfl

theorem dataPort (h : l.AlikeBy R t m) : m.dataPort = l.dataPort := by
  rw [h.1]
  rfl

theorem transcript (h : l.AlikeBy R t m) : m.stream.transcript = l.stream.transcript := by
  rw [h.1]
  rfl

theorem closeLog (h : l.AlikeBy R t m) : m.closeLog = l.closeLog := by
  rw [h.1]
  rfl

end AlikeBy

/-- The turn tells that the stream is over. -/
def reportsEnd : Except ConnectionError Event → Bool
  | .error .closed | .error (.receive _) => true
  | _ => false

/-- Both turns are the same for an onlooker, and leave connections that are alike from then on,
unless the stream is over. -/
structure Turn.AlikeBy (R : Instant → Inbox → Inbox → Prop) (turn turn' : Turn) : Prop where
  same : turn' = turn.withInbox turn'.link.inbox
  link : ∀ t result, turn.outcome = some (t, result) → reportsEnd result = false →
    turn.link.AlikeBy R t turn'.link

namespace Turn.AlikeBy

variable {turn turn' : Turn}

theorem log (h : turn.AlikeBy R turn') : turn'.log = turn.log := by
  rw [h.same]
  rfl

theorem outcome (h : turn.AlikeBy R turn') : turn'.outcome = turn.outcome := by
  rw [h.same]
  rfl

theorem transcript (h : turn.AlikeBy R turn') :
    turn'.link.stream.transcript = turn.link.stream.transcript := by
  rw [h.same]
  rfl

end Turn.AlikeBy

theorem next_alikeBy {now : Instant} (hmono : ∀ {t u i j}, R t i j → t ≤ u → R u i j)
    (hm : m = l.withInbox m.inbox) (h : (l.sight now).AlikeBy R (m.sight now)) :
    (l.next now).AlikeBy R (m.next now) := by
  have hrest : ∀ rest, m.withInbox rest = l.withInbox rest := fun rest => by rw [hm]; rfl
  have later : ∀ {turn : Turn} {u rest rest'}, R u rest rest' →
      (∀ t result, turn.outcome = some (t, result) → u ≤ t) →
      (turn.withInbox rest).AlikeBy R (turn.withInbox rest') := by
    intro turn u rest rest' h hle
    exact ⟨rfl, fun t result ho _ => ⟨rfl, hmono h (hle t result ho)⟩⟩
  rw [next_eq_react, next_eq_react]
  generalize l.sight now = a at h
  generalize m.sight now = b at h
  cases h with
  | word h =>
    simp only [react, hrest, dispatch_withInbox]
    exact later h fun _ _ => le_of_dispatch
  | @finished u what rest rest' hword =>
    cases what with
    | word w => exact absurd rfl (hword w)
    | closed | failed _ =>
      simp only [react, hrest]
      refine ⟨rfl, fun v result ho hend => ?_⟩
      cases ho
      cases hend
  | silence h =>
    simp only [react, hrest, onSilence_withInbox]
    exact later h fun _ _ => le_of_onSilence
  | never => exact ⟨by rw [hm]; rfl, nofun⟩

end Link

/-! ## Shaking hands -/

namespace Control

variable {R : Instant → Inbox → Inbox → Prop}

/-- Both exchanges end at the same time and with the same. -/
inductive Handshake.AlikeBy (R : Instant → Inbox → Inbox → Prop) : Handshake → Handshake → Prop
  | linked {t l m} (h : Link.AlikeBy R t l m) : AlikeBy R (.linked t l) (.linked t m)
  | failed {t e stream stream'} (h : stream.outlet = stream'.outlet)
    (held : stream'.transcript = stream.transcript) :
    AlikeBy R (.failed t e stream) (.failed t e stream')
  | never {stream stream'} (h : stream.outlet = stream'.outlet)
    (held : stream'.transcript = stream.transcript) : AlikeBy R (.never stream) (.never stream')

theorem answered_alikeBy {a b : Awaited} (h : a.AlikeBy R b) (timeout : Duration) (stream : Stream)
    (arrivals : List Arrival) :
    (answered timeout stream a).AlikeBy R
      (answered timeout { stream with arrivals := arrivals } b) := by
  cases h with
  | @word u w rest rest' h =>
    simp only [answered]
    cases portOf? w with
    | some port => exact .linked ⟨rfl, h⟩
    | none => exact .failed rfl rfl
  | @finished u what rest rest' hword =>
    cases what with
    | word w => exact absurd rfl (hword w)
    | closed | failed _ => exact .failed rfl rfl
  | silence h => exact .never rfl rfl
  | never => exact .never rfl rfl

theorem handshake_alikeBy {stream : Stream} {arrivals : List Arrival} {now : Instant}
    (h : ∀ t, now ≤ t → (await none t [] stream.arrivals).AlikeBy R (await none t [] arrivals))
    (timeout : Duration) :
    (handshake timeout stream now).AlikeBy R
      (handshake timeout { stream with arrivals := arrivals } now) := by
  unfold handshake
  dsimp only
  cases hs : (stream.outlet.send now Command.start.encode).1 with
  | done t => exact answered_alikeBy (h t (Outlet.le_of_send (by rw [hs]; rfl))) ..
  | failed t fault => exact .failed rfl rfl
  | never => exact .never rfl rfl

end Control

end StreamServer
