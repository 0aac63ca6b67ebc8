/-
Pings on a control connection. A ping goes out only after a whole window of
silence in which none was outstanding, and the connection is given up only
when another such window has passed since it was written. A word that is
complete by the end of the window, however long it has been lying there, is
dispatched instead.

A turn sees the stream through its window alone, so all that matters of the
peer is how many words are complete when the window ends; all that matters of
the connection's past is the last ping and whether a pong was dispatched since.
-/
import StreamServer.Proofs.Delivery

namespace StreamServer

/-! ## What is written -/

namespace Link

open Control

/-- Everything written on a connection. -/
def written (l : Link) : List UInt8 := l.stream.outlet.bytes

/-- What a turn that begins at `now` writes. -/
def wrote (l : Link) (now : Instant) : List UInt8 := (l.next now).link.written.drop l.written.length

/-- When a turn that begins at `now` notices that the peer is silent, if it does. -/
def noticed (l : Link) (now : Instant) : Option Instant :=
  match l.sight now with
  | .silence t _ => some t
  | _ => none

/-- What comes of a turn that has to send `c` and does not get it sent. -/
def cutShort (c : Command) : Sent → Option (Instant × Except ConnectionError Event)
  | .failed t fault => some (t, .error (.send c.text (.io (faultText fault))))
  | _ => none

/-- A turn that ends by sending goes on when all is sent, and otherwise fails with the command cut
short. -/
theorem sending_cases (l : Link) (now : Instant) (c : Command) (log : Log)
    {after : Link → Instant → Turn} (hafter : ∀ l t, (after l t).link.written = l.written) :
    (∃ t, (l.send now c).1 = .done t ∧
      (l.sending now c log after).link = (after (l.send now c).2 t).link ∧
      (l.sending now c log after).outcome = (after (l.send now c).2 t).outcome ∧
      (l.sending now c log after).link.written = l.written ++ c.encode) ∨
    (∀ t, (l.send now c).1 ≠ .done t) ∧ (l.sending now c log after).link = (l.send now c).2 ∧
      (l.sending now c log after).outcome = cutShort c (l.send now c).1 ∧
      ∃ part, part <+: c.encode ∧ part ≠ c.encode ∧
        (l.sending now c log after).link.written = l.written ++ part := by
  obtain ⟨part, hpart, hbytes, hall⟩ := l.stream.outlet.send_bytes now c.encode
  have hsend : (l.send now c).2.written = l.written ++ part := hbytes
  have hdone : part = c.encode ↔ ∃ t, (l.send now c).1 = .done t := hall
  unfold sending
  dsimp only
  split <;> rename_i hs <;> rw [hs] at hsend hdone ⊢
  · have hwhole : part = c.encode := hdone.2 ⟨_, rfl⟩
    exact .inl ⟨_, rfl, rfl, rfl, by rw [hafter, hsend, hwhole]⟩
  · exact .inr ⟨by simp, rfl, rfl, part, hpart, by simp [hdone], hsend⟩
  · exact .inr ⟨by simp, rfl, rfl, part, hpart, by simp [hdone], hsend⟩

/-- To what was written before, the turn adds `data` or the front of it. -/
def Turn.Adds (turn : Turn) (before data : List UInt8) : Prop :=
  ∃ part, part <+: data ∧ turn.link.written = before ++ part

theorem Turn.adds_nil {turn : Turn} {before : List UInt8} (h : turn.link.written = before) :
    turn.Adds before [] :=
  ⟨[], List.prefix_refl _, by simpa using h⟩

theorem sending_adds {l : Link} {now : Instant} {c : Command} {log : Log}
    {after : Link → Instant → Turn} (hafter : ∀ l t, (after l t).link.written = l.written) :
    (l.sending now c log after).Adds l.written c.encode := by
  rcases sending_cases l now c log hafter with
    ⟨t, -, -, -, hwritten⟩ | ⟨-, -, -, part, hpart, -, hwritten⟩
  · exact ⟨c.encode, List.prefix_refl _, hwritten⟩
  · exact ⟨part, hpart, hwritten⟩

/-- What a command is answered with. -/
def answer : Command → List UInt8
  | .ping => Command.pong.encode
  | _ => []

theorem dispatch_adds (l : Link) (now : Instant) (c : Command) :
    (l.dispatch now c).Adds l.written (answer c) := by
  cases c with
  | ping => exact sending_adds fun _ _ => rfl
  | new | stop | start | pong | unknown _ => exact Turn.adds_nil rfl

/-- What a connection is probed with in silence. -/
def probe (l : Link) : List UInt8 := if l.pingOutstanding then [] else Command.ping.encode

theorem onSilence_adds (l : Link) (now : Instant) : (l.onSilence now).Adds l.written l.probe := by
  unfold onSilence Liveness.check probe pingOutstanding Liveness.isOutstanding
  cases hsent : l.liveness.sentAt with
  | none => exact sending_adds fun _ _ => rfl
  | some sent =>
    dsimp only
    by_cases hdead : l.liveness.timeout ≤ now.elapsed.since sent
    · simp only [hdead, if_true]
      exact Turn.adds_nil rfl
    · simp only [hdead, if_false]
      exact Turn.adds_nil rfl

/-! ## One turn -/

/-- What a turn has to write: the answer to the word it dispatches, or the probe of a silent peer. -/
def reply (l : Link) (now : Instant) : List UInt8 :=
  match l.sight now with
  | .received _ (.word w) _ => answer (.ofWord w)
  | .silence .. => l.probe
  | _ => []

theorem next_adds (l : Link) (now : Instant) : (l.next now).Adds l.written (l.reply now) := by
  unfold reply
  rw [next_eq_react]
  cases l.sight now with
  | received t what rest =>
    cases what with
    | word w => exact (l.withInbox rest).dispatch_adds t (.ofWord w)
    | closed | failed _ => exact Turn.adds_nil rfl
  | silence t rest => exact (l.withInbox rest).onSilence_adds t
  | never => exact Turn.adds_nil rfl

theorem wrote_prefix (l : Link) (now : Instant) : l.wrote now <+: l.reply now := by
  obtain ⟨part, hpart, hwritten⟩ := l.next_adds now
  unfold wrote
  rwa [hwritten, List.drop_left]

theorem next_of_silence {l : Link} {now u : Instant} {rest : Inbox}
    (hs : l.sight now = .silence u rest) : l.next now = (l.withInbox rest).onSilence u := by
  rw [next_eq_react, hs]
  rfl

/-- What a turn sees, it sees in time. -/
theorem sight_timely (l : Link) (now : Instant) :
    (l.sight now).Timely (now.timeout? l.liveness.timeout) now l.inbox :=
  await_timely (fun _ => Instant.le_of_timeout?) ..

/-- Silence is noticed when the timeout goes off. -/
theorem timeout?_of_silence {l : Link} {now u : Instant} {rest : Inbox}
    (hs : l.sight now = .silence u rest) : now.timeout? l.liveness.timeout = some u := by
  have htimely := l.sight_timely now
  rw [hs] at htimely
  exact htimely.1

theorem le_of_noticed {l : Link} {now c t : Instant} {r : Except ConnectionError Event}
    (hc : l.noticed now = some c) (ho : (l.next now).outcome = some (t, r)) : c ≤ t := by
  unfold noticed at hc
  split at hc <;> cases hc
  rename_i rest hs
  rw [next_of_silence hs] at ho
  exact le_of_onSilence ho

/-- A pong and a ping have no first byte in common. -/
theorem eq_nil_of_prefix_pong_ping {part : List UInt8} (hpong : part <+: Command.pong.encode)
    (hping : part <+: Command.ping.encode) : part = [] := by
  cases part with
  | nil => rfl
  | cons byte part =>
    have hfirst : byte = 0xeb := hpong.head (by simp)
    have hfirst' : byte = 0xea := hping.head (by simp)
    exact absurd (hfirst.symm.trans hfirst') (by decide)

/-- Nothing of a ping is written but in silence, when no ping is outstanding. -/
theorem silence_of_wrote_ping {l : Link} {now : Instant} (hne : l.wrote now ≠ [])
    (hping : l.wrote now <+: Command.ping.encode) :
    l.pingOutstanding = false ∧ ∃ u rest, l.sight now = .silence u rest := by
  have hreply := l.wrote_prefix now
  unfold reply at hreply
  cases hs : l.sight now with
  | received u what rest =>
    rw [hs] at hreply
    cases what with
    | word w =>
      dsimp only at hreply
      unfold answer at hreply
      split at hreply
      · exact absurd (eq_nil_of_prefix_pong_ping hreply hping) hne
      · exact absurd (List.prefix_nil.1 hreply) hne
    | closed | failed _ => exact absurd (List.prefix_nil.1 hreply) hne
  | silence u rest =>
    rw [hs] at hreply
    refine ⟨?_, u, rest, rfl⟩
    cases hout : l.pingOutstanding with
    | false => rfl
    | true =>
      simp only [probe, hout, if_true] at hreply
      exact absurd (List.prefix_nil.1 hreply) hne
  | never =>
    rw [hs] at hreply
    exact absurd (List.prefix_nil.1 hreply) hne

theorem onSilence_liveness (l : Link) (now : Instant) :
    ∃ part, (l.onSilence now).link.written = l.written ++ part ∧
      (l.onSilence now).link.liveness =
        if part = Command.ping.encode then l.liveness.pingSent now.elapsed else l.liveness := by
  unfold onSilence Liveness.check
  cases hsent : l.liveness.sentAt with
  | none =>
    dsimp only
    have hafter : ∀ (l : Link) t, ({ l with liveness := l.liveness.pingSent now.elapsed }.turn t
        (.ok .pingSent) [Log.trace t "PING sent"]).link.written = l.written := fun _ _ => rfl
    rcases sending_cases l now .ping [] hafter with
      ⟨t, -, hlink, -, hwritten⟩ | ⟨-, hlink, -, part, -, hshort, hwritten⟩
    · exact ⟨_, hwritten, by rw [hlink, if_pos rfl]; rfl⟩
    · exact ⟨part, hwritten, by rw [hlink, if_neg hshort]; rfl⟩
  | some sent =>
    refine ⟨[], ?_⟩
    rw [if_neg (by decide), List.append_nil]
    by_cases hdead : l.liveness.timeout ≤ now.elapsed.since sent
    · simp only [hdead, if_true]
      exact ⟨rfl, rfl⟩
    · simp only [hdead, if_false]
      exact ⟨rfl, rfl⟩

theorem dispatch_liveness (l : Link) (now : Instant) (c : Command) :
    (l.dispatch now c).link.liveness =
      if c = .pong then l.liveness.pongReceived else l.liveness := by
  cases c with
  | ping =>
    have hafter : ∀ (l : Link) t, (l.turn t (.ok .idle) []).link.written = l.written :=
      fun _ _ => rfl
    rcases sending_cases l now .pong [Log.debug now ("Got control command " ++ Command.ping.text)]
      hafter with ⟨t, -, hlink, -⟩ | ⟨-, hlink, -⟩
    · exact (congrArg Link.liveness hlink :)
    · exact (congrArg Link.liveness hlink :)
  | new | stop | start | pong | unknown _ => rfl

/-- All that a turn does to the ping of a connection, whether it fails or not: a pong that is
dispatched clears it, and a ping that is written whole counts from when the silence was noticed. -/
theorem liveness_next (l : Link) (now : Instant) :
    (l.next now).link.liveness =
      if l.heard now = some .pong then l.liveness.pongReceived
      else if l.wrote now = Command.ping.encode then
        l.liveness.pingSent (Instant.elapsed (now + l.liveness.timeout.ceilMillis))
      else l.liveness := by
  -- But for a silence the turn writes no ping, and what it does is what it does with the word.
  have loud : (∀ u rest, l.sight now ≠ .silence u rest) → l.wrote now ≠ Command.ping.encode := by
    intro hloud hping
    obtain ⟨-, u, rest, hs⟩ := silence_of_wrote_ping (by rw [hping]; decide)
      (by simp [hping])
    exact hloud u rest hs
  cases hs : l.sight now with
  | received u what rest =>
    rw [if_neg (loud (by simp [hs])), next_eq_react, hs]
    cases what with
    | word w =>
      rw [show l.heard now = some (.ofWord w) by simp [heard, hs]]
      simp only [Option.some.injEq]
      exact (l.withInbox rest).dispatch_liveness u (.ofWord w)
    | closed | failed _ =>
      rw [if_neg (by simp [heard, hs])]
      rfl
  | silence u rest =>
    obtain ⟨rfl, -⟩ := Instant.timeout?_eq_some_iff.1 (timeout?_of_silence hs)
    obtain ⟨part, hwritten, hlive⟩ := (l.withInbox rest).onSilence_liveness
      (now + l.liveness.timeout.ceilMillis)
    have hwrote : l.wrote now = part := by
      unfold wrote
      rw [next_of_silence hs, hwritten]
      exact List.drop_left
    rw [if_neg (by simp [heard, hs]), hwrote, next_of_silence hs]
    exact hlive
  | never =>
    rw [if_neg (loud (by simp [hs])), if_neg (by simp [heard, hs]), next_eq_react, hs]
    rfl

/-- The connection is given up only over a ping that has been outstanding for too long. -/
theorem outstanding_of_onSilence {l : Link} {now u : Instant} {waited : Duration}
    (ho : (l.onSilence now).outcome = some (u, .error (.pingTimeout waited))) :
    u = now ∧ ∃ sent, l.liveness.sentAt = some sent ∧ waited = now.elapsed.since sent ∧
      l.liveness.timeout ≤ waited := by
  unfold onSilence Liveness.check at ho
  cases hsent : l.liveness.sentAt with
  | none =>
    simp only [hsent] at ho
    obtain ⟨reason, herr⟩ := error_of_sending (fun _ _ _ _ h => by cases h) ho
    cases herr
  | some sent =>
    simp only [hsent] at ho
    by_cases hdead : l.liveness.timeout ≤ now.elapsed.since sent
    · simp only [hdead, if_true] at ho
      cases ho
      exact ⟨rfl, sent, rfl, rfl, hdead⟩
    · simp only [hdead, if_false] at ho
      cases ho

theorem silence_of_pingTimeout {l : Link} {now u : Instant} {waited : Duration}
    (ho : (l.next now).outcome = some (u, .error (.pingTimeout waited))) :
    (∃ rest, l.sight now = .silence u rest) ∧ ∃ sent, l.liveness.sentAt = some sent ∧
      waited = u.elapsed.since sent ∧ l.liveness.timeout ≤ waited := by
  rw [next_eq_react] at ho
  cases hs : l.sight now with
  | received t what rest =>
    rw [hs] at ho
    cases what with
    | word w =>
      obtain ⟨reason, herr⟩ := error_of_dispatch ho
      cases herr
    | closed | failed _ => cases ho
  | silence t rest =>
    rw [hs] at ho
    obtain ⟨rfl, hsent⟩ := outstanding_of_onSilence ho
    exact ⟨⟨rest, rfl⟩, hsent⟩
  | never =>
    rw [hs] at ho
    cases ho

/-! ## Turn after turn -/

/-- What a turn leaves in the memory of an onlooker. -/
structure Beat where
  began : Instant
  /-- When it was over, if it ever was. -/
  ended : Option Instant
  /-- The command it dispatched. -/
  heard : Option Command
  /-- When it noticed that the peer was silent. -/
  noticed : Option Instant
  wrote : List UInt8
deriving DecidableEq, Repr

def beat (l : Link) (now : Instant) : Beat where
  began := now
  ended := (l.next now).outcome.map (·.1)
  heard := l.heard now
  noticed := l.noticed now
  wrote := l.wrote now

/-- Turns on a connection one after another, each at the time the one before is over or later, and
each with a result: what they were, and the connection and the time at the end. -/
inductive History (l₀ : Link) (t₀ : Instant) : List Beat → Link → Instant → Prop
  | none : History l₀ t₀ [] l₀ t₀
  | turn {beats l t now u event} (h : History l₀ t₀ beats l t) (hnow : t ≤ now)
      (ho : (l.next now).outcome = some (u, .ok event)) :
      History l₀ t₀ (beats ++ [l.beat now]) (l.next now).link u

namespace Beat

/-- A whole ping was written. -/
def Pings (b : Beat) : Prop := b.wrote = Command.ping.encode

/-- A pong was dispatched. -/
def HearsPong (b : Beat) : Prop := b.heard = some .pong

/-- Among these turns, one wrote a ping and none since has dispatched a pong. -/
def AwaitsPong (beats : List Beat) (b : Beat) : Prop :=
  ∃ before after, beats = before ++ b :: after ∧ b.Pings ∧ ∀ x ∈ after, ¬x.HearsPong

theorem not_awaitsPong_nil (b : Beat) : ¬AwaitsPong [] b := by
  rintro ⟨before, after, h, -⟩
  simp at h

theorem awaitsPong_append_singleton {beats : List Beat} {x b : Beat} :
    AwaitsPong (beats ++ [x]) b ↔ b = x ∧ x.Pings ∨ AwaitsPong beats b ∧ ¬x.HearsPong := by
  constructor
  · rintro ⟨before, after, h, hping, hpong⟩
    rcases List.eq_nil_or_concat after with rfl | ⟨after, y, rfl⟩
    · obtain ⟨rfl, hx⟩ := List.append_inj' h rfl
      cases hx
      exact .inl ⟨rfl, hping⟩
    · rw [List.concat_eq_append, ← List.cons_append, ← List.append_assoc] at h
      obtain ⟨rfl, hx⟩ := List.append_inj' h rfl
      cases hx
      exact .inr ⟨⟨before, after, rfl, hping, fun z hz => hpong z (by simp [hz])⟩,
        hpong x (by simp)⟩
  · rintro (⟨rfl, hping⟩ | ⟨⟨before, after, rfl, hping, hpong⟩, hx⟩)
    · exact ⟨beats, [], rfl, hping, nofun⟩
    · refine ⟨before, after ++ [x], by simp, hping, fun y hy => ?_⟩
      rcases List.mem_append.1 hy with hy | hy
      · exact hpong y hy
      · exact List.mem_singleton.1 hy ▸ hx

/-- Between two turns that wrote a ping there was one that dispatched a pong. -/
def Spaced (beats : List Beat) : Prop :=
  ∀ before b between b' after, beats = before ++ b :: between ++ b' :: after → b.Pings → b'.Pings →
    ∃ x ∈ between, x.HearsPong

theorem Spaced.append_singleton {beats : List Beat} {x : Beat} (h : Spaced beats)
    (hx : x.Pings → ∀ b, ¬AwaitsPong beats b) : Spaced (beats ++ [x]) := by
  intro before b between b' after hbeats hb hb'
  rcases List.eq_nil_or_concat after with rfl | ⟨after, y, rfl⟩
  · obtain ⟨rfl, hlast⟩ := List.append_inj' hbeats rfl
    cases hlast
    -- A ping that had met with no pong would have been awaiting one.
    refine Classical.byContradiction fun hno => hx hb' b ⟨before, between, rfl, hb, ?_⟩
    exact fun y hy hpong => hno ⟨y, hy, hpong⟩
  · rw [List.concat_eq_append, ← List.cons_append, ← List.append_assoc] at hbeats
    obtain ⟨rfl, -⟩ := List.append_inj' hbeats rfl
    exact h before b between b' after rfl hb hb'

end Beat

open Beat

theorem pings_beat_iff {l : Link} {now : Instant} :
    (l.beat now).Pings ↔ l.wrote now = Command.ping.encode := Iff.rfl

theorem hearsPong_beat_iff {l : Link} {now : Instant} :
    (l.beat now).HearsPong ↔ l.heard now = some .pong := Iff.rfl

/-- A connection after these turns on a stream: its ping is the one that awaits its pong, and counts
from when the silence was noticed; its inbox lacks the answer to START and the words dispatched. -/
structure Paced (timeout : Duration) (arrivals : List Arrival) (beats : List Beat) (l : Link)
    (t : Instant) : Prop where
  timeout : l.liveness.timeout = timeout
  inbox : l.inbox.Trails arrivals ((beats.filterMap (·.heard)).length + 1) t
  awaited : l.pingOutstanding = true → ∃ b, AwaitsPong beats b
  counted : ∀ b, AwaitsPong beats b → ∃ c v, b.noticed = some c ∧ b.ended = some v ∧ c ≤ v ∧ v ≤ t ∧
    l.liveness.sentAt = some c.elapsed
  spaced : Spaced beats

namespace Paced

variable {timeout : Duration} {arrivals : List Arrival} {beats : List Beat} {l : Link}
  {t now u : Instant}

theorem outstanding_iff (h : Paced timeout arrivals beats l t) :
    l.pingOutstanding = true ↔ ∃ b, AwaitsPong beats b := by
  refine ⟨h.awaited, fun ⟨b, hb⟩ => ?_⟩
  obtain ⟨c, v, -, -, -, -, hsent⟩ := h.counted b hb
  simp [pingOutstanding, Liveness.isOutstanding, hsent]

theorem of_handshake {stream : Stream} {opened : Instant}
    (h : handshake timeout stream opened = .linked t l) :
    Paced timeout stream.arrivals [] l t := by
  unfold handshake at h
  dsimp only at h
  split at h
  · rename_i sent _
    have htimely : (await none sent [] stream.arrivals).Timely none sent ⟨[], stream.arrivals⟩ :=
      await_timely (by simp) ..
    unfold answered at h
    split at h
    · rename_i w rest ha
      rw [ha] at htimely
      dsimp only at h
      split at h <;> cases h
      refine ⟨rfl, (Inbox.Trails.fresh stream.arrivals sent).word (Nat.le_refl _) htimely, nofun,
        fun b hb => absurd hb (not_awaitsPong_nil b), ?_⟩
      intro before b between b' after hbeats
      simp at hbeats
    all_goals cases h
  · cases h
  · cases h

theorem not_outstanding_of_pings (hping : (l.beat now).Pings) :
    l.pingOutstanding = false ∧ l.heard now = none ∧
      l.noticed now = some (now + l.liveness.timeout.ceilMillis) := by
  rw [pings_beat_iff] at hping
  obtain ⟨hout, u, rest, hs⟩ := silence_of_wrote_ping (by rw [hping]; decide) (by simp [hping])
  obtain ⟨rfl, -⟩ := Instant.timeout?_eq_some_iff.1 (timeout?_of_silence hs)
  exact ⟨hout, by simp [Link.heard, hs], by simp [Link.noticed, hs]⟩

/-- The rule holds after any one turn more, also if that turn fails. -/
theorem outstanding_next_iff (h : Paced timeout arrivals beats l t) (now : Instant) :
    (l.next now).link.pingOutstanding = true ↔ ∃ b, AwaitsPong (beats ++ [l.beat now]) b := by
  have hrule := h.outstanding_iff
  simp only [awaitsPong_append_singleton, exists_or, exists_and_right, exists_eq, true_and, ← hrule,
    pings_beat_iff, hearsPong_beat_iff]
  -- A turn does not both hear a pong and write a ping: it writes pings in silence only.
  unfold pingOutstanding Liveness.isOutstanding
  rw [liveness_next]
  by_cases hpong : l.heard now = some .pong
  · have hping : l.wrote now ≠ Command.ping.encode := fun hping => by
      rw [(not_outstanding_of_pings hping).2.1] at hpong
      cases hpong
    simp [hpong, hping, Liveness.pongReceived]
  · by_cases hping : l.wrote now = Command.ping.encode
    · simp [hpong, hping, Liveness.pingSent]
    · simp [hpong, hping]

theorem inbox_next {event : Event} (h : Paced timeout arrivals beats l t) (hnow : t ≤ now)
    (ho : (l.next now).outcome = some (u, .ok event)) :
    (l.next now).link.inbox.Trails arrivals
      (((beats ++ [l.beat now]).filterMap (·.heard)).length + 1) u := by
  have htimely := l.sight_timely now
  cases hc : l.heard now with
  | none =>
    obtain ⟨v, rest, hs⟩ := silence_of_not_heard hc ho
    rw [hs] at htimely
    rw [next_of_silence hs] at ho ⊢
    rw [inbox_onSilence]
    obtain ⟨hv, -, hrest⟩ := htimely
    have hle : t ≤ v := Nat.le_trans hnow (Instant.le_of_timeout? hv)
    have hcount : (beats ++ [l.beat now]).filterMap (·.heard) = beats.filterMap (·.heard) := by
      simp [beat, hc]
    rw [hcount]
    exact (h.inbox.silence hle hrest).mono (le_of_onSilence ho)
  | some c =>
    unfold Link.heard at hc
    split at hc <;> cases hc
    rename_i v w rest hs
    rw [hs] at htimely
    have hnext : l.next now = (l.withInbox rest).dispatch v (.ofWord w) := by
      rw [next_eq_react, hs]
      rfl
    rw [hnext] at ho ⊢
    rw [inbox_dispatch]
    have hcount : ((beats ++ [l.beat now]).filterMap (·.heard)).length =
        (beats.filterMap (·.heard)).length + 1 := by
      simp [beat, Link.heard, hs]
    rw [hcount]
    exact (h.inbox.word hnow htimely).mono (le_of_dispatch ho)

theorem turn {event : Event} (h : Paced timeout arrivals beats l t) (hnow : t ≤ now)
    (ho : (l.next now).outcome = some (u, .ok event)) :
    Paced timeout arrivals (beats ++ [l.beat now]) (l.next now).link u where
  timeout := by
    rw [liveness_next]
    split
    · exact h.timeout
    · split <;> exact h.timeout
  inbox := h.inbox_next hnow ho
  awaited := (h.outstanding_next_iff now).1
  counted b hb := by
    rcases awaitsPong_append_singleton.1 hb with ⟨rfl, hping⟩ | ⟨hb, hpong⟩
    · obtain ⟨-, hheard, hnoticed⟩ := not_outstanding_of_pings hping
      refine ⟨_, u, hnoticed, by simp [beat, ho], le_of_noticed hnoticed ho, Nat.le_refl _, ?_⟩
      rw [liveness_next, if_neg (by simp [hheard]), if_pos (pings_beat_iff.1 hping)]
      rfl
    · -- An earlier ping still waits, so this turn wrote none and the count goes on.
      obtain ⟨c, v, hc, hv, hcv, hvt, hsent⟩ := h.counted b hb
      have hping : ¬(l.beat now).Pings := fun hping => by
        have hout := (not_outstanding_of_pings hping).1
        rw [h.outstanding_iff.2 ⟨b, hb⟩] at hout
        cases hout
      refine ⟨c, v, hc, hv, hcv, Nat.le_trans hvt (Nat.le_trans hnow (le_of_next ho)), ?_⟩
      rw [pings_beat_iff] at hping
      rw [hearsPong_beat_iff] at hpong
      rw [liveness_next, if_neg hpong, if_neg hping]
      exact hsent
  spaced := h.spaced.append_singleton fun hping b hb => by
    have hout := (not_outstanding_of_pings hping).1
    rw [h.outstanding_iff.2 ⟨b, hb⟩] at hout
    cases hout

theorem of_history {l₀ : Link} {t₀ : Instant} (h₀ : Paced timeout arrivals [] l₀ t₀)
    (h : History l₀ t₀ beats l t) : Paced timeout arrivals beats l t := by
  induction h with
  | none => exact h₀
  | turn _ hnow ho ih => exact ih.turn hnow ho

/-- A turn that meets with silence has waited in vain for a word until its deadline. -/
theorem wordsBy_of_silence {v : Instant} {rest : Inbox} (h : Paced timeout arrivals beats l t)
    (hnow : t ≤ now) (hs : l.sight now = .silence v rest) :
    now.timeout? timeout = some v ∧ wordsBy v arrivals = (beats.filterMap (·.heard)).length + 1 := by
  have htimely := l.sight_timely now
  rw [hs, h.timeout] at htimely
  obtain ⟨hv, hquiet, -⟩ := htimely
  exact ⟨hv, h.inbox.wordsBy_of_quiet (Nat.le_trans hnow (Instant.le_of_timeout? hv)) hquiet⟩

/-- A turn by whose deadline a word is complete that was not dispatched before dispatches one. -/
theorem heard_of_wordsBy {d : Instant} (h : Paced timeout arrivals beats l t) (hnow : t ≤ now)
    (hd : ∀ check, now.timeout? timeout = some check → d ≤ check)
    (hmore : (beats.filterMap (·.heard)).length + 1 < wordsBy d arrivals) :
    (l.heard now).isSome = true := by
  rw [heard_isSome_iff, h.timeout]
  cases hc : now.timeout? timeout with
  | some check =>
    have hle : t ≤ check := Nat.le_trans hnow (Instant.le_of_timeout? hc)
    exact h.inbox.four_le_got hle (Nat.lt_of_lt_of_le hmore (wordsBy_mono (hd check hc) _))
  | none =>
    -- Without a deadline all that ever comes in counts.
    have hlater := Nat.lt_of_lt_of_le hmore (wordsBy_mono (Nat.le_max_right t d) arrivals)
    exact Nat.le_trans (h.inbox.four_le_got (Nat.le_max_left t d) hlater)
      (l.inbox.got_prefix_bytes _).length_le

end Paced

/-- **One ping at a time, and no connection is given up while its peer speaks.** Let any turns have been
taken, at any times, since hands were shaken. A ping is outstanding exactly when one was written and no
pong was dispatched since, also after the next turn; between two pings there was a pong. The next turn
writes of a ping only if none is outstanding, and gives up only over one that awaits its pong, noticed to
be due `waited` ago and written before the turn; and only when, since the turn began, the timeout has
passed with no word complete but those dispatched before. Another word in time is dispatched. -/
theorem pings_one_at_a_time {timeout : Duration} {stream : Stream} {opened t₀ : Instant}
    {link : Link} (h : handshake timeout stream opened = .linked t₀ link) {beats : List Beat}
    {l : Link} {t : Instant} (hist : History link t₀ beats l t) :
    let dispatched := (beats.filterMap (·.heard)).length + 1
    (l.pingOutstanding = true ↔ ∃ b, AwaitsPong beats b) ∧
    (∀ before b between b' after, beats = before ++ b :: between ++ b' :: after →
      b.Pings → b'.Pings → ∃ x ∈ between, x.HearsPong) ∧
    ∀ now, t ≤ now →
      ((l.next now).link.pingOutstanding = true ↔ ∃ b, AwaitsPong (beats ++ [l.beat now]) b) ∧
      (l.wrote now ≠ [] → l.wrote now <+: Command.ping.encode →
        l.pingOutstanding = false ∧ ∃ check, l.noticed now = some check ∧
          now.elapsed.nanos + timeout.nanos ≤ check.elapsed.nanos ∧
          wordsBy check stream.arrivals = dispatched) ∧
      (∀ check waited, (l.next now).outcome = some (check, .error (.pingTimeout waited)) →
        l.noticed now = some check ∧ now.elapsed.nanos + timeout.nanos ≤ check.elapsed.nanos ∧
        wordsBy check stream.arrivals = dispatched ∧ timeout ≤ waited ∧
        ∃ b c v, AwaitsPong beats b ∧ b.noticed = some c ∧ b.ended = some v ∧ v ≤ now ∧
          c.elapsed.nanos + waited.nanos = check.elapsed.nanos) ∧
      ∀ d, (∀ check, now.timeout? timeout = some check → d ≤ check) →
        dispatched < wordsBy d stream.arrivals → (l.heard now).isSome = true ∧
          ∀ check waited, (l.next now).outcome ≠ some (check, .error (.pingTimeout waited)) := by
  intro dispatched
  have hl := (Paced.of_handshake h).of_history hist
  refine ⟨hl.outstanding_iff, hl.spaced, fun now hnow =>
    ⟨hl.outstanding_next_iff now, fun hne hping => ?_, fun check waited ho => ?_, fun d hd hmore => ?_⟩⟩
  · obtain ⟨hout, check, rest, hs⟩ := silence_of_wrote_ping hne hping
    obtain ⟨hcheck, hwords⟩ := hl.wordsBy_of_silence hnow hs
    exact ⟨hout, check, by simp [noticed, hs], Instant.elapsed_add_le_of_timeout? hcheck, hwords⟩
  · obtain ⟨⟨rest, hs⟩, sent, hsent, hwaited, hdead⟩ := silence_of_pingTimeout ho
    obtain ⟨hcheck, hwords⟩ := hl.wordsBy_of_silence hnow hs
    obtain ⟨b, hb⟩ := hl.awaited (by simp [pingOutstanding, Liveness.isOutstanding, hsent])
    obtain ⟨c, v, hc, hv, hcv, hvt, hcount⟩ := hl.counted b hb
    cases hsent.symm.trans hcount
    have hvnow : v ≤ now := Nat.le_trans hvt hnow
    have hcle : c ≤ check := Nat.le_trans hcv (Nat.le_trans hvnow (Instant.le_of_timeout? hcheck))
    refine ⟨by simp [noticed, hs], Instant.elapsed_add_le_of_timeout? hcheck, hwords,
      hl.timeout ▸ hdead, b, c, v, hb, hc, hv, hvnow, ?_⟩
    rw [hwaited]
    exact Nat.add_sub_cancel' (Instant.elapsed_nanos_le hcle)
  · have hheard := hl.heard_of_wordsBy hnow hd hmore
    refine ⟨hheard, fun check waited ho => ?_⟩
    obtain ⟨⟨rest, hs⟩, -⟩ := silence_of_pingTimeout ho
    simp [heard, hs] at hheard

/-- A peer that answers the first ping with a pong and then says nothing more. -/
def tiringPeer : Stream where
  serial := 0
  peer := "peer"
  opened := 0
  arrivals := [⟨0, .bytes (Word.encode 5556)⟩, ⟨3, .bytes Command.pong.encode⟩]
  outlet := ⟨[], []⟩
  closeFault := none

/-- The connection to it when hands have been shaken. -/
def tiringLink : Link where
  stream := { tiringPeer with
    arrivals := tiringPeer.arrivals.drop 1, outlet := ⟨[], [(0, Command.start.encode)]⟩ }
  buffer := []
  dataPort := 5556
  liveness := .fresh (.ofMillis 2)

/-- The connection after its first ping, after the pong and after its second ping. The server is
busy elsewhere from 2 to 10. -/
def tiredLinks : Link × Link × Link :=
  let pinged := (tiringLink.next 0).link
  let answered := (pinged.next 10).link
  (pinged, answered, (answered.next 10).link)

/-- The pong arrives while the server is busy elsewhere, for longer than the timeout, and clears the
first ping all the same. The second ping stays unanswered, and the connection is given up over it. -/
theorem pings_one_at_a_time_tiringPeer :
    handshake (.ofMillis 2) tiringPeer 0 = .linked 0 tiringLink ∧
      ∃ first busy second l, History tiringLink 0 [first, busy, second] l 12 ∧
        first.Pings ∧ busy.began = 10 ∧ busy.HearsPong ∧ second.Pings ∧
        l.pingOutstanding = true ∧
        (l.next 12).outcome = some (14, .error (.pingTimeout (.ofMillis 2))) ∧
        wordsBy 14 tiringPeer.arrivals = 2 ∧ AwaitsPong [first, busy, second] second := by
  have linked : handshake (.ofMillis 2) tiringPeer 0 = .linked 0 tiringLink := by decide +kernel
  have pinged : (tiringLink.next 0).outcome = some (2, .ok .pingSent) := rfl
  have answered : (tiredLinks.1.next 10).outcome = some (10, .ok .idle) := rfl
  have again : (tiredLinks.2.1.next 10).outcome = some (12, .ok .pingSent) := rfl
  have given_up : (tiredLinks.2.2.next 12).outcome =
      some (14, .error (.pingTimeout (.ofMillis 2))) := rfl
  have turns : History tiringLink 0
      [tiringLink.beat 0, tiredLinks.1.beat 10, tiredLinks.2.1.beat 10] tiredLinks.2.2 12 :=
    ((History.none.turn (Nat.le_refl 0) pinged).turn (by decide : 2 ≤ 10) answered).turn
      (Nat.le_refl 10) again
  have first_pings : (tiringLink.beat 0).Pings := pings_beat_iff.2 (by decide +kernel)
  have second_pings : (tiredLinks.2.1.beat 10).Pings := pings_beat_iff.2 (by decide +kernel)
  have awaits : AwaitsPong [tiringLink.beat 0, tiredLinks.1.beat 10, tiredLinks.2.1.beat 10]
      (tiredLinks.2.1.beat 10) := ⟨[_, _], [], rfl, second_pings, nofun⟩
  obtain ⟨hout, hspaced, hnext⟩ := pings_one_at_a_time linked turns
  obtain ⟨-, -, hgiven, -⟩ := hnext 12 (Nat.le_refl 12)
  obtain ⟨x, hx, hpong⟩ := hspaced [] _ [tiredLinks.1.beat 10] _ [] rfl first_pings second_pings
  rw [List.mem_singleton.1 hx] at hpong
  exact ⟨linked, _, _, _, _, turns, first_pings, rfl, hpong, second_pings, hout.2 ⟨_, awaits⟩,
    given_up, (hgiven 14 _ given_up).2.2.1, awaits⟩

end Link

end StreamServer
