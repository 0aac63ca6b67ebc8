/-
How an attempt to reach the peer ends. It is settled by what is met with, and
by nothing else: whether the dial succeeds, whether START is taken whole, which
bytes come in before the stream ends or fails, and how it does. The pieces the
bytes come in and all times have no say.

`Meets` gives the rules, one for each end; an attempt ends with a result exactly
if a rule gives it.
-/
import StreamServer.Control.Dialogue
import StreamServer.Proofs.SpokenWords
import StreamServer.Proofs.WordStream

namespace StreamServer

open Arrival

/-! ## What is met with -/

namespace Script

/-- START is taken whole, at once or when the stalls in front of its end are lifted. -/
def TakesStart (p : Script) : Prop := Obstacles.TakesAll p.obstacles.barrier? 4

/-- Writing START fails for this reason. -/
def RefusesStart (p : Script) (reason : String) : Prop :=
  ∃ room, room < 4 ∧ (p.obstacles.barrier? = some (room, .refuse reason) ∨
    p.obstacles.barrier? = some (room, .swallow) ∧ reason = "failed to write frame to transport")

/-- START is neither taken whole nor refused, ever. -/
def StallsStart (p : Script) : Prop := ∃ room, room < 4 ∧ p.obstacles.barrier? = some (room, .stall none)

theorem takesStart_or (p : Script) :
    p.TakesStart ∨ (∃ reason, p.RefusesStart reason) ∨ p.StallsStart := by
  unfold TakesStart RefusesStart StallsStart
  rcases hb : p.obstacles.barrier? with _ | ⟨room, overflow⟩
  · exact .inl nofun
  · by_cases hroom : 4 ≤ room
    · left
      intro _ h
      cases h
      exact hroom
    · have hlt : room < 4 := Nat.lt_of_not_le hroom
      rcases overflow with reason | _ | ⟨_ | t⟩
      · exact .inr (.inl ⟨reason, room, hlt, .inl rfl⟩)
      · exact .inr (.inl ⟨_, room, hlt, .inr ⟨rfl, rfl⟩⟩)
      · exact .inr (.inr ⟨room, hlt, rfl⟩)
      · exact absurd hb (Obstacles.barrier?_ne_lifting _ room t)

/-- When a stream is opened has no say in where its barrier is. -/
theorem barrier?_openAt (p : Script) (serial : Nat) (peer : String) (now : Instant) :
    (p.openAt serial peer now).outlet.obstacles.barrier? = p.obstacles.barrier? := by
  unfold openAt
  dsimp only
  induction p.obstacles with
  | nil => rfl
  | cons o rest ih =>
    obtain ⟨room, overflow⟩ := o
    rcases overflow with _ | _ | ⟨_ | t⟩
    · rfl
    · rfl
    · rfl
    · exact congrArg (Obstacles.shift room) ih

variable {p : Script} (serial : Nat) (peer : String) (opened : Instant)

/-- How the writing of START ends on a stream that was just opened. -/
def startSent (p : Script) (serial : Nat) (peer : String) (opened : Instant) : Sent :=
  ((p.openAt serial peer opened).outlet.send opened Command.start.encode).1

theorem startSent_meets : (p.startSent serial peer opened).Meets p.obstacles.barrier? 4 := by
  rw [← p.barrier?_openAt serial peer opened]
  exact Outlet.send_meets _ opened Command.start.encode

theorem TakesStart.sent (h : p.TakesStart) : ∃ t, p.startSent serial peer opened = .done t := by
  have hmeets := p.startSent_meets serial peer opened
  generalize p.startSent serial peer opened = sent at hmeets ⊢
  cases hmeets with
  | done => exact ⟨_, rfl⟩
  | failed hb hlt | never hb hlt => exact absurd hlt (Nat.not_lt_of_le (h _ hb))

theorem RefusesStart.sent {reason : String} (h : p.RefusesStart reason) :
    ∃ t fault, p.startSent serial peer opened = .failed t fault ∧ Link.faultText fault = reason := by
  have hmeets := p.startSent_meets serial peer opened
  generalize p.startSent serial peer opened = sent at hmeets ⊢
  obtain ⟨room, hlt, hb | ⟨hb, rfl⟩⟩ := h <;> rw [hb] at hmeets
  all_goals
    cases hmeets with
    | done hall => exact absurd hlt (Nat.not_lt_of_le (hall _ rfl))
    | failed hb _ hf =>
      cases hb
      cases hf
      exact ⟨_, _, rfl, rfl⟩
    | never hb => cases hb

theorem StallsStart.sent (h : p.StallsStart) : p.startSent serial peer opened = .never := by
  have hmeets := p.startSent_meets serial peer opened
  generalize p.startSent serial peer opened = sent at hmeets ⊢
  obtain ⟨room, hlt, hb⟩ := h
  rw [hb] at hmeets
  cases hmeets with
  | done hall => exact absurd hlt (Nat.not_lt_of_le (hall _ rfl))
  | failed hb _ hf =>
    cases hb
    cases hf
  | never => rfl

end Script

theorem Arrival.fate_filter (arrivals : List Arrival) :
    fate (arrivals.filter (!·.isEmpty)) = fate arrivals := by
  induction arrivals with
  | nil => rfl
  | cons a rest ih =>
    by_cases ha : a.isEmpty
    · have hin : a.input = .bytes [] := by simpa [isEmpty] using ha
      simp [ha, fate, hin, ih]
    · rw [List.filter_cons_of_pos (by simpa using ha)]
      simp only [fate]
      cases a.input <;> simp [ih]

theorem Arrival.fate_map_due (f : Instant → Instant) (arrivals : List Arrival) :
    fate (arrivals.map fun a => { a with due := f a.due }) = fate arrivals := by
  induction arrivals with
  | nil => rfl
  | cons a rest ih =>
    simp only [List.map_cons, fate]
    cases a.input <;> simp [ih]

/-- An open stream ends as its script does. -/
theorem Script.fate_openAt (p : Script) (serial : Nat) (peer : String) (now : Instant) :
    fate (p.openAt serial peer now).arrivals = fate p.arrivals :=
  (fate_map_due (now + ·) _).trans (fate_filter _)

namespace Control

/-! ## An attempt -/

namespace Attempt

/-- The data port that was agreed on, or why none was; `none` if it never comes to that. -/
def result : Attempt → Option (Except ConnectionError UInt16)
  | .dialled _ (.linked _ link) => some (.ok link.dataPort)
  | .dialled _ (.failed _ e _) | .failed _ e => some (.error e)
  | .dialled _ (.never _) | .never => none

/-- What is known of an attempt that is given up at a time. -/
def within (patience : Instant) : Attempt → Option (Except ConnectionError Link)
  | .dialled _ (.linked t link) => if t ≤ patience then some (.ok link) else none
  | .dialled _ (.failed t e _) | .failed t e => if t ≤ patience then some (.error e) else none
  | .dialled _ (.never _) | .never => none

end Attempt

/-- How an attempt ends that meets with this, rule by rule. -/
inductive Meets (target : Target) : Opening → Option (Except ConnectionError UInt16) → Prop
  /-- The dial succeeds, START is taken whole, and the first word is a port. -/
  | port {delay p} {w : Word} (hs : p.TakesStart) (hw : (incoming p.arrivals).take 4 = w.littleEndian)
      (hlow : 1 ≤ w.toNat) (hhigh : w.toNat ≤ 65535) :
      Meets target (.opens delay p) (some (.ok (.ofNat w.toNat)))
  /-- The first word is no port. -/
  | notPort {delay p} {w : Word} (hs : p.TakesStart) (hw : (incoming p.arrivals).take 4 = w.littleEndian)
      (hrange : ¬(1 ≤ w.toNat ∧ w.toNat ≤ 65535)) :
      Meets target (.opens delay p) (some (.error (.handshake (.invalidPort w))))
  /-- The stream ends before the fourth byte. -/
  | endsEarly {delay p} (hs : p.TakesStart) (hlt : (incoming p.arrivals).length < 4)
      (hend : fate p.arrivals = some .ended) :
      Meets target (.opens delay p)
        (some (.error (.handshake (.truncated (incoming p.arrivals).length))))
  /-- Reading fails before the fourth byte. -/
  | unread {delay p reason} (hs : p.TakesStart) (hlt : (incoming p.arrivals).length < 4)
      (hend : fate p.arrivals = some (.fault reason)) :
      Meets target (.opens delay p) (some (.error (.handshake (.io reason))))
  /-- The stream stays open without a fourth byte. -/
  | silent {delay p} (hs : p.TakesStart) (hlt : (incoming p.arrivals).length < 4)
      (hend : fate p.arrivals = none) : Meets target (.opens delay p) none
  /-- START cannot be written. -/
  | unsent {delay p reason} (hs : p.RefusesStart reason) :
      Meets target (.opens delay p) (some (.error (.handshake (.io reason))))
  /-- START is stalled for ever. -/
  | stalled {delay p} (hs : p.StallsStart) : Meets target (.opens delay p) none
  /-- The dial fails. -/
  | undialled {delay reason} :
      Meets target (.fails delay reason)
        (some (.error (.dial (target.host ++ ":" ++ toString target.port.toNat) reason)))
  /-- The dial neither succeeds nor fails. -/
  | hung : Meets target .hangs none

/-! ## The rules hold -/

section Rules

variable {target : Target} {opening : Opening} {p : Script} {serial delay : Nat} {now : Instant}
  {r : Option (Except ConnectionError UInt16)}

/-- What the peer's answer comes to. -/
def verdict : Received → Except ConnectionError UInt16
  | .word w =>
    match portOf? w with
    | some port => .ok port
    | none => .error (.handshake (.invalidPort w))
  | .closed => .error (.handshake (.truncated 0))
  | .failed e => .error (.handshake e)

theorem portOf?_of_range {w : Word} (hlow : 1 ≤ w.toNat) (hhigh : w.toNat ≤ 65535) :
    portOf? w = some (.ofNat w.toNat) := by
  have hrange : 0 < w ∧ w ≤ 65535 :=
    ⟨UInt32.lt_iff_toNat_lt.2 hlow, UInt32.le_iff_toNat_le.2 hhigh⟩
  rw [portOf?, if_pos hrange]
  rfl

theorem portOf?_of_not_range {w : Word} (h : ¬(1 ≤ w.toNat ∧ w.toNat ≤ 65535)) :
    portOf? w = none := by
  refine if_neg fun hrange => h ⟨?_, ?_⟩
  · exact UInt32.lt_iff_toNat_lt.1 hrange.1
  · exact UInt32.le_iff_toNat_le.1 hrange.2

theorem result_answered (timeout : Duration) (stream : Stream) (opened : Instant) (a : Awaited) :
    (Attempt.dialled opened (answered timeout stream a)).result = a.what?.map verdict := by
  cases a with
  | received t what rest =>
    cases what with
    | word w =>
      simp only [answered, Awaited.what?, Option.map_some, verdict]
      cases portOf? w <;> rfl
    | closed | failed => rfl
  | silence | never => rfl

/-- An attempt on a stream that opens ends with what comes of START. -/
theorem result_opens :
    (connect target (.opens delay p) serial now).result =
      match p.startSent serial target.text (now + delay) with
      | .done t =>
        ((await none t [] (p.openAt serial target.text (now + delay)).arrivals).what?).map verdict
      | .failed _ fault => some (.error (.handshake (.io (Link.faultText fault))))
      | .never => none := by
  unfold connect Opening.ask handshake Script.startSent
  dsimp only
  cases ((p.openAt serial target.text (now + delay)).outlet.send (now + delay) Command.start.encode).1 with
  | done t => exact result_answered ..
  | failed | never => rfl

/-- Where START is taken, the attempt ends with what the peer's first word comes to. -/
theorem result_of_takes (h : p.TakesStart) :
    (connect target (.opens delay p) serial now).result =
      (readable (incoming p.arrivals) (fate p.arrivals)).map verdict := by
  obtain ⟨t, hsent⟩ := h.sent serial target.text (now + delay)
  have hwhat := await_what none t [] (p.openAt serial target.text (now + delay)).arrivals
  simp only [inTime, List.nil_append, p.incoming_openAt, p.fate_openAt] at hwhat
  rw [result_opens, hsent, ← hwhat]

theorem readable_of_littleEndian {bytes : List UInt8} {w : Word} {end_ : Option Input}
    (h : bytes.take 4 = w.littleEndian) : readable bytes end_ = some (.word w) := by
  have htake : Word.take? bytes = some (w, bytes.drop 4) := by
    rw [← Word.take?_encode, Word.encode_eq_littleEndian, ← h, List.take_append_drop]
  exact readable_of_take? htake

/-- An attempt ends as a rule says. -/
theorem result_of_meets (h : Meets target opening r) :
    (connect target opening serial now).result = r := by
  cases h with
  | port hs hw hlow hhigh =>
    rw [result_of_takes hs, readable_of_littleEndian hw]
    simp [verdict, portOf?_of_range hlow hhigh]
  | notPort hs hw hrange =>
    rw [result_of_takes hs, readable_of_littleEndian hw]
    simp [verdict, portOf?_of_not_range hrange]
  | endsEarly hs hlt hend =>
    rw [result_of_takes hs, readable_of_short hlt, hend]
    simp only [atEnd_of_short hlt, Option.map_some]
    split
    · rename_i hnil
      simp [verdict, hnil]
    · rfl
  | unread hs hlt hend => rw [result_of_takes hs, readable_of_short hlt, hend]; rfl
  | silent hs hlt hend => rw [result_of_takes hs, readable_of_short hlt, hend]; rfl
  | @unsent delay p reason hs =>
    obtain ⟨t, fault, hsent, rfl⟩ := hs.sent serial target.text (now + delay)
    rw [result_opens, hsent]
  | @stalled delay p hs => rw [result_opens, hs.sent]
  | undialled => rfl
  | hung => rfl

/-- Whatever is met with, there is a rule for it. -/
theorem exists_meets (target : Target) (opening : Opening) : ∃ r, Meets target opening r := by
  cases opening with
  | fails => exact ⟨_, .undialled⟩
  | hangs => exact ⟨_, .hung⟩
  | opens delay p =>
    rcases p.takesStart_or with hs | ⟨reason, hs⟩ | hs
    · by_cases hlt : (incoming p.arrivals).length < 4
      · cases hend : fate p.arrivals with
        | none => exact ⟨_, .silent hs hlt hend⟩
        | some end_ =>
          cases end_ with
          | bytes data => exact absurd hend (fate_ne_bytes _ data)
          | ended => exact ⟨_, .endsEarly hs hlt hend⟩
          | fault reason => exact ⟨_, .unread hs hlt hend⟩
      · obtain ⟨w, -, hw⟩ := Codec.decode_of_le (Nat.le_of_not_lt hlt)
        rw [Word.encode_eq_littleEndian] at hw
        by_cases hrange : 1 ≤ w.toNat ∧ w.toNat ≤ 65535
        · exact ⟨_, .port hs hw.symm hrange.1 hrange.2⟩
        · exact ⟨_, .notPort hs hw.symm hrange⟩
    · exact ⟨_, .unsent hs⟩
    · exact ⟨_, .stalled hs⟩

theorem result_eq_iff_meets : (connect target opening serial now).result = r ↔ Meets target opening r := by
  constructor
  · intro h
    obtain ⟨r', hr'⟩ := exists_meets target opening
    rw [result_of_meets hr'] at h
    exact h ▸ hr'
  · exact result_of_meets

end Rules

/-! ## The connection that comes of it -/

theorem handshake_of_connect {target : Target} {opening : Opening} {serial : Nat} {now opened : Instant}
    {h : Handshake} (hc : connect target opening serial now = .dialled opened h) :
    ∃ delay p, opening = .opens delay p ∧
      handshake target.pingTimeout (p.openAt serial target.text (now + delay)) (now + delay) = h := by
  cases opening with
  | fails | hangs => cases hc
  | opens delay p =>
    cases hc
    exact ⟨delay, p, rfl, rfl⟩

/-- No ping has been sent on a connection that was just established. -/
theorem liveness_of_linked {timeout : Duration} {stream : Stream} {now t : Instant} {link : Link}
    (h : handshake timeout stream now = .linked t link) : link.liveness = .fresh timeout := by
  unfold handshake at h
  dsimp only at h
  split at h
  · unfold answered at h
    split at h
    · dsimp only at h
      split at h <;> cases h
      rfl
    all_goals cases h
  · cases h
  · cases h

/-! ## Where attempts are made -/

/-- An attempt that is made by itself is given up at a time. -/
theorem contact_result (target : Target) (patience : Instant) (opening : Opening) :
    (contact target patience opening).result = (connect target opening 0 0).within patience := by
  unfold contact
  cases hc : connect target opening 0 0 with
  | never => rfl
  | failed t e =>
    simp only [Attempt.contact, Attempt.within]
    split <;> rfl
  | dialled opened h =>
    obtain ⟨stream, -, hh⟩ := asked_of_connect hc
    have htime := @handshake_time target.pingTimeout stream opened
    rw [hh] at htime
    cases h with
    | linked t link | failed t e stream' =>
      have hle : opened ≤ t := htime rfl
      by_cases ht : t ≤ patience
      · simp [Attempt.contact, Attempt.within, ht, Nat.le_trans hle ht]
      · simp only [Attempt.contact, Attempt.within, ht, if_false]
        split <;> rfl
    | never stream' =>
      simp only [Attempt.contact, Attempt.within]
      split <;> rfl

end Control

namespace Supervisor

open Control

variable {w : World} {s s' : Supervisor}

/-- What an attempt means for a server that makes it: the phase it goes on with, and what it tells. -/
def Phase.After : Attempt → Instant → Phase → List (Instant × Event) → Prop
  | .dialled _ (.linked t link), clock, phase, told =>
    clock = t ∧ phase = .serving link ∧ told = [(t, .controlConnected link.dataPort)]
  | .dialled _ (.failed t e _), clock, phase, told | .failed t e, clock, phase, told =>
    clock = t ∧ phase = .pausing ∧ told = [(t, .controlLost e.message)]
  | .dialled _ (.never _), _, phase, told | .never, _, phase, told =>
    (∃ streams, phase = .stuck streams) ∧ told = []

/-- A server that dials makes such an attempt. -/
theorem Transition.attempts (h : Transition w s s') (hp : s.phase = .dialling) :
    ∃ told, s'.record.events = s.record.events ++ told ∧
      Phase.After (connect w.target s.dials.take.1 s.record.opened s.clock) s'.clock s'.phase told := by
  unfold connect
  cases h with
  | unreached _ ho ha =>
    refine ⟨_, rfl, ?_⟩
    simp only [ho, ha]
    exact ⟨rfl, rfl, rfl⟩
  | unanswered _ ho ha hh | connected _ ho ha hh =>
    refine ⟨_, rfl, ?_⟩
    simp only [ho, ha, hh]
    exact ⟨rfl, rfl, rfl⟩
  | dialHung _ ho ha =>
    refine ⟨[], (List.append_nil _).symm, ?_⟩
    simp only [ho, ha]
    exact ⟨⟨_, rfl⟩, rfl⟩
  | handshakeHung _ ho ha hh =>
    refine ⟨[], (List.append_nil _).symm, ?_⟩
    simp only [ho, ha, hh]
    exact ⟨⟨_, rfl⟩, rfl⟩
  | _ hp' => cases hp'.symm.trans hp

end Supervisor

namespace Control

/-- **How an attempt to reach the peer ends.** An attempt ends with a result exactly if a rule of `Meets`
gives it. A connection that comes of it has the port that was agreed on, no ping outstanding, START
written and no more, and all bytes behind the fourth left to be read, so that turns dispatch the words
behind the first in order. Such attempts are what is made when one makes contact, where it is given up
after a while, and each time a server dials its peer. -/
theorem ends_as_met_with :
    (∀ (target : Target) (opening : Opening) (serial : Nat) (now : Instant),
      (∀ r, (connect target opening serial now).result = r ↔ Meets target opening r) ∧
      ∀ opened t link, connect target opening serial now = .dialled opened (.linked t link) →
        ∃ delay p, opening = .opens delay p ∧
          let bytes := incoming p.arrivals
          (∃ w : Word, bytes.take 4 = w.littleEndian ∧ link.dataPort.toNat = w.toNat) ∧
          link.pingOutstanding = false ∧ link.written = Command.start.encode ∧
          link.inbox.bytes = bytes.drop 4 ∧ fate link.stream.arrivals = fate p.arrivals ∧
          ∀ commands l u, Link.Turns link t commands l u →
            (∀ k, 1 ≤ k → k ≤ commands.length → commands[k - 1]? = Link.commandAt bytes k) ∧
            l.inbox.bytes = bytes.drop (4 * (commands.length + 1))) ∧
    (∀ (target : Target) (patience : Instant) (opening : Opening),
      (contact target patience opening).result = (connect target opening 0 0).within patience) ∧
    ∀ (w : Supervisor.World) (s : Supervisor), s.phase = .dialling →
      ∃ told, (s.step w).record.events = s.record.events ++ told ∧
        Supervisor.Phase.After
          (connect w.target s.dials.take.1 s.record.opened (s.clock + w.lag s.steps))
          (s.step w).clock (s.step w).phase told := by
  refine ⟨fun target opening serial now => ⟨fun r => result_eq_iff_meets, fun opened t link h => ?_⟩,
    contact_result, fun w s hp => ?_⟩
  · obtain ⟨delay, p, rfl, hh⟩ := handshake_of_connect h
    refine ⟨delay, p, rfl, ?_⟩
    intro bytes
    have hbytes : incoming (p.openAt serial target.text (now + delay)).arrivals = bytes :=
      p.incoming_openAt ..
    obtain ⟨w, hw, hport, hfate⟩ := handshake_linked hh
    have hfollows := Link.Follows.of_handshake hh
    rw [hbytes] at hw hfollows
    rw [p.fate_openAt] at hfate
    refine ⟨⟨w, ?_, hport⟩, ?_, written_of_linked hh, Word.eq_drop_of_take? hw, hfate,
      fun commands l u hturns => ?_⟩
    · obtain ⟨a, b, c, d, hfour, rfl⟩ := Word.take?_inv hw
      rw [← Word.encode_eq_littleEndian, Word.encode_ofBytes, hfour]
      rfl
    · rw [Link.pingOutstanding, liveness_of_linked hh]
      rfl
    · have hl := hfollows.of_turns hturns
      exact ⟨hl.commands, hl.left⟩
  · have hmove := Supervisor.step_transition (w := w) (s := s) (by rw [hp]; rfl)
    exact hmove.attempts hp

/-- A peer that takes the second half of START late, behind two obstacles, and answers with a word in two
pieces. With the second of them come NEW and a byte of the word after that. -/
def sluggishPeer (answer : Word) : Script where
  arrivals := [⟨4, .bytes (answer.littleEndian.take 1)⟩,
    ⟨6, .bytes (answer.littleEndian.drop 1 ++ [1, 0, 0, 0, 7])⟩]
  obstacles := [(2, .stall (some 3)), (1, .stall (some 2))]
  closeFault := none

def sluggishTarget : Target := ⟨"peer", 22468, .ofMillis 2⟩

/-- The connection to it, if the answer is the highest port. -/
def sluggishLink : Link where
  stream := { (sluggishPeer 65535).openAt 0 "peer:22468" 7 with
    arrivals := [], outlet := ⟨[], [(7, [0xe9, 3]), (10, [0, 0])]⟩ }
  buffer := [1, 0, 0, 0, 7]
  dataPort := 65535
  liveness := .fresh (.ofMillis 2)

/-- The highest port gives a connection, with NEW left to be read; one more is no port. -/
theorem ends_as_met_with_sluggishPeer :
    connect sluggishTarget (.opens 2 (sluggishPeer 65535)) 0 5 =
      .dialled 7 (.linked 13 sluggishLink) ∧
    sluggishLink.inbox.bytes = (incoming (sluggishPeer 65535).arrivals).drop 4 ∧
    Meets sluggishTarget (.opens 2 (sluggishPeer 65536))
      (some (.error (.handshake (.invalidPort 65536)))) := by
  have linked : connect sluggishTarget (.opens 2 (sluggishPeer 65535)) 0 5 =
      .dialled 7 (.linked 13 sluggishLink) := by decide +kernel
  have refused : (connect sluggishTarget (.opens 2 (sluggishPeer 65536)) 0 5).result =
      some (.error (.handshake (.invalidPort 65536))) := rfl
  obtain ⟨delay, p, ho, -, -, -, hbytes, -⟩ := (ends_as_met_with.1 _ _ _ _).2 _ _ _ linked
  cases ho
  exact ⟨linked, hbytes, ((ends_as_met_with.1 _ _ _ _).1 _).1 refused⟩

end Control

end StreamServer
