/-
What a server says on its control connections. It says START, then answers
each ping it dispatches with a pong and sends a ping for each one it tells of,
in that order and with nothing else between. A word that is not taken whole is
the last one on its connection.

A turn has at most one command to send, so the words of a connection are those
of its steps one after another, and a step that cannot send its command leaves
the front of it behind.
-/
import StreamServer.Proofs.Connection
import StreamServer.Proofs.Pinging

namespace StreamServer

/-! ## Reading back what was written -/

/-- Word after word is taken from the buffer, these in this order, until no more is complete and
`rest` is left. -/
inductive Codec.Reads : List UInt8 → List Word → List UInt8 → Prop
  | done {rest} (h : decode rest = (none, rest)) : Reads rest [] rest
  | word {buffer buffer' w words rest} (h : decode buffer = (some w, buffer'))
      (hr : Reads buffer' words rest) : Reads buffer (w :: words) rest

/-- Commands written one after another are read back, and nothing is left over. -/
theorem Codec.reads_flatMap_encode (cs : List Command) :
    Reads (cs.flatMap Command.encode) (cs.map Command.toWord) [] := by
  induction cs with
  | nil => exact .done rfl
  | cons c cs ih =>
    refine .word ?_ ih
    rw [List.flatMap_cons, decode, Command.encode, Word.take?_encode]

/-! ## One turn -/

namespace Link

open Control

/-- The command that a turn has to send, and when: a pong for a ping, a ping in silence. -/
def due (l : Link) (now : Instant) : Option (Command × Instant) :=
  match l.sight now with
  | .received t (.word w) _ => if Command.ofWord w = .ping then some (.pong, t) else none
  | .silence t _ => if l.pingOutstanding then none else some (.ping, t)
  | _ => none

/-- What a turn comes to that has sent its command. -/
def eventOf (c : Command) : Event := if c = .ping then .pingSent else .idle

/-- How the sending of `c` at `t` ends a turn that begins at `now`. -/
inductive Sends (l : Link) (now : Instant) (c : Command) (t : Instant) : Prop
  | whole {u} (hs : (l.send t c).1 = .done u)
      (ho : (l.next now).outcome = some (u, .ok (eventOf c)))
      (hw : (l.next now).link.written = l.written ++ c.encode)
  | cut {part} (hs : ∀ u, (l.send t c).1 ≠ .done u)
      (ho : (l.next now).outcome = cutShort c (l.send t c).1)
      (hpart : part <+: c.encode) (hne : part ≠ c.encode)
      (hw : (l.next now).link.written = l.written ++ part)

theorem Sends.of_sending {l : Link} {now t : Instant} {rest : Inbox} {c : Command} {log : Log}
    {after : Link → Instant → Turn} (hnext : l.next now = (l.withInbox rest).sending t c log after)
    (hafter : ∀ l u, (after l u).link.written = l.written ∧
      (after l u).outcome = some (u, .ok (eventOf c))) : l.Sends now c t := by
  rcases sending_cases (l.withInbox rest) t c log fun l u => (hafter l u).1 with
    ⟨u, hs, -, ho, hw⟩ | ⟨hs, -, ho, part, hpart, hne, hw⟩ <;> rw [← hnext] at ho hw
  · exact .whole hs (ho.trans (hafter _ _).2) hw
  · exact .cut hs ho hpart hne hw

variable {l : Link} {now t : Instant} {c : Command}

theorem due_eq_pong_iff : (∃ t, l.due now = some (.pong, t)) ↔ l.heard now = some .ping := by
  unfold due heard
  cases l.sight now with
  | received t what rest =>
    cases what with
    | word w => by_cases hw : Command.ofWord w = .ping <;> simp [hw]
    | closed | failed _ => simp
  | silence t rest => cases l.pingOutstanding <;> simp
  | never => simp

/-- A command that is due is sent, as far as the stream takes it. -/
theorem sends_of_due (h : l.due now = some (c, t)) : l.Sends now c t := by
  unfold due at h
  split at h
  · rename_i u w rest hs
    split at h <;> cases h
    rename_i hw
    have hnext : l.next now = (l.withInbox rest).dispatch t .ping := by
      rw [next_eq_react, hs, ← hw]
      rfl
    exact .of_sending hnext fun _ _ => ⟨rfl, rfl⟩
  · rename_i u rest hs
    split at h <;> cases h
    rename_i hout
    have hnext := next_of_silence hs
    have hlive : (l.withInbox rest).liveness = l.liveness := rfl
    have hsent : l.liveness.sentAt = none := by
      simpa [pingOutstanding, Liveness.isOutstanding] using hout
    simp only [onSilence, Liveness.check, hlive, hsent] at hnext
    exact .of_sending hnext fun _ _ => ⟨rfl, rfl⟩
  · cases h

theorem eq_pong_or_ping_of_due (h : l.due now = some (c, t)) : c = .pong ∨ c = .ping := by
  unfold due at h
  split at h
  · split at h <;> cases h
    exact .inl rfl
  · split at h <;> cases h
    exact .inr rfl
  · cases h

/-- A turn with nothing to send writes nothing, and tells of no ping. -/
theorem next_of_not_due (h : l.due now = none) :
    (l.next now).link.written = l.written ∧ l.heard now ≠ some .ping ∧
      ∀ u, (l.next now).outcome ≠ some (u, .ok .pingSent) := by
  have hpong : l.heard now ≠ some .ping := by simp [← due_eq_pong_iff, h]
  unfold due at h
  rw [next_eq_react]
  cases hs : l.sight now with
  | received u what rest =>
    cases what with
    | word w =>
      have hw : Command.ofWord w ≠ .ping := fun hw => hpong (by simp [heard, hs, hw])
      refine ⟨?_, hpong, ?_⟩ <;> simp only [react] <;> generalize Command.ofWord w = c at hw ⊢ <;>
        cases c <;> simp_all [dispatch, turn, written, withInbox]
    | closed | failed _ => exact ⟨rfl, hpong, by simp [react, turn]⟩
  | silence u rest =>
    have hout : l.pingOutstanding = true := by simpa [hs] using h
    obtain ⟨sent, hsent⟩ := Option.isSome_iff_exists.1 hout
    have hlive : (l.withInbox rest).liveness = l.liveness := rfl
    simp only [react, onSilence, Liveness.check, hlive, hsent]
    by_cases hdead : l.liveness.timeout ≤ u.elapsed.since sent <;>
      simp only [hdead, if_true, if_false] <;> exact ⟨rfl, hpong, by simp [turn]⟩
  | never => exact ⟨rfl, hpong, by simp [react]⟩

end Link

namespace Control

theorem outlet_answered (timeout : Duration) (stream : Stream) (a : Awaited) :
    (answered timeout stream a).stream.outlet = stream.outlet := by
  unfold answered
  split
  · dsimp only
    split <;> rfl
  all_goals rfl

/-- Shaking hands writes START or the front of it, and goes on only when it was taken whole. -/
theorem handshake_bytes (timeout : Duration) (stream : Stream) (now : Instant) :
    ∃ part, part <+: Command.start.encode ∧
      (handshake timeout stream now).stream.outlet.bytes = stream.outlet.bytes ++ part ∧
      (part = Command.start.encode ↔
        ∃ t, (stream.outlet.send now Command.start.encode).1 = .done t) := by
  obtain ⟨part, hpart, hbytes, hall⟩ := stream.outlet.send_bytes now Command.start.encode
  refine ⟨part, hpart, ?_, hall⟩
  rw [← hbytes]
  unfold handshake
  dsimp only
  split
  · rw [outlet_answered]
  · rfl
  · rfl

theorem sent_of_linked {timeout : Duration} {stream : Stream} {now t : Instant} {link : Link}
    (h : handshake timeout stream now = .linked t link) :
    ∃ u, (stream.outlet.send now Command.start.encode).1 = .done u := by
  unfold handshake at h
  dsimp only at h
  split at h
  · exact ⟨_, ‹_›⟩
  · cases h
  · cases h

theorem written_of_linked {timeout : Duration} {stream : Stream} {now t : Instant} {link : Link}
    (h : handshake timeout stream now = .linked t link) :
    link.written = stream.outlet.bytes ++ Command.start.encode := by
  obtain ⟨part, -, hbytes, hall⟩ := handshake_bytes timeout stream now
  rwa [hall.2 (sent_of_linked h), h] at hbytes

end Control

theorem bytes_of_ask {o : Opening} {serial : Nat} {peer : String} {now t : Instant} {stream : Stream}
    (h : o.ask serial peer now = .stream t stream) : stream.outlet.bytes = [] := by
  obtain ⟨_, _, -, rfl⟩ := opens_of_ask h
  rfl

namespace Supervisor

variable {w : World} {s s' : Supervisor} {m n : Nat} {link : Link}

/-! ## One step -/

/-- The command that the next step writes on the control connection, and how that goes. -/
def attempt (w : World) (s : Supervisor) : Option (Command × Sent) :=
  match s.phase with
  | .dialling =>
    match s.dials.take.1.ask s.record.opened w.target.text (s.ready w).clock with
    | .stream t stream => some (.start, (stream.outlet.send t Command.start.encode).1)
    | _ => none
  | .serving link => (link.due (s.ready w).clock).map fun d => (d.1, (link.send d.2 d.1).1)
  | _ => none

/-- The ping that an event tells of. -/
def Happening.ping? : Happening → Option Command
  | .told _ .pingSent => some .ping
  | _ => none

open Happening

/-- What the next step has to say on the control connection: a pong if it dispatches a ping, and a
ping for each one it tells of. -/
def spoken (w : World) (s : Supervisor) : List Command :=
  (if dispatched w s = some .ping then [.pong] else []) ++ (happenings w s).filterMap ping?

/-- The ping that a turn of this outcome is said to have sent. -/
def pingOf : Option (Instant × Except ConnectionError Control.Event) → List Command
  | some (_, .ok .pingSent) => [.ping]
  | _ => []

theorem Transition.pings_of_serving (h : Transition w s s') (hp : s.phase = .serving link)
    (control : Bool) :
    (added control s s').filterMap ping? = pingOf (link.next s.clock).outcome := by
  cases h with
  | ordered hp' ho | stopped hp' ho | pinged hp' ho | idled hp' ho | lost hp' ho | turnHung hp' ho =>
    cases hp'.symm.trans hp
    simp [added, ho, pingOf, ping?]
  | _ hp' => cases hp'.symm.trans hp

theorem Transition.pings_of_not_serving (h : Transition w s s') (hp : ∀ link, s.phase ≠ .serving link)
    (control : Bool) : (added control s s').filterMap ping? = [] := by
  cases h with
  | ordered hp' | stopped hp' | pinged hp' | idled hp' | lost hp' | turnHung hp' =>
    exact absurd hp' (hp _)
  | _ => simp [added, ping?]

theorem pings_of_serving (hp : s.phase = .serving link) :
    (happenings w s).filterMap ping? = pingOf (link.next (s.ready w).clock).outcome := by
  have hmove := step_transition (w := w) (s := s) (by rw [hp]; rfl)
  rw [happenings, if_neg (by simp [hp]), List.append_nil]
  exact hmove.pings_of_serving hp _

theorem pings_of_not_serving (hp : ∀ link, s.phase ≠ .serving link) :
    (happenings w s).filterMap ping? = [] := by
  cases hf : s.phase.isFinal with
  | true => rw [happenings_of_final hf]; rfl
  | false =>
    have hnone : (added (s.phase = .dialling) s (s.step w)).filterMap ping? = [] :=
      (step_transition (w := w) hf).pings_of_not_serving hp _
    rw [happenings, List.filterMap_append, hnone, List.nil_append]
    split <;> rfl

theorem spoken_of_not_serving (hp : ∀ link, s.phase ≠ .serving link) : spoken w s = [] := by
  simp [spoken, dispatched_of_not_serving hp, pings_of_not_serving hp]

theorem spoken_of_not_due (hp : s.phase = .serving link)
    (hd : link.due (s.ready w).clock = none) : spoken w s = [] := by
  obtain ⟨-, hpong, hping⟩ := Link.next_of_not_due hd
  rw [spoken, dispatched_of_serving hp, if_neg hpong, pings_of_serving hp]
  unfold pingOf
  split
  · exact absurd ‹_› (hping _)
  · rfl

theorem spoken_of_sent {c : Command} {t u : Instant} (hp : s.phase = .serving link)
    (hd : link.due (s.ready w).clock = some (c, t))
    (ho : (link.next (s.ready w).clock).outcome = some (u, .ok (Link.eventOf c))) :
    spoken w s = [c] := by
  rw [spoken, dispatched_of_serving hp, pings_of_serving hp, ho]
  rcases Link.eq_pong_or_ping_of_due hd with rfl | rfl
  · rw [if_pos (Link.due_eq_pong_iff.1 ⟨t, hd⟩)]
    rfl
  · rw [if_neg fun hpong => by obtain ⟨_, h⟩ := Link.due_eq_pong_iff.2 hpong; cases h.symm.trans hd]
    rfl

/-- What the next step makes of the bytes on the control connection: it adds all it has to say, or
the command it tries to write is cut. -/
inductive Speaks (w : World) (s : Supervisor) (before bytes : List UInt8) : Prop
  | whole (ha : ∀ c sent, attempt w s = some (c, sent) → ∃ t, sent = .done t)
      (hb : bytes = before ++ (spoken w s).flatMap Command.encode)
  | cut {c sent part} (ha : attempt w s = some (c, sent)) (hs : ∀ t, sent ≠ .done t)
      (hpart : part <+: c.encode) (hne : part ≠ c.encode) (hb : bytes = before ++ part)

theorem speaks_of_serving (hp : s.phase = .serving link) :
    Speaks w s link.written (link.next (s.ready w).clock).link.written := by
  cases hd : link.due (s.ready w).clock with
  | none =>
    refine .whole (by simp [attempt, hp, hd]) ?_
    rw [spoken_of_not_due hp hd, (Link.next_of_not_due hd).1]
    exact (List.append_nil _).symm
  | some d =>
    obtain ⟨c, t⟩ := d
    have ha : attempt w s = some (c, (link.send t c).1) := by simp [attempt, hp, hd]
    cases Link.sends_of_due hd with
    | whole hs ho hw =>
      refine .whole (fun c' sent ha' => ?_) ?_
      · cases ha.symm.trans ha'
        exact ⟨_, hs⟩
      · rw [spoken_of_sent hp hd ho, hw, List.flatMap_singleton]
    | cut hs _ hpart hne hw => exact .cut ha hs hpart hne hw

theorem speaks_streamAfter (hl : s.phase.link? = some link) :
    Speaks w s link.written (streamAfter w s link).outlet.bytes := by
  unfold streamAfter
  split
  · rename_i hp
    rw [hp] at hl
    cases hl
    exact speaks_of_serving hp
  · rename_i hp
    have hd : s.phase ≠ .dialling := fun hd => by rw [hd] at hl; cases hl
    refine .whole (fun c sent ha => ?_) ?_
    · unfold attempt at ha
      split at ha
      · exact absurd ‹_› hd
      · exact absurd ‹_› (hp _)
      · cases ha
    · rw [spoken_of_not_serving hp]
      exact (List.append_nil _).symm

/-- A turn that goes on has said all it had to. -/
theorem written_next {t : Instant} {event : Control.Event} (hp : s.phase = .serving link)
    (ho : (link.next (s.ready w).clock).outcome = some (t, .ok event)) :
    (link.next (s.ready w).clock).link.written =
      link.written ++ (spoken w s).flatMap Command.encode := by
  cases speaks_of_serving (w := w) hp with
  | whole _ hb => exact hb
  | cut ha hs =>
    simp only [attempt, hp, Option.map_eq_some_iff] at ha
    obtain ⟨⟨c, u⟩, hd, ha⟩ := ha
    cases ha
    cases Link.sends_of_due hd with
    | whole hdone => exact absurd hdone (hs _)
    | cut _ hcut =>
      rw [ho, Link.cutShort.eq_def] at hcut
      split at hcut <;> cases hcut

/-- A connection carries START and what the steps since had to say. -/
theorem Held.written {stream : Stream} (h : Held w s m stream n link) :
    link.written = (.start :: inSteps (spoken w) w s m n).flatMap Command.encode := by
  induction h with
  | connected hp ha hh =>
    rw [inSteps_succ _ (Nat.le_refl m), inSteps_self, spoken_of_not_serving (by simp [hp]),
      Control.written_of_linked hh, bytes_of_ask ha]
    simp
  | turn h hp ho _ ih =>
    rw [inSteps_succ _ (Nat.le_of_lt h.lt), written_next hp ho, ih, ← List.cons_append,
      List.flatMap_append]
  | kept h hn _ ih =>
    rw [inSteps_succ _ (Nat.le_of_lt h.lt), spoken_of_not_serving hn, List.append_nil]
    exact ih

/-- START, or the front of it, is all that shaking hands leaves on a stream. -/
theorem speaks_of_dialling {t : Instant} {stream : Stream} (hp : s.phase = .dialling)
    (ha : s.dials.take.1.ask s.record.opened w.target.text (s.ready w).clock = .stream t stream) :
    let left := (Control.handshake w.target.pingTimeout stream t).stream
    Custody left (s.step w) ∧ ∃ sent, attempt w s = some (.start, sent) ∧
      ((∃ u, sent = .done u) → Codec.Reads left.outlet.bytes [Command.start.toWord] []) ∧
      ((∀ u, sent ≠ .done u) → left.outlet.bytes <+: Command.start.encode ∧
        left.outlet.bytes ≠ Command.start.encode) := by
  intro left
  obtain ⟨part, hpart, hbytes, hall⟩ := Control.handshake_bytes w.target.pingTimeout stream t
  rw [bytes_of_ask ha, List.nil_append] at hbytes
  have hcustody : Custody left (s.step w) := by
    rw [step_of_dialling hp]
    rcases dial_custody w (s.ready w) with ⟨-, -, hno⟩ | ⟨-, u, stream', ha', hc⟩
    · exact absurd ha (hno t stream)
    · cases ha'.symm.trans ha
      exact hc
  refine ⟨hcustody, (stream.outlet.send t Command.start.encode).1, ?_, fun hdone => ?_, fun hcut => ?_⟩
  · simp only [attempt, hp, ha]
  · rw [hbytes, hall.2 hdone]
    exact Codec.reads_flatMap_encode [.start]
  · rw [hbytes]
    exact ⟨hpart, fun hwhole => by obtain ⟨u, hu⟩ := hall.1 hwhole; exact hcut u hu⟩

/-! ## Words that are not taken whole -/

/-- Why a connection is lost on which `c` could not be written. -/
def writeError (c : Command) (fault : WriteFault) : ConnectionError :=
  let reason : ProtocolError := .io (Link.faultText fault)
  if c = .start then .handshake reason else .send c.text reason

/-- A command is tried on a stream that was just dialled, where it is START, or in a turn. -/
theorem attempt_cases {c : Command} {sent : Sent} (h : attempt w s = some (c, sent)) :
    (s.phase = .dialling ∧ c = .start ∧ ∃ t stream,
      s.dials.take.1.ask s.record.opened w.target.text (s.ready w).clock = .stream t stream ∧
      (stream.outlet.send t Command.start.encode).1 = sent) ∨
    (c ≠ .start ∧ ∃ link t, s.phase = .serving link ∧ link.due (s.ready w).clock = some (c, t) ∧
      (link.send t c).1 = sent) := by
  unfold attempt at h
  split at h
  · split at h <;> cases h
    exact .inl ⟨‹_›, rfl, _, _, ‹_›, rfl⟩
  · obtain ⟨⟨c, t⟩, hd, h⟩ := Option.map_eq_some_iff.1 h
    cases h
    refine .inr ⟨?_, _, t, ‹_›, hd, rfl⟩
    rcases Link.eq_pong_or_ping_of_due hd with rfl | rfl <;> simp
  · cases h

theorem dispatched_ping_iff :
    dispatched w s = some .ping ↔ ∃ sent, attempt w s = some (.pong, sent) := by
  constructor
  · intro h
    obtain ⟨link, hp, hheard⟩ := serving_of_dispatched h
    obtain ⟨t, hd⟩ := Link.due_eq_pong_iff.2 hheard
    exact ⟨(link.send t .pong).1, by simp only [attempt, hp, hd, Option.map_some]⟩
  · rintro ⟨sent, h⟩
    rcases attempt_cases h with ⟨-, hc, -⟩ | ⟨-, link, t, hp, hd, -⟩
    · cases hc
    · rw [dispatched_of_serving hp]
      exact Link.due_eq_pong_iff.1 ⟨t, hd⟩

theorem ping_mem_iff : (∃ u, .told u .pingSent ∈ happenings w s) ↔
    Command.ping ∈ (happenings w s).filterMap ping? := by
  rw [List.mem_filterMap]
  constructor
  · rintro ⟨u, hu⟩
    exact ⟨_, hu, rfl⟩
  · rintro ⟨x, hx, hping⟩
    unfold ping? at hping
    split at hping <;> cases hping
    exact ⟨_, hx⟩

/-- A ping is told of exactly when it was taken whole. -/
theorem told_pingSent_iff : (∃ u, .told u .pingSent ∈ happenings w s) ↔
    ∃ t, attempt w s = some (.ping, .done t) := by
  rw [ping_mem_iff]
  constructor
  · intro hping
    by_cases hp : ∃ link, s.phase = .serving link
    · obtain ⟨link, hp⟩ := hp
      rw [pings_of_serving hp] at hping
      unfold pingOf at hping
      split at hping
      · rename_i u ho
        cases hd : link.due (s.ready w).clock with
        | none => exact absurd ho ((Link.next_of_not_due hd).2.2 u)
        | some d =>
          obtain ⟨c, t⟩ := d
          cases Link.sends_of_due hd with
          | @whole v hs ho' =>
            rcases Link.eq_pong_or_ping_of_due hd with rfl | rfl
            · cases ho.symm.trans ho'
            · exact ⟨v, by simp only [attempt, hp, hd, Option.map_some, hs]⟩
          | cut _ ho' =>
            rw [ho, Link.cutShort.eq_def] at ho'
            split at ho' <;> cases ho'
      · cases hping
    · rw [pings_of_not_serving (not_exists.1 hp)] at hping
      cases hping
  · rintro ⟨t, h⟩
    rcases attempt_cases h with ⟨-, hc, -⟩ | ⟨-, link, u, hp, hd, hsent⟩
    · cases hc
    · cases Link.sends_of_due hd with
      | whole _ ho =>
        rw [pings_of_serving hp, ho]
        exact List.mem_singleton.2 rfl
      | cut hs => exact absurd hsent (hs t)

theorem Transition.events_of_lost (h : Transition w s s') {t : Instant} {e : ConnectionError}
    (hp : s.phase = .serving link) (ho : (link.next s.clock).outcome = some (t, .error e)) :
    s'.record.events = s.record.events ++ [(t, .controlLost e.message)] := by
  cases h with
  | lost hp' ho' =>
    cases hp'.symm.trans hp
    cases ho'.symm.trans ho
    rfl
  | ordered hp' ho' | stopped hp' ho' | pinged hp' ho' | idled hp' ho' | turnHung hp' ho' =>
    cases hp'.symm.trans hp
    cases ho'.symm.trans ho
  | _ hp' => cases hp'.symm.trans hp

theorem Transition.events_of_unanswered (h : Transition w s s') {t u : Instant}
    {stream stream' : Stream} {e : ConnectionError} (hp : s.phase = .dialling)
    (ha : s.dials.take.1.ask s.record.opened w.target.text s.clock = .stream t stream)
    (hh : Control.handshake w.target.pingTimeout stream t = .failed u e stream') :
    s'.record.events = s.record.events ++ [(u, .controlLost e.message)] := by
  cases h with
  | unanswered _ ho ha' hh' =>
    rw [ho] at ha
    cases ha'.symm.trans ha
    cases hh'.symm.trans hh
    rfl
  | unreached _ ho ha' | dialHung _ ho ha' =>
    rw [ho] at ha
    cases ha'.symm.trans ha
  | connected _ ho ha' hh' | handshakeHung _ ho ha' hh' =>
    rw [ho] at ha
    cases ha'.symm.trans ha
    cases hh'.symm.trans hh
  | _ hp' => cases hp'.symm.trans hp

theorem events_of_failed_attempt {c : Command} {t : Instant} {fault : WriteFault}
    (h : attempt w s = some (c, .failed t fault)) :
    (s.step w).record.events = s.record.events ++ [(t, .controlLost (writeError c fault).message)] := by
  rcases attempt_cases h with ⟨hp, rfl, u, stream, ha, hsent⟩ | ⟨hc, link, u, hp, hd, hsent⟩
  · have hmove := step_transition (w := w) (s := s) (by rw [hp]; rfl)
    have hh : ∃ left, Control.handshake w.target.pingTimeout stream u =
        .failed t (.handshake (.io (Link.faultText fault))) left := by
      unfold Control.handshake
      simp only [hsent]
      exact ⟨_, rfl⟩
    obtain ⟨left, hh⟩ := hh
    exact hmove.events_of_unanswered hp ha hh
  · have hmove := step_transition (w := w) (s := s) (by rw [hp]; rfl)
    rw [writeError, if_neg hc]
    cases Link.sends_of_due hd with
    | whole hs => cases hs.symm.trans hsent
    | cut _ ho =>
      rw [hsent] at ho
      exact hmove.events_of_lost hp ho

/-- A word that fails to be written is the end of its connection. -/
theorem lost_of_failed_attempt {c : Command} {t : Instant} {fault : WriteFault}
    (h : attempt w s = some (c, .failed t fault)) :
    (s.step w).phase = .pausing ∧
      (∃ front, happenings w s = front ++ [.told t (.controlLost (writeError c fault).message)]) ∧
      ∀ u, .told u .pingSent ∉ happenings w s := by
  have hmem : .told t (.controlLost (writeError c fault).message) ∈ happenings w s := by
    simp [happenings, added, events_of_failed_attempt h]
  obtain ⟨hp, -, hfront⟩ := pausing_of_loss hmem
  refine ⟨hp, hfront, fun u hu => ?_⟩
  obtain ⟨v, hv⟩ := told_pingSent_iff.1 ⟨u, hu⟩
  cases hv.symm.trans h

/-- **What the peer reads.** All that was written on a control connection reads as START, then a pong for
each ping dispatched and a ping for each one told of, in the order of the steps, with no part of a word
left over. Only the command at which the connection hangs or is lost may be cut short. A pong is tried
exactly when a ping is dispatched, and a ping is told of exactly when one was taken whole. -/
theorem peer_reads_what_was_spoken (w : World) (dials accepts : Openings)
    (mailbox : Option Mailbox) :
    let s := start w dials accepts mailbox
    let after n := run w n s
    let does n := happenings w (after n)
    let tried n := attempt w (after n)
    (∀ n link, (after n).phase.link? = some link → ∃ m stream, Held w s m stream n link ∧
      let said := .start :: inSteps (spoken w) w s m n
      let bytes := (streamAfter w (after n) link).outlet.bytes
      Codec.Reads link.written (said.map Command.toWord) [] ∧
      Custody (streamAfter w (after n) link) (after (n + 1)) ∧
      ((∀ c sent, tried n = some (c, sent) → ∃ t, sent = .done t) →
        Codec.Reads bytes ((said ++ spoken w (after n)).map Command.toWord) []) ∧
      (∀ c sent, tried n = some (c, sent) → (∀ t, sent ≠ .done t) → link.written <+: bytes ∧
        bytes <+: (said ++ [c]).flatMap Command.encode ∧
        bytes ≠ (said ++ [c]).flatMap Command.encode)) ∧
    (∀ n t stream, (after n).phase = .dialling →
      (after n).dials.take.1.ask (after n).record.opened w.target.text ((after n).ready w).clock =
        .stream t stream →
      let left := (Control.handshake w.target.pingTimeout stream t).stream
      Custody left (after (n + 1)) ∧ ∃ sent, tried n = some (.start, sent) ∧
      ((∃ u, sent = .done u) → Codec.Reads left.outlet.bytes [Command.start.toWord] []) ∧
      ((∀ u, sent ≠ .done u) → left.outlet.bytes <+: Command.start.encode ∧
        left.outlet.bytes ≠ Command.start.encode)) ∧
    (∀ n, dispatched w (after n) = some .ping ↔ ∃ sent, tried n = some (.pong, sent)) ∧
    (∀ n, (∃ u, .told u .pingSent ∈ does n) ↔ ∃ t, tried n = some (.ping, .done t)) ∧
    (∀ n c t fault, tried n = some (c, .failed t fault) →
      (c = .start ∨ c = .pong ∨ c = .ping) ∧ (after (n + 1)).phase = .pausing ∧
      (∃ front, does n = front ++ [.told t (.controlLost (writeError c fault).message)]) ∧
      ∀ u, .told u .pingSent ∉ does n) := by
  intro s after does tried
  have hnone : s.phase.link? = none := by
    simp only [s, start]
    split <;> rfl
  refine ⟨fun n link hl => ?_, fun n t stream hp ha => ?_, fun n => dispatched_ping_iff,
    fun n => told_pingSent_iff, fun n c t fault h => ⟨?_, ?_⟩⟩
  · obtain ⟨m, stream, hheld⟩ := held_of_link hnone hl
    have hwritten := hheld.written
    refine ⟨m, stream, hheld, ?_, ?_, fun hdone => ?_, fun c sent ha hs => ?_⟩
    · rw [hwritten]
      exact Codec.reads_flatMap_encode _
    · simp only [after, run_succ]
      exact step_custody hl
    · cases speaks_streamAfter (w := w) hl with
      | whole _ hb =>
        rw [hb, hwritten, ← List.flatMap_append]
        exact Codec.reads_flatMap_encode _
      | cut ha hs =>
        obtain ⟨t, ht⟩ := hdone _ _ ha
        exact absurd ht (hs t)
    · cases speaks_streamAfter (w := w) hl with
      | whole hdone =>
        obtain ⟨t, ht⟩ := hdone _ _ ha
        exact absurd ht (hs t)
      | cut ha' _ hpart hne hb =>
        cases ha'.symm.trans ha
        rw [hb, List.flatMap_append, List.flatMap_singleton, ← hwritten]
        exact ⟨List.prefix_append .., List.prefix_append_right_inj _ |>.2 hpart,
          fun h => hne (List.append_cancel_left h)⟩
  · simp only [after, run_succ]
    exact speaks_of_dialling hp ha
  · rcases attempt_cases h with ⟨-, hc, -⟩ | ⟨-, link, u, -, hd, -⟩
    · exact .inl hc
    · exact .inr (Link.eq_pong_or_ping_of_due hd)
  · simp only [after, run_succ]
    exact lost_of_failed_attempt h

/-- A server whose peer falls silent between two pings. -/
def faltering : World where
  config := { mode := .tcpReverse, remoteHost := some "peer", pingTimeout := .ofMillis 2 }
  worker := .ofPlans []

/-- The peer takes two bytes of the second pong. -/
def falteringStart : Supervisor :=
  start faltering ⟨[.opens 0 ⟨[⟨0, .bytes (Word.encode 5556 ++ Command.ping.encode)⟩,
    ⟨3, .bytes (Command.pong.encode ++ Command.ping.encode)⟩], [(14, .refuse "reset")], none⟩],
    .hangs⟩ ⟨[], .hangs⟩ none

/-- The peer has read START, a pong and a ping when the answer to its second ping is cut. -/
theorem peer_reads_what_was_spoken_faltering :
    ∃ link, (run faltering 4 falteringStart).phase.link? = some link ∧
      Codec.Reads link.written [1001, 1003, 1002] [] ∧
      attempt faltering (run faltering 4 falteringStart) =
        some (.pong, .failed 3 (.refused "reset")) ∧
      (streamAfter faltering (run faltering 4 falteringStart) link).outlet.bytes ≠
        [Command.start, .pong, .ping, .pong].flatMap Command.encode ∧
      (run faltering 5 falteringStart).phase = .pausing := by
  have linked : (run faltering 4 falteringStart).phase.link?.isSome = true := by decide +kernel
  have cut : attempt faltering (run faltering 4 falteringStart) =
      some (.pong, .failed 3 (.refused "reset")) := by decide +kernel
  have dialled : ∀ m < 4, (run faltering m falteringStart).phase = .dialling → m = 0 := by
    decide +kernel
  have said : inSteps (spoken faltering) faltering falteringStart 0 4 = [.pong, .ping] := by
    decide +kernel
  unfold falteringStart at linked cut dialled said ⊢
  obtain ⟨hconn, -, -, -, hfail⟩ := peer_reads_what_was_spoken faltering _ _ _
  obtain ⟨link, hl⟩ := Option.isSome_iff_exists.1 linked
  obtain ⟨m, stream, hheld, hreads, -, -, hcut⟩ := hconn 4 link hl
  cases dialled m hheld.lt hheld.dialling
  rw [said] at hreads hcut
  exact ⟨link, hl, hreads, cut, (hcut _ _ cut (by simp)).2.2, (hfail 4 _ _ _ cut).2.1⟩

end Supervisor

end StreamServer
