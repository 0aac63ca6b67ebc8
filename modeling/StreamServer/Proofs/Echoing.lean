/-
What a client gets back from a session that sends everything back. The flags
and the payload come on one stream and are read by two readers, one after the
other: the first takes four bytes and leaves the rest as it is, wherever the
reads are cut, and the second copies the rest.
-/
import StreamServer.Proofs.Connection
import StreamServer.Proofs.Copying

namespace StreamServer

open Arrival

/-! ## The flags -/

/-- Reading so many bytes takes just these off a stream that has them. -/
theorem readExact_of_le (need : Nat) (now : Instant) (got : List UInt8) {arrivals : List Arrival}
    (hpos : 0 < need) (h : need ≤ (incoming arrivals).length) :
    ∃ t rest, readExact need now got arrivals = .complete t (got ++ (incoming arrivals).take need) rest ∧
      incoming rest = (incoming arrivals).drop need ∧ fate rest = fate arrivals := by
  induction arrivals generalizing need now got with
  | nil => exact absurd h (Nat.not_le_of_lt hpos)
  | cons a arrivals ih =>
    simp only [readExact, incoming, fate] at h ⊢
    cases hin : a.input with
    | bytes data =>
      simp only [hin, List.length_append] at h ⊢
      by_cases hlt : data.length < need
      · obtain ⟨t, rest, hread, hrest, hfate⟩ := ih (need - data.length) (max now a.due)
          (got ++ data) (by omega) (by omega)
        refine ⟨t, rest, ?_, ?_, hfate⟩
        · rw [if_pos hlt, hread, List.take_append, List.take_of_length_le (Nat.le_of_lt hlt),
            List.append_assoc]
        · rw [hrest, List.drop_append, List.drop_eq_nil_of_le (Nat.le_of_lt hlt), List.nil_append]
      · have hle : need ≤ data.length := Nat.le_of_not_lt hlt
        refine ⟨max now a.due, leave a.due (data.drop need) arrivals, ?_, ?_, fate_leave ..⟩
        · rw [if_neg hlt, List.take_append_of_le_length hle]
        · rw [incoming_leave, List.drop_append_of_le_length hle]
    | ended | fault reason =>
      simp only [hin, List.length_nil] at h
      omega

/-- The flags are read and nothing beyond them. -/
theorem Greeting.read_flags {stream : Stream} {flags : Flags} {payload : List UInt8}
    (h : incoming stream.arrivals = flags.encode ++ payload) (now : Instant) :
    ∃ t arrivals, Greeting.read stream now = .flags t flags { stream with arrivals := arrivals } ∧
      incoming arrivals = payload ∧ fate arrivals = fate stream.arrivals := by
  have hsize : flags.encode.length = Word.size := Word.length_encode _
  have henough : Word.size ≤ (incoming stream.arrivals).length := by
    rw [h, List.length_append, hsize]
    omega
  obtain ⟨t, rest, hread, hrest, hfate⟩ := readExact_of_le Word.size now [] (by decide) henough
  have hflags : flagsOf flags.encode = flags := by
    have htake := Word.take?_encode flags.bits []
    rw [List.append_nil] at htake
    simp only [flagsOf, Flags.encode, htake]
  refine ⟨t, rest, ?_, ?_, hfate⟩
  · rw [read, hread, h, List.nil_append, ← hsize, List.take_left]
    simp only [outcome, hflags]
  · rw [hrest, h, ← hsize, List.drop_left]

theorem Flags.not_requestsExit {flags : Flags} (h : flags.bits &&& 1 = 0) :
    flags.requestsExit = false := by
  simp [requestsExit, contains, exit, h]

/-! ## The payload -/

theorem joinWrites_bytes (writes : List (Instant × List UInt8)) :
    (joinWrites writes).flatMap (·.2) = writes.flatMap (·.2) := by
  induction writes with
  | nil => rfl
  | cons x rest ih =>
    obtain ⟨t, data⟩ := x
    rw [List.flatMap_cons, ← ih, joinWrites]
    cases joinWrites rest with
    | nil => rfl
    | cons y more =>
      obtain ⟨u, next⟩ := y
      dsimp only
      split <;> simp

/-- Where writes stand in the order of their times, those by a time come first. -/
theorem filter_prefix_of_sorted {writes : List (Instant × List UInt8)}
    (h : writes.Pairwise (·.1 ≤ ·.1)) (t : Instant) : writes.filter (·.1 ≤ t) <+: writes := by
  induction writes with
  | nil => exact List.prefix_refl _
  | cons x rest ih =>
    obtain ⟨hx, hrest⟩ := List.pairwise_cons.1 h
    by_cases hle : x.1 ≤ t
    · rw [List.filter_cons_of_pos (by simpa using hle)]
      exact (List.prefix_cons_inj x).2 (ih hrest)
    · have hnone : (x :: rest).filter (·.1 ≤ t) = [] := by
        refine List.filter_eq_nil_iff.2 fun y hy => ?_
        rcases List.mem_cons.1 hy with rfl | hy
        · simpa using hle
        · have hxy := hx y hy
          simp only [decide_eq_true_eq]
          exact fun hyt => hle (Nat.le_trans hxy hyt)
      rw [hnone]
      exact List.nil_prefix

namespace Worker

open Copy

/-- What was written on the stream of a job by a time. -/
def Course.writtenBy (course : Course) (t : Instant) : List UInt8 :=
  (course.transcript.upTo t).writes.flatMap (·.2)

/-- All that is ever written on the stream of a job. -/
def Course.written (course : Course) : List UInt8 := course.transcript.writes.flatMap (·.2)

/-- The payload of a stream that ends so, if it does, is sent back as far as the barrier of its outlet
allows. -/
structure Echoes (payload : List UInt8) (end_ : Option Input) (barrier : Option (Nat × Overflow))
    (course : Course) : Prop where
  /-- What was sent back by any time is a front of the payload. -/
  front : ∀ t, course.writtenBy t <+: payload
  /-- A stream that ends cleanly is sent back whole. -/
  whole : end_ = some .ended → Obstacles.TakesAll barrier payload.length →
    course.written = payload ∧ ∃ t, course.ending = some (t, .exited 0)
  /-- A read that fails is an error. -/
  unread : ∀ reason, end_ = some (.fault reason) → Obstacles.TakesAll barrier payload.length →
    ∃ t, course.ending = some (t, .exited 1)
  /-- A write that fails is an error. -/
  unwritten : ∀ room overflow fault, barrier = some (room, overflow) →
    overflow.fault? = some fault → room < payload.length →
    ∃ t, course.ending = some (t, .exited 1)
  /-- A write that waits for ever keeps the job from ending, unless a read fails meanwhile. -/
  blocked : ∀ room, barrier = some (room, .stall none) → room < payload.length →
    course.ending = none ∨ ∃ t reason, end_ = some (.fault reason) ∧
      course.ending = some (t, .exited 1)
  /-- So does a stream that stays open, when all of it was sent back. -/
  unended : end_ = none → Obstacles.TakesAll barrier payload.length →
    course.written = payload ∧ course.ending = none

theorem transcript_echoCourse (id : SessionId) (stream : Stream) (r : Round) :
    (echoCourse id stream r).transcript.writes = r.outlet.written := by
  cases r with
  | finished t result c => cases result <;> rfl
  | again | never => rfl

/-- A job that sends everything back does so. -/
theorem echo_echoes {stream : Stream} (hw : stream.outlet.written = []) (id : SessionId)
    (now : Instant) :
    Echoes (incoming stream.arrivals) (fate stream.arrivals) stream.outlet.obstacles.barrier?
      (echo id stream now) := by
  obtain ⟨hstops, hsorted⟩ := run_stops hw now
  unfold echo
  have hwrites := transcript_echoCourse id stream ((Copy.start stream).run now)
  generalize (Copy.start stream).run now = r at hstops hsorted hwrites
  generalize incoming stream.arrivals = payload at hstops
  generalize stream.outlet.obstacles.barrier? = barrier at hstops
  have hwritten : (echoCourse id stream r).written = r.outlet.bytes := by
    rw [Course.written, hwrites]
    rfl
  have hfront : r.outlet.bytes <+: payload := by
    cases hstops with
    | copied _ hb | idle _ hb => exact hb ▸ List.prefix_refl _
    | unread _ hb => exact hb
    | unwritten _ _ _ hb | blocked _ _ hb => exact hb ▸ List.take_prefix ..
  have hby : ∀ t, (echoCourse id stream r).writtenBy t <+: payload := by
    intro t
    rw [Course.writtenBy, Transcript.upTo, joinWrites_bytes, hwrites]
    obtain ⟨later, hlater⟩ := filter_prefix_of_sorted hsorted t
    have hbytes := congrArg (List.flatMap (·.2)) hlater
    rw [List.flatMap_append] at hbytes
    exact List.IsPrefix.trans ⟨_, hbytes⟩ hfront
  refine ⟨hby, fun he htakes => ?_, fun reason he htakes => ?_, fun room overflow fault hl hf hroom => ?_,
    fun room hl hroom => ?_, fun he htakes => ?_⟩
  · cases hstops with
    | copied _ hb => exact ⟨hwritten.trans hb, _, rfl⟩
    | unread he' | idle he' => cases he'.symm.trans he
    | unwritten hl _ hroom | blocked hl hroom => exact absurd hroom (Nat.not_lt_of_le (htakes _ hl))
  · cases hstops with
    | unread | unwritten => exact ⟨_, rfl⟩
    | copied he' | idle he' => cases he'.symm.trans he
    | blocked hl hroom => exact absurd hroom (Nat.not_lt_of_le (htakes _ hl))
  · subst hl
    cases hstops with
    | unread | unwritten => exact ⟨_, rfl⟩
    | copied _ _ hall | idle _ _ hall => exact absurd hroom (Nat.not_lt_of_le (hall _ rfl))
    | blocked hl =>
      cases hl
      cases hf
  · subst hl
    cases hstops with
    | unread he => exact .inr ⟨_, _, he, rfl⟩
    | blocked => exact .inl rfl
    | copied _ _ hall | idle _ _ hall => exact absurd hroom (Nat.not_lt_of_le (hall _ rfl))
    | unwritten hl hf =>
      cases hl
      cases hf
  · cases hstops with
    | idle _ hb => exact ⟨hwritten.trans hb, rfl⟩
    | copied he' | unread he' => cases he'.symm.trans he
    | unwritten hl _ hroom | blocked hl hroom => exact absurd hroom (Nat.not_lt_of_le (htakes _ hl))

end Worker

/-! ## From the client to the session -/

namespace Supervisor

variable {w : World} {s s' : Supervisor} {n : Nat} {stream : Stream} {link : Option Link}

theorem afterStream_ne_greeting (s : Supervisor) (l : Option Link) :
    s.afterStream l ≠ .greeting stream link := by
  unfold afterStream
  split
  · simp
  · cases l <;> simp [Phase.back]

/-- A stream whose flags are to be read was just opened. -/
theorem Transition.opened_of_greeting (h : Transition w s s') (hp : s'.phase = .greeting stream link) :
    stream.outlet.written = [] := by
  cases h with
  | accepted _ _ ha | fetched _ _ ha =>
    cases hp
    obtain ⟨_, _, -, rfl⟩ := opens_of_ask ha
    rfl
  | notFetched | dismissed | full | refused | tracked | duplicate =>
    exact absurd hp (afterStream_ne_greeting _ _)
  | _ => cases hp

theorem opened_of_greeting (h₀ : s.phase ≠ .greeting stream link)
    (hp : (run w n s).phase = .greeting stream link) : stream.outlet.written = [] := by
  cases n with
  | zero => exact absurd hp h₀
  | succ n =>
    rw [run_succ] at hp
    cases hf : (run w n s).phase.isFinal with
    | true =>
      rw [step_of_final hf] at hp
      simp [hp, Phase.isFinal] at hf
    | false => exact (step_transition (w := w) hf).opened_of_greeting hp

theorem step_of_greeting {t : Instant} {flags : Flags} {rest : Stream}
    (hp : s.phase = .greeting stream link)
    (hg : Greeting.read stream (s.ready w).clock = .flags t flags rest)
    (hf : flags.requestsExit = false) : s.step w = ((s.ready w).moveTo t).number rest link := by
  rw [step_of_not_final (by rw [hp]; rfl)]
  unfold act
  rw [show (s.ready w).phase = .greeting stream link from hp]
  simp only [greet, hg, hf]
  rfl

/-- A stream that is up for a session goes on to the worker or is turned away. -/
theorem creating_or_rejected {id : SessionId} (hp : s.phase = .admitting id stream link) :
    (s.step w).phase = .creating id stream link ∨ ∃ e : SessionError,
      (s.step w).record.events =
        s.record.events ++ [((s.ready w).clock, .sessionRejected e.message)] := by
  have hmove := step_transition (w := w) (s := s) (by rw [hp]; rfl)
  have hp' : (s.ready w).quiet.phase = .admitting id stream link := hp
  have hphase : (s.step w).phase = (s.step w).quiet.phase := rfl
  have hevents : (s.step w).record.events = (s.step w).quiet.record.events := rfl
  rw [hphase, hevents]
  generalize (s.step w).quiet = after at hmove ⊢
  cases hmove with
  | admitted hp =>
    cases hp.symm.trans hp'
    exact .inl rfl
  | full => exact .inr ⟨_, rfl⟩
  | _ hp => cases hp.symm.trans hp'

theorem step_of_creating {id : SessionId} {course : Worker.Course}
    (hp : s.phase = .creating id stream link)
    (hc : w.worker.create id stream (s.ready w).clock = .ok course) :
    s.step w = ((s.ready w).noteJob id (some course)).launch id course link := by
  rw [step_of_not_final (by rw [hp]; rfl)]
  unfold act
  rw [show (s.ready w).phase = .creating id stream link from hp]
  simp only [create, hc]

/-- **The payload comes back.** A stream brings the word of some flags, of which the lowest bit is clear,
and then a payload, in whatever pieces. Its flags are read, and what is left is the payload. Unless it is
turned away, the worker is handed it, and one that sends everything back starts a session that sends the
payload back: whole, or up to where a read or a write fails or hangs. -/
theorem payload_comes_back (w : World) (dials accepts : Openings) (mailbox : Option Mailbox) (n : Nat)
    (stream : Stream) (link : Option Link) (flags : Flags) (payload : List UInt8) :
    let after k := run w k (start w dials accepts mailbox)
    let id := (after n).registry.nextId
    (after n).phase = .greeting stream link →
    incoming stream.arrivals = flags.encode ++ payload → flags.bits &&& 1 = 0 →
    ∃ t rest, Greeting.read stream ((after n).ready w).clock = .flags t flags rest ∧
      incoming rest.arrivals = payload ∧ (after (n + 1)).phase = .admitting id rest link ∧
      ((after (n + 2)).phase = .creating id rest link ∨ ∃ e : SessionError,
        (after (n + 2)).record.events = (after (n + 1)).record.events ++
          [(((after (n + 1)).ready w).clock, .sessionRejected e.message)]) ∧
      ((after (n + 2)).phase = .creating id rest link →
        let began := ((after (n + 2)).ready w).clock
        let course := Worker.echo id rest began
        w.worker.create id rest began = .ok course →
        (after (n + 3)).record.started =
          (after (n + 2)).record.started ++ [Session.start id began course.ending] ∧
        (after (n + 3)).record.transcripts =
          (after (n + 2)).record.transcripts ++ [course.transcript] ∧
        Worker.Echoes payload (fate stream.arrivals) stream.outlet.obstacles.barrier? course) := by
  intro after id hp hbytes hbit
  have hstart : (start w dials accepts mailbox).phase ≠ .greeting stream link := by
    simp only [start]
    split <;> simp
  have hfresh := opened_of_greeting hstart hp
  obtain ⟨t, arrivals, hread, hpayload, hfate⟩ := Greeting.read_flags hbytes ((after n).ready w).clock
  have hnumber := step_of_greeting hp hread (Flags.not_requestsExit hbit)
  have hadmit : (after (n + 1)).phase = .admitting id { stream with arrivals := arrivals } link := by
    simp only [after, run_succ]
    rw [hnumber]
    rfl
  refine ⟨t, _, hread, hpayload, hadmit, ?_, fun hcreate hjob => ?_⟩
  · simp only [after, run_succ (n + 1)]
    exact creating_or_rejected hadmit
  · have hlaunch := step_of_creating (w := w) hcreate hjob
    refine ⟨?_, ?_, ?_⟩
    · simp only [after, run_succ (n + 2)]
      rw [hlaunch]
      rfl
    · simp only [after, run_succ (n + 2)]
      rw [hlaunch]
      rfl
    · have hrest : ({ stream with arrivals := arrivals } : Stream).outlet.written = [] := hfresh
      rw [← hpayload, ← hfate]
      exact Worker.echo_echoes hrest ..

/-- A server whose sessions send everything back. -/
def mirror : World where
  config := {}
  worker := .ofPlans []

/-- A client whose first read has half of the flags, and whose second has the other half and part of
the payload. It takes one byte back, a second one later, and the third after it has closed its side. -/
def slowReader : Script where
  arrivals := [⟨0, .bytes [2, 0]⟩, ⟨1, .bytes [0, 0, 104, 105]⟩, ⟨2, .bytes [33]⟩, ⟨3, .ended⟩]
  obstacles := [(1, .stall (some 2)), (1, .stall (some 5))]
  closeFault := none

def mirrorStart : Supervisor := start mirror ⟨[], .hangs⟩ ⟨[.opens 0 slowReader], .hangs⟩ none

/-- The payload comes back whole, though half of the flags come with part of it and the writing has to
wait beyond the end of the stream. -/
theorem payload_comes_back_slowReader :
    (run mirror 1 mirrorStart).phase = .greeting (slowReader.openAt 0 "accept" 0) none ∧
      incoming slowReader.arrivals = Flags.encode ⟨2⟩ ++ [104, 105, 33] ∧
      ∃ rest, (run mirror 3 mirrorStart).phase =
          .creating (run mirror 1 mirrorStart).registry.nextId rest none ∧
        let began := ((run mirror 3 mirrorStart).ready mirror).clock
        let course := Worker.echo (run mirror 1 mirrorStart).registry.nextId rest began
        (run mirror 4 mirrorStart).record.transcripts =
          (run mirror 3 mirrorStart).record.transcripts ++ [course.transcript] ∧
        course.written = [104, 105, 33] ∧ ∃ t, course.ending = some (t, .exited 0) := by
  have greeting : (run mirror 1 mirrorStart).phase =
      .greeting (slowReader.openAt 0 "accept" 0) none := by decide +kernel
  have bytes : incoming slowReader.arrivals = Flags.encode ⟨2⟩ ++ [104, 105, 33] := by decide +kernel
  have room : (run mirror 3 mirrorStart).record.events = (run mirror 2 mirrorStart).record.events := by
    decide +kernel
  unfold mirrorStart at greeting room ⊢
  obtain ⟨t, rest, -, -, -, hroom, hjob⟩ := payload_comes_back mirror _ _ _ 1 _ none ⟨2⟩ [104, 105, 33]
    greeting ((slowReader.incoming_openAt ..).trans bytes) (by decide)
  have hcreate := hroom.resolve_right fun ⟨e, he⟩ => by simp [he] at room
  obtain ⟨-, htranscripts, hecho⟩ := hjob hcreate rfl
  exact ⟨greeting, bytes, rest, hcreate, htranscripts, hecho.whole (by decide +kernel) nofun⟩

end Supervisor

end StreamServer
