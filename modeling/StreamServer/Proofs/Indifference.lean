/-
Idle words make no difference to a server. Put behind any words that its peers
say on control connections, any number of them, they change nothing that can
be seen of a run but the log: no event, no dial, no session, no byte that is
written and no time.

The two runs are compared step by step. A step of the one is a step of the
other, and if that leaves idle words to be read where the server turns to its
connection again, the other run takes a few steps more, which take no time and
do nothing else.
-/
import Mathlib.Data.List.GetD
import StreamServer.Proofs.IdleWords
import StreamServer.Proofs.Lockstep
import StreamServer.Proofs.Stretch

namespace StreamServer

/-! ## Asking again and again -/

namespace Openings

/-- What happens when a stream is asked for after it was asked for `k` times. -/
def nth (o : Openings) (k : Nat) : Opening := o.next.getD k o.afterwards

/-- What is left when a stream was asked for `k` times. -/
def skip (o : Openings) (k : Nat) : Openings := { o with next := o.next.drop k }

theorem take_skip (o : Openings) (k : Nat) : (o.skip k).take = (o.nth k, o.skip (k + 1)) := by
  unfold take skip nth
  by_cases hk : k < o.next.length
  · rw [List.drop_eq_getElem_cons hk, List.getD_eq_getElem _ _ hk]
  · have hle : o.next.length ≤ k := Nat.le_of_not_lt hk
    rw [List.drop_eq_nil_of_le hle, List.drop_eq_nil_of_le (Nat.le_succ_of_le hle),
      List.getD_eq_default _ _ hle]

end Openings

namespace Supervisor

open Control

variable {s s' : Supervisor}

/-! ## Servers that are alike -/

/-- The server without what it is doing, how it came there, whom it may reach next, and what it said. -/
def bare (s : Supervisor) : Supervisor := s.recast 0 .accepting ⟨[], .hangs⟩ s.mailbox []

/-- The servers differ in nothing but what they are doing, how many steps they have made, whom they may
reach next, and what they said. -/
def Alike (s s' : Supervisor) : Prop := s'.bare = s.bare

namespace Alike

theorem clock (h : Alike s s') : s'.clock = s.clock := (congrArg (·.clock) h :)

theorem dialled (h : Alike s s') : s'.record.dials = s.record.dials :=
  (congrArg (·.record.dials) h :)

theorem map {f : Supervisor → Supervisor} (h : Alike s s') (hf : Blind f) : Alike (f s) (f s') := by
  have hbare : ∀ x, (f x).bare = f x.bare := by
    intro x
    have hmailbox : (f x).mailbox = x.mailbox := (congrArg (·.mailbox) (hf.recast_self x) :)
    unfold bare
    rw [hf.recast, hmailbox]
  unfold Alike
  rw [hbare, hbare, h]

theorem emit (h : Alike s s') (e : Event) : Alike (s.emit e) (s'.emit e) := by
  -- A mailbox that takes no more is remarked upon in the log, and nowhere else.
  have hbare : ∀ x : Supervisor, (x.emit e).bare = (x.bare.emit e).bare := by
    intro x
    unfold Supervisor.emit
    have hmailbox : x.bare.mailbox = x.mailbox := rfl
    dsimp only
    rw [hmailbox]
    cases x.mailbox with
    | none => rfl
    | some m =>
      have hclock : x.bare.clock = x.clock := rfl
      dsimp only
      rw [hclock]
      rcases m.post x.clock e with ⟨went, m'⟩
      cases went <;> rfl
  unfold Alike
  rw [hbare s', hbare s, h]

end Alike

/-- Connections that are the same but for idle words on the second, and streams to which nothing else was
written. -/
def padding : Kinship where
  link := Link.AlikeBy Inbox.Pads
  stream x y := y.transcript = x.transcript
  mono h htu := h.mono Inbox.Pads.mono htu
  dataPort h := h.dataPort
  closeLog h := h.closeLog
  held h := h.transcript
  refl _ := rfl
  transcript h := h

theorem lockstep_alike : Lockstep padding Alike where
  clock h := h.clock
  registry h := (congrArg (·.registry) h :)
  exiting h := (congrArg (·.exiting) h :)
  retry h := (congrArg (·.retry) h :)
  accepts h := (congrArg (·.accepts) h :)
  opened h := (congrArg (·.record.opened) h :)
  map h hf := h.map hf
  say h _ := h
  emit h e := h.emit e
  become h _ := h
  takeDial h := h

/-- The servers are alike and do the same, but for idle words. -/
abbrev Padded : Supervisor → Supervisor → Prop := Abreast padding Alike

variable {w : World}

/-- A turn that finds no idle words before what the other finds comes to the same. -/
theorem turned_of_padded {l m : Link} {t : Instant} (h : l.Padded t [] m) :
    padding.Turned (l.next t) (m.next t) := by
  have hturn := Link.next_padded h (Nat.le_refl t)
  exact ⟨hturn.outcome, hturn.log, hturn.transcript, fun u e ho => hturn.link u _ ho rfl⟩

theorem tried_of_alikeBy {a b : Handshake} (h : a.AlikeBy Inbox.Pads b) (opened : Instant) :
    padding.Tried (.dialled opened a) (.dialled opened b) := by
  cases h with
  | linked hl => exact .linked hl
  | failed _ held => exact .unanswered held
  | never _ held => exact .hung held

/-- An attempt at which nothing but idle words is added comes to the same. -/
theorem tried_of_padded {o o' : Opening} (h : o.Padded o') (target : Target) (serial : Nat)
    (now : Instant) :
    padding.Tried (connect target o serial now) (connect target o' serial now) := by
  cases h with
  | opens delay hp => exact tried_of_alikeBy (hp.handshake ..) _
  | fails => exact .failed
  | hangs => exact .never

/-- No idle words are before what the server turns to next. -/
def Ready (s s' : Supervisor) : Prop :=
  ∀ l m, s.phase = .serving l → s'.phase = .serving m → l.Padded s.clock [] m

/-- A step of the one is a step of the other, if both are held up as long. -/
theorem Padded.step {lag : Nat → Nat} (h : Padded s s') (hready : Ready s s')
    (hdial : s.phase = .dialling → s.dials.take.1.Padded s'.dials.take.1)
    (hdata : ∀ link, s.phase = .fetching link → s'.dials.take.1 = s.dials.take.1)
    (hlag : s.phase.isFinal = false → lag s'.steps = w.lag s.steps) :
    Padded (s.step w) (s'.step { w with lag := lag }) := by
  cases hf : s.phase.isFinal with
  | true => rwa [step_of_final hf, step_of_final (h.phase.isFinal_eq.trans hf)]
  | false =>
    rw [step_of_not_final hf, step_of_not_final (h.phase.isFinal_eq.trans hf)]
    have hle := ready_clock_le w s
    have halike : Alike (s.ready w) (s'.ready { w with lag := lag }) := by
      unfold ready
      dsimp only
      rw [hlag hf]
      exact h.alike.map (f := fun x => { x with clock := x.clock + w.lag s.steps })
        ⟨fun _ _ _ _ _ _ => rfl, fun _ => rfl⟩
    exact lockstep_alike.act ⟨halike, h.phase.mono hle⟩
      (fun l m hl hm => turned_of_padded ((hready l m hl hm).mono hle))
      (fun hp => tried_of_padded (hdial hp) ..) hdata

/-- A step on an idle word changes nothing, and takes no time if the server is not held up. -/
theorem step_of_pending {word : Word} {pending : List Word} {l m : Link} (h : Alike s s')
    (hp : s'.phase = .serving m) (hl : l.Padded s.clock (word :: pending) m)
    (hlag : w.lag s'.steps = 0) :
    Alike s (s'.step w) ∧ ∃ m', (s'.step w).phase = .serving m' ∧ l.Padded s.clock pending m' := by
  obtain ⟨ho, hrest⟩ := Link.next_pending hl (Nat.le_refl s.clock)
  have hready : s'.ready w = { s' with steps := s'.steps + 1 } := by simp [ready, hlag]
  have hstep : s'.step w = (({ s' with steps := s'.steps + 1 }.say (m.next s.clock).log).moveTo
      s.clock).become (.serving (m.next s.clock).link) := by
    rw [step_of_not_final (by rw [hp]; rfl), hready]
    unfold act
    dsimp only
    rw [hp]
    simp only [takeTurn, h.clock, ho]
    rfl
  rw [hstep]
  refine ⟨?_, _, rfl, hrest⟩
  rw [← h.clock]
  exact h

/-- Idle words that come before what the other server turns to are read one after another, and then it
is ready as well. -/
theorem Alike.catch_up {pending : List Word} {l m : Link} (h : Alike s s')
    (hp : s.phase = .serving l) (hp' : s'.phase = .serving m) (hl : l.Padded s.clock pending m)
    (hlag : ∀ n, w.lag n = 0) :
    ∃ k, (∀ j ≤ k, Padded s (run w j s')) ∧ Ready s (run w k s') := by
  have hpadded : Padded s s' := ⟨h, by rw [hp, hp']; exact .serving hl.alikeBy⟩
  induction pending generalizing s' m with
  | nil =>
    refine ⟨0, fun j hj => ?_, fun l' m' hl' hm' => ?_⟩
    · rwa [Nat.le_zero.1 hj]
    · cases hp.symm.trans hl'
      cases hp'.symm.trans hm'
      exact hl
  | cons word pending ih =>
    obtain ⟨h', m', hm', hl'⟩ := step_of_pending h hp' hl (hlag _)
    obtain ⟨k, hall, hready⟩ := ih h' hm' hl' ⟨h', by rw [hp, hm']; exact .serving hl'.alikeBy⟩
    refine ⟨k + 1, fun j hj => ?_, hready⟩
    cases j with
    | zero => exact hpadded
    | succ j => exact hall j (Nat.le_of_succ_le_succ hj)

theorem Padded.catch_up (h : Padded s s') (hlag : ∀ n, w.lag n = 0) :
    ∃ k, (∀ j ≤ k, Padded s (run w j s')) ∧ Ready s (run w k s') := by
  by_cases hserving : ∃ l, s.phase = .serving l
  · obtain ⟨l, hp⟩ := hserving
    have hphase := h.phase
    generalize hp' : s'.phase = p' at hphase
    rw [hp] at hphase
    cases hphase with
    | serving hl =>
      obtain ⟨hm, pending, hl⟩ := hl
      exact h.alike.catch_up hp hp' ⟨hm, hl⟩ hlag
  · refine ⟨0, fun j hj => ?_, fun l _ hl _ => absurd ⟨l, hl⟩ hserving⟩
    rwa [Nat.le_zero.1 hj]

/-! ## Whom they reach -/

/-- As often as the server has dialled, so much is gone of what was to come of it. -/
def Queued (dials : Openings) (s : Supervisor) : Prop :=
  s.dials = dials.skip s.record.dials.length

variable {dials dials' : Openings}

theorem Queued.take (h : Queued dials s) :
    s.dials.take = (dials.nth s.record.dials.length, dials.skip (s.record.dials.length + 1)) := by
  rw [h, Openings.take_skip]

theorem Queued.move (h : Queued dials s) (ht : Transition w s s') : Queued dials s' := by
  cases ht with
  | unreached _ ho | unanswered _ ho | connected _ ho | dialHung _ ho | handshakeHung _ ho
  | fetched _ ho | notFetched _ ho | fetchHung _ ho =>
    rw [h.take] at ho
    cases ho
    simp [Queued]
  | _ => exact h

theorem Queued.run (h : Queued dials s) (n : Nat) : Queued dials (run w n s) :=
  run_keeps (P := Queued dials) (fun _ => Iff.rfl) (fun _ _ h => h) (fun _ _ => Queued.move) h n

theorem Queued.start (w : World) (dials accepts : Openings) (mailbox : Option Mailbox) :
    Queued dials (start w dials accepts mailbox) := rfl

/-! ## What can be seen -/

/-- What can be seen of a server, but the log. -/
structure Seen where
  clock : Instant
  record : Record
  transcripts : List Transcript
  exit? : Option Exit
  mailbox : Option Mailbox

/-- All that has happened so far, each with its time, but what was said about it. -/
def seen (s : Supervisor) : Seen where
  clock := s.clock
  record := { s.record with log := [] }
  transcripts := s.transcripts
  exit? := s.exit?
  mailbox := s.mailbox

theorem Padded.seen_eq (h : Padded s s') : s'.seen = s.seen := by
  have hrecord : { s'.record with log := [] } = { s.record with log := [] } :=
    (congrArg (·.record) h.alike :)
  have hmailbox : s'.mailbox = s.mailbox := (congrArg (·.mailbox) h.alike :)
  have hretired : s'.record.transcripts = s.record.transcripts :=
    (congrArg (·.record.transcripts) h.alike :)
  have hheld : s'.phase.streams.map (·.transcript none) = s.phase.streams.map (·.transcript none) := by
    have hmap := congrArg (List.map (· none)) h.phase.transcripts
    rw [List.map_map, List.map_map] at hmap
    exact hmap
  have hexit : s'.exit? = s.exit? := by
    refine Option.ext fun exit => ?_
    rw [exit?_eq_some_iff, exit?_eq_some_iff]
    exact h.phase.ended_iff exit
  unfold seen transcripts
  rw [h.alike.clock, hrecord, hmailbox, hretired, hheld, hexit]

/-! ## Whole runs -/

/-- The servers are where one step of each leads to the same, and the second has taken from `dials` for
each dial it made. -/
structure Synced (dials : Openings) (s s' : Supervisor) : Prop where
  padded : Padded s s'
  ready : Ready s s'
  queued : Queued dials s'

/-- From there the one makes a step, the other makes it and reads what is idle, and there they are
again. -/
theorem Synced.follow {n : Nat} (h : Synced dials' s s') (hs : Queued dials s)
    (hpad : ∀ k, (dials.nth k).Padded (dials'.nth k))
    (hdata : ∀ link, s.phase = .fetching link →
      dials'.nth s.record.dials.length = dials.nth s.record.dials.length)
    (hsteps : s.phase.isFinal = false → s.steps = n) :
    ∃ k, (∀ j ≤ k, Padded (s.step w) (run (w.held 0) j (s'.step (w.held (w.lag n))))) ∧
      Synced dials' (s.step w) (run (w.held 0) k (s'.step (w.held (w.lag n)))) := by
  have htake : s.dials.take.1 = dials.nth s.record.dials.length := by rw [hs.take]
  have htake' : s'.dials.take.1 = dials'.nth s.record.dials.length := by
    rw [h.queued.take, h.padded.alike.dialled]
  have hstep : Padded (s.step w) (s'.step (w.held (w.lag n))) := by
    refine h.padded.step h.ready (fun _ => ?_) (fun link hp => ?_) fun hf => by rw [hsteps hf]
    · rw [htake, htake']
      exact hpad _
    · rw [htake, htake']
      exact hdata link hp
  obtain ⟨k, hall, hready⟩ := hstep.catch_up (w := w.held 0) fun _ => rfl
  have hqueued : Queued dials' (s'.step (w.held (w.lag n))) := h.queued.run 1
  exact ⟨k, hall, hall k (Nat.le_refl k), hready, hqueued.run k⟩

theorem start_phase (w : World) (dials accepts : Openings) (mailbox : Option Mailbox) :
    (start w dials accepts mailbox).phase = .accepting ∨
      (start w dials accepts mailbox).phase = .dialling := by
  unfold start
  split
  · exact .inl rfl
  · exact .inr rfl

theorem Synced.start (w : World) (dials dials' accepts : Openings) (mailbox : Option Mailbox) :
    Synced dials' (start w dials accepts mailbox) (start w dials' accepts mailbox) where
  padded := by
    refine ⟨rfl, ?_⟩
    have hsame : (Supervisor.start w dials' accepts mailbox).phase =
      (Supervisor.start w dials accepts mailbox).phase := rfl
    rw [hsame]
    rcases start_phase w dials accepts mailbox with hp | hp <;> rw [hp]
    · exact .accepting
    · exact .dialling
  ready := by
    intro l m hl
    rcases start_phase w dials accepts mailbox with hp | hp <;> cases hp.symm.trans hl
  queued := Queued.start w dials' accepts mailbox

/-- Idle words on control connections change nothing that can be seen but the log. In the second of two
runs the server comes upon the same when it dials, but that behind any complete word there may be any
number of words that are START or have no meaning, at the time when that word can be read; streams that
are dialled for data are the same altogether. Then step `n` of the first run is step `σ n` of the second,
and the steps in between, which are not held up, show nothing new. -/
theorem idle_words_change_nothing (w : World) (dials dials' accepts : Openings)
    (mailbox : Option Mailbox) (hpad : ∀ k, (dials.nth k).Padded (dials'.nth k))
    (hdata : ∀ n link, (run w n (start w dials accepts mailbox)).phase = .fetching link →
      let k := (run w n (start w dials accepts mailbox)).record.dials.length
      dials'.nth k = dials.nth k) :
    let a := fun n => run w n (start w dials accepts mailbox)
    ∃ σ : Nat → Nat, StrictMono σ ∧ σ 0 = 0 ∧
      let b := fun m => run (stretch σ w) m (start w dials' accepts mailbox)
      (∀ n, (b (σ n)).seen = (a n).seen) ∧
      (∀ n m, σ n < m → m ≤ σ (n + 1) → (b m).seen = (a (n + 1)).seen) ∧
      ((∀ n, w.lag n = 0) → stretch σ w = w) := by
  intro a
  have hstart : Synced dials' (a 0) (start w dials' accepts mailbox) := Synced.start ..
  have hfollow : ∀ n x, Synced dials' (a n) x → ∃ k,
      (∀ j ≤ k, Padded (a (n + 1)) (run (w.held 0) j (x.step (w.held (w.lag n))))) ∧
      Synced dials' (a (n + 1)) (run (w.held 0) k (x.step (w.held (w.lag n)))) := by
    intro n x hx
    have hqueued : Queued dials (a n) := (Queued.start w dials accepts mailbox).run n
    have hsteps : (a n).phase.isFinal = false → (a n).steps = n := fun hf =>
      (run_steps n hf).trans (Nat.zero_add n)
    have hnext : a (n + 1) = (a n).step w := run_succ n _
    rw [hnext]
    exact hx.follow hqueued hpad (hdata n) hsteps
  obtain ⟨σ, hmono, hzero, hall⟩ := exists_stretch (P := fun n x => Padded (a n) x) rfl hstart hfollow
  refine ⟨σ, hmono, hzero, fun n => ?_, fun n m hlt hle => (hall n m hlt hle).seen_eq,
    stretch_of_free σ⟩
  cases n with
  | zero =>
    rw [hzero]
    exact hstart.padded.seen_eq
  | succ n => exact (hall n _ (hmono (Nat.lt_succ_self n)) (Nat.le_refl _)).seen_eq

/-- A server that pings when it has heard nothing for a while. -/
def attentive : World where
  config := { mode := .tcpReverse, remoteHost := some "peer", pingTimeout := .ofMillis 20 }
  worker := .ofPlans []

/-- A peer that orders one stream, answers one ping and says STOP, with these words behind the port, the
order and the answer. -/
def chatty (noise : List Word) : Openings :=
  ⟨[.opens 0 ⟨[⟨0, .bytes (Word.encode 5556 ++ spell noise)⟩,
      ⟨5, .bytes (Command.new.encode ++ spell noise)⟩,
      ⟨45, .bytes (Command.pong.encode ++ spell noise)⟩,
      ⟨60, .bytes Command.stop.encode⟩], [], none⟩,
    .opens 7 ⟨[⟨0, .bytes Flags.empty.encode⟩, ⟨30, .ended⟩], [], none⟩], .hangs⟩

/-- A server at the start of a run with that peer. -/
def besideChatty (noise : List Word) : Supervisor :=
  start attentive (chatty noise) ⟨[], .hangs⟩ none

/-- With START and two words without a meaning each time, the server still starts its session, pings once
and stops when it is told to. -/
theorem idle_words_change_nothing_chatty :
    (run attentive 10 (besideChatty [])).exit? = some .stopped ∧
    (run attentive 10 (besideChatty [])).record.events = [(0, .controlConnected 5556),
      (12, .sessionStarted ⟨1⟩ 0 1), (32, .pingSent)] ∧
    ∃ σ : Nat → Nat, StrictMono σ ∧ σ 0 = 0 ∧
      (∀ n, (run attentive (σ n) (besideChatty [1001, 7, 0])).seen =
        (run attentive n (besideChatty [])).seen) ∧
      ∀ n m, σ n < m → m ≤ σ (n + 1) → (run attentive m (besideChatty [1001, 7, 0])).seen =
        (run attentive (n + 1) (besideChatty [])).seen := by
  have stopped : (run attentive 10 (besideChatty [])).exit? = some .stopped := by decide +kernel
  have told : (run attentive 10 (besideChatty [])).record.events = [(0, .controlConnected 5556),
      (12, .sessionStarted ⟨1⟩ 0 1), (32, .pingSent)] := by decide +kernel
  have dialled : ∀ n < 10, (run attentive n (besideChatty [])).phase = .dialling ∨
      (run attentive n (besideChatty [])).record.dials.length ≠ 0 := by decide +kernel
  -- Only the first dial meets with something else.
  have same : ∀ k, k ≠ 0 → (chatty [1001, 7, 0]).nth k = (chatty []).nth k := by
    intro k hk
    obtain ⟨j, rfl⟩ := Nat.exists_eq_succ_of_ne_zero hk
    rfl
  have idle : ∀ w ∈ ([1001, 7, 0] : List Word), w.isIdle = true :=
    List.all_eq_true.1 (by decide +kernel)
  have padded : ∀ k, ((chatty []).nth k).Padded ((chatty [1001, 7, 0]).nth k) := by
    intro k
    cases k with
    | zero =>
      refine .opens 0 ⟨rfl, rfl, ?_, rfl⟩
      exact .word [1001, 7, 0] idle (.word [1001, 7, 0] idle (.word [1001, 7, 0] idle (.same _)))
    | succ k =>
      rw [same _ (Nat.succ_ne_zero k)]
      exact .refl _
  have fetched : ∀ n link, (run attentive n (besideChatty [])).phase = .fetching link →
      let k := (run attentive n (besideChatty [])).record.dials.length
      (chatty [1001, 7, 0]).nth k = (chatty []).nth k := by
    intro n link hp
    by_cases hn : n < 10
    · rcases dialled n hn with hdialling | hne
      · cases hp.symm.trans hdialling
      · exact same _ hne
    · have hended := exit?_eq_some_iff.1 stopped
      obtain ⟨j, rfl⟩ := Nat.exists_eq_add_of_le (Nat.le_of_not_lt hn)
      rw [run_add, run_of_final (by rw [hended]; rfl)] at hp
      cases hended.symm.trans hp
  obtain ⟨σ, hmono, hzero, hsteps, hbetween, hfree⟩ :=
    idle_words_change_nothing attentive (chatty []) (chatty [1001, 7, 0]) ⟨[], .hangs⟩ none padded fetched
  rw [hfree fun _ => rfl] at hsteps hbetween
  exact ⟨stopped, told, σ, hmono, hzero, hsteps, hbetween⟩

end Supervisor

end StreamServer
