/-
Whom a server dials, and when. A server that clients come to dials nobody. One
that dials its peer dials the peer's control port to reach it, and the data port
of the connection it has once for each NEW that it dispatches on it, before it
looks at the next word. A dial for data that fails leaves no trace but in the
log, and a server that was told to stop or to exit dials no more.
-/
import StreamServer.Proofs.Connection
import StreamServer.Proofs.EventTrace

namespace StreamServer.Supervisor

open Arrival Happening

variable {w : World} {s s' : Supervisor} {m n : Nat} {link : Link}

/-! ## Steps that dial -/

theorem Transition.dials_eq (h : Transition w s s') (hd : s.phase ≠ .dialling)
    (hf : ∀ link, s.phase ≠ .fetching link) :
    s'.record.dials = s.record.dials ∧ s'.dials = s.dials := by
  cases h with
  | unreached hp | unanswered hp | connected hp | dialHung hp | handshakeHung hp =>
    exact absurd hp hd
  | fetched hp | notFetched hp | fetchHung hp => exact absurd hp (hf _)
  | _ => exact ⟨rfl, rfl⟩

theorem step_dials_eq (hd : s.phase ≠ .dialling) (hf : ∀ link, s.phase ≠ .fetching link) :
    (s.step w).record.dials = s.record.dials ∧ (s.step w).dials = s.dials := by
  cases hfinal : s.phase.isFinal with
  | true => simp [step_of_final hfinal]
  | false => exact (step_transition (w := w) hfinal).dials_eq hd hf

theorem Transition.added_of_fetching (h : Transition w s s') (hp : s.phase = .fetching link) :
    added false s s' = [.dialled false ⟨s.clock, w.config.host, link.dataPort⟩] := by
  cases h with
  | fetched hp' | notFetched hp' | fetchHung hp' =>
    rw [hp] at hp'
    cases hp'
    simp [added]
  | _ hp' =>
    rw [hp] at hp'
    cases hp'

/-- A step that dials for data does nothing else. -/
theorem happenings_of_fetching (hp : s.phase = .fetching link) :
    happenings w s = [.dialled false ⟨(s.ready w).clock, w.config.host, link.dataPort⟩] := by
  have hf : s.phase.isFinal = false := by rw [hp]; rfl
  have hadded := (step_transition (w := w) hf).added_of_fetching hp
  simp only [happenings, hp, reduceCtorEq, decide_false, if_false, List.append_nil]
  exact hadded

theorem mem_happenings_of_dial {control : Bool} {d : Dial}
    (h : .dialled control d ∈ happenings w s) :
    control = decide (s.phase = .dialling) ∧
      d ∈ (s.step w).record.dials.drop s.record.dials.length := by
  unfold happenings added at h
  simp only [List.mem_append, List.mem_map] at h
  rcases h with (⟨_, hd, heq⟩ | ⟨_, _, heq⟩) | hpause
  · cases heq
    exact ⟨rfl, hd⟩
  · cases heq
  · split at hpause <;> simp at hpause

theorem fetching_of_dial {d : Dial} (h : .dialled false d ∈ happenings w s) :
    ∃ link, s.phase = .fetching link := by
  obtain ⟨hcontrol, hmem⟩ := mem_happenings_of_dial h
  have hd : s.phase ≠ .dialling := by simpa using hcontrol.symm
  refine Classical.byContradiction fun hno => ?_
  have hsame := (step_dials_eq (w := w) hd fun link hp => hno ⟨link, hp⟩).1
  simp [hsame] at hmem

/-! ## Orders -/

/-- A server goes on to dial for data when it has dispatched NEW. -/
theorem step_of_new (hp : s.phase = .serving link) (hc : link.heard (s.ready w).clock = some .new) :
    (s.step w).phase = .fetching (link.next (s.ready w).clock).link := by
  obtain ⟨t, ho⟩ := Link.openData_iff_heard.2 hc
  have hr : (s.ready w).phase = .serving link := hp
  rw [step_of_not_final (by simp [hp, Phase.isFinal])]
  unfold act
  rw [hr]
  simp only [takeTurn, ho]
  rfl

/-- The step after that dials once, and dispatches nothing. -/
theorem dial_of_new (h : dispatched w s = some .new) : ∃ link, s.phase = .serving link ∧
    happenings w (s.step w) =
      [.dialled false ⟨((s.step w).ready w).clock, w.config.host, link.dataPort⟩] ∧
    dispatched w (s.step w) = none := by
  obtain ⟨link, hp, hc⟩ := serving_of_dispatched h
  have hfetching := step_of_new hp hc
  refine ⟨link, hp, ?_, dispatched_of_not_serving (by simp [hfetching])⟩
  rw [happenings_of_fetching hfetching, Link.dataPort_next]

theorem Transition.fetching_inv (h : Transition w s s') (hp' : s'.phase = .fetching link) :
    ∃ link t, s.phase = .serving link ∧ (link.next s.clock).outcome = some (t, .ok .openData) := by
  cases h with
  | ordered hp ho => exact ⟨_, _, hp, ho⟩
  | notFetched | dismissed | full | refused | tracked | duplicate =>
    exfalso
    dsimp only at hp'
    unfold afterStream Phase.back at hp'
    split at hp'
    · cases hp'
    · split at hp' <;> cases hp'
  | _ => cases hp'

/-- And it goes on so for no other reason. -/
theorem new_of_fetching (hf : s.phase.isFinal = false) (hp' : (s.step w).phase = .fetching link) :
    dispatched w s = some .new := by
  obtain ⟨link, t, hp, ho⟩ := (step_transition (w := w) hf).fetching_inv hp'
  have hserving : s.phase = .serving link := hp
  rw [dispatched_of_serving hserving]
  exact Link.openData_iff_heard.1 ⟨t, ho⟩

theorem new_before_fetching (h₀ : s.phase.link? = none) (hp : (run w n s).phase = .fetching link) :
    ∃ m, n = m + 1 ∧ dispatched w (run w m s) = some .new := by
  cases n with
  | zero =>
    rw [show s.phase = .fetching link from hp] at h₀
    cases h₀
  | succ m =>
    rw [run_succ] at hp
    refine ⟨m, rfl, new_of_fetching (eq_false_of_ne_true fun hf => ?_) hp⟩
    rw [step_of_final hf] at hp
    simp [hp, Phase.isFinal] at hf

/-- A dial for data that fails leaves the server with its connection, and all that it keeps and has
told as it was. -/
theorem step_of_failed_fetch {delay : Nat} {reason : String} (hr : Resolute s)
    (hp : s.phase = .fetching link) (ho : s.dials.take.1 = .fails delay reason) :
    let s' := s.step w
    s'.phase = .serving link ∧ s'.registry = s.registry ∧ s'.exiting = s.exiting ∧
      s'.mailbox = s.mailbox ∧ s'.record.events = s.record.events ∧
      s'.record.transcripts = s.record.transcripts := by
  have hx : (s.ready w).exiting = false := hr.exiting_eq_false (by simp [hp, Phase.isLeaving])
  have hp' : (s.ready w).phase = .fetching link := hp
  have hask : ∀ serial peer now, (s.ready w).dials.take.1.ask serial peer now =
      .failed (now + delay) reason := by
    intro serial peer now
    rw [show (s.ready w).dials.take.1 = .fails delay reason from ho]
    rfl
  have hstep : s.step w = (s.ready w).fetch w link := by
    rw [step_of_not_final (by simp [hp, Phase.isFinal])]
    unfold act
    rw [hp']
  rw [hstep]
  unfold fetch resume
  simp only [hask, moveTo, noteDial, say, hx, become]
  exact ⟨trivial, rfl, hx.symm, rfl, rfl, rfl⟩

/-! ## Who dials nobody -/

/-- The server has to do with clients only, and dials nobody. -/
structure Receives (dials : Openings) (s : Supervisor) : Prop where
  link : s.phase.link? = none
  phase : s.phase.isReaching = false
  script : s.dials = dials
  dialled : s.record.dials = []

theorem Transition.receives (h : Transition w s s') (hl : s.phase.link? = none)
    (hp : s.phase.isReaching = false) : s'.phase.link? = none ∧ s'.phase.isReaching = false := by
  have hd : s.phase ≠ .dialling := fun hd => by simp [hd, Phase.isReaching] at hp
  refine ⟨h.link?_eq_none hl hd, ?_⟩
  cases h with
  | unreached hp' | unanswered hp' | rested hp' => simp [hp', Phase.isReaching] at hp
  | lost hp' => simp [hp', Phase.link?] at hl
  | notFetched | dismissed | full | refused | tracked | duplicate => exact afterStream_isReaching ..
  | _ => rfl

theorem Receives.move {dials : Openings} (h : Receives dials s) (ht : Transition w s s') :
    Receives dials s' := by
  have hd : s.phase ≠ .dialling := fun hd => by simpa [hd, Phase.isReaching] using h.phase
  have hf : ∀ link, s.phase ≠ .fetching link := fun link hf => by simpa [hf, Phase.link?] using h.link
  obtain ⟨hdialled, hscript⟩ := ht.dials_eq hd hf
  obtain ⟨hlink, hphase⟩ := ht.receives h.link h.phase
  exact ⟨hlink, hphase, hscript.trans h.script, hdialled.trans h.dialled⟩

theorem Receives.run {dials : Openings} (h : Receives dials s) (n : Nat) :
    Receives dials (run w n s) :=
  run_keeps (P := Receives dials) (fun _ => ⟨fun ⟨h₁, h₂, h₃, h₄⟩ => ⟨h₁, h₂, h₃, h₄⟩,
    fun ⟨h₁, h₂, h₃, h₄⟩ => ⟨h₁, h₂, h₃, h₄⟩⟩) (fun _ _ ⟨h₁, h₂, h₃, h₄⟩ => ⟨h₁, h₂, h₃, h₄⟩)
    (fun _ _ => Receives.move) h n

theorem Receives.start {w : World} (hm : w.config.mode.isListening = true)
    (dials accepts : Openings) (mailbox : Option Mailbox) :
    Receives dials (start w dials accepts mailbox) := by
  constructor <;> simp [Supervisor.start, hm, Phase.link?, Phase.isReaching]

/-! ## The end of dialling -/

/-- The next step reads flags that ask the server to exit. -/
def ReadsExit (w : World) (s : Supervisor) : Prop :=
  ∃ stream link t flags rest, s.phase = .greeting stream link ∧
    Greeting.read stream (s.ready w).clock = .flags t flags rest ∧ flags.requestsExit = true

theorem ReadsExit.step (h : ReadsExit w s) : (s.step w).phase = .draining := by
  obtain ⟨stream, link, t, flags, rest, hp, hg, hx⟩ := h
  have hmove := step_transition (w := w) (s := s) (by simp [hp, Phase.isFinal])
  have hp' : (s.ready w).quiet.phase = .greeting stream link := hp
  have hg' : Greeting.read stream (s.ready w).quiet.clock = .flags t flags rest := hg
  generalize (s.ready w).quiet = q at hmove hp' hg'
  have hdone : (s.step w).quiet.phase = .draining := by
    generalize (s.step w).quiet = q' at hmove ⊢
    cases hmove with
    | exitAsked => rfl
    | numbered hp hg hf =>
      cases hp'.symm.trans hp
      cases hg'.symm.trans hg
      rw [hx] at hf
      cases hf
    | dismissed hp hg | greetHung hp hg =>
      cases hp'.symm.trans hp
      cases hg'.symm.trans hg
    | _ hp => cases hp'.symm.trans hp
  exact hdone

/-- A server that was told to stop or to exit makes no more dials. -/
theorem dials_over (h : dispatched w s = some .stop ∨ ReadsExit w s) (k : Nat) :
    (run w k s).record.dials = s.record.dials := by
  have hlast : (s.step w).phase.isLeaving = true ∧ s.phase ≠ .dialling ∧
      ∀ link, s.phase ≠ .fetching link := by
    rcases h with hstop | hexit
    · obtain ⟨link, hp, hc⟩ := serving_of_dispatched hstop
      have hended := HearsStop.step ⟨link, hp, hc⟩
      simp [hended, hp, Phase.isLeaving]
    · have hdraining := hexit.step
      obtain ⟨stream, link, t, flags, rest, hp, -⟩ := hexit
      simp [hdraining, hp, Phase.isLeaving]
  obtain ⟨hleaving, hd, hf⟩ := hlast
  cases k with
  | zero => rfl
  | succ k => exact (run_untouched hleaving k).1.dialled.trans (step_dials_eq hd hf).1

/-! ## The discipline -/

/-- The connection `link` that the server has after `n` steps was made in step `m`, on the stream that
the server dialled there and on no other since. Its data port is what the peer answered to START, and
the words dispatched from then on are the words behind that answer. -/
structure Negotiated (w : World) (s : Supervisor) (m n : Nat) (link : Link) : Prop where
  earlier : m < n
  dialling : (run w m s).phase = .dialling
  answered : ∃ delay script word rest, (run w m s).dials.take.1 = .opens delay script ∧
    Word.take? (incoming script.arrivals) = some (word, rest) ∧ 1 ≤ word.toNat ∧
    word.toNat ≤ 65535 ∧ link.dataPort.toNat = word.toNat ∧
    ∀ k, 1 ≤ k → k ≤ (inSteps (fun s => (dispatched w s).toList) w s m n).length →
      (inSteps (fun s => (dispatched w s).toList) w s m n)[k - 1]? =
        Link.commandAt (incoming script.arrivals) k
  same : ∀ k, m < k → k ≤ n → ∃ l, (run w k s).phase.link? = some l ∧
    l.stream.serial = (run w m s).record.opened ∧ l.dataPort = link.dataPort

theorem Held.negotiated {stream : Stream} (h : Held w s m stream n link) :
    Negotiated w s m n link where
  earlier := h.lt
  dialling := h.dialling
  answered := by
    obtain ⟨delay, script, t, ho, hs⟩ := h.script
    have hbytes : incoming stream.arrivals = incoming script.arrivals := by
      rw [hs, Script.incoming_openAt]
    obtain ⟨word, rest, hw, hport⟩ := h.dataPort
    have hwords := h.follows.commands
    rw [hbytes] at hw hwords
    have hrange : 0 < word ∧ word ≤ 65535 := by
      unfold Control.portOf? at hport
      split at hport
      · assumption
      · cases hport
    exact ⟨delay, script, word, rest, ho, hw, UInt32.lt_iff_toNat_lt.1 hrange.1,
      UInt32.le_iff_toNat_le.1 hrange.2, Control.portOf?_eq_some hport, hwords⟩
  same k hm hk := by
    obtain ⟨l, hl⟩ := h.before hm hk
    refine ⟨l, hl.link_eq, hl.serial, ?_⟩
    obtain ⟨word, rest, hw, hport⟩ := h.dataPort
    obtain ⟨word', rest', hw', hport'⟩ := hl.dataPort
    rw [hw] at hw'
    cases hw'
    exact Option.some.inj (hport'.symm.trans hport)

theorem host_of_dial {control : Bool} {d : Dial} (h : .dialled control d ∈ happenings w s) :
    d.host = w.config.host := by
  cases control with
  | true =>
    obtain ⟨-, rfl⟩ := dialling_of_dial h
    rfl
  | false =>
    obtain ⟨link, hp⟩ := fetching_of_dial h
    rw [happenings_of_fetching hp] at h
    cases List.mem_singleton.1 h
    rfl

/-- **Whom a server dials.** Every dial is to the host of the peer. One to the data port is made in the
step after NEW was dispatched and in no other; that port is what the peer answered to START on the
connection. If it fails, sessions and connection are as before and nothing is told. A server that clients
come to makes no dial, nor does one that has heard STOP or is asked to exit. -/
theorem dials_follow_orders (w : World) (dials accepts : Openings) (mailbox : Option Mailbox) :
    let s := start w dials accepts mailbox
    let after n := run w n s
    let does n := happenings w (after n)
    (∀ n, (after n).record.dials = (happenedBy w s n).filterMap dial?) ∧
    (w.config.mode.isListening = true →
      ∀ n, (after n).record.dials = [] ∧ (after n).dials = dials) ∧
    (∀ n control d, .dialled control d ∈ does n → d.host = w.config.host) ∧
    (∀ n, dispatched w (after n) = some .new → ∃ link, (after n).phase = .serving link ∧
      does (n + 1) =
        [.dialled false ⟨((after (n + 1)).ready w).clock, w.config.host, link.dataPort⟩] ∧
      dispatched w (after (n + 1)) = none) ∧
    (∀ n d, .dialled false d ∈ does n → ∃ m, n = m + 1 ∧ dispatched w (after m) = some .new) ∧
    (∀ n link, (after n).phase.link? = some link → ∃ m, Negotiated w s m n link) ∧
    (∀ n link delay reason, (after n).phase = .fetching link →
      (after n).dials.take.1 = .fails delay reason →
      (after (n + 1)).phase = .serving link ∧ (after (n + 1)).registry = (after n).registry ∧
      (after (n + 1)).exiting = (after n).exiting ∧ (after (n + 1)).mailbox = (after n).mailbox ∧
      (after (n + 1)).record.events = (after n).record.events ∧
      (after (n + 1)).record.transcripts = (after n).record.transcripts) ∧
    (∀ n, dispatched w (after n) = some .stop ∨ ReadsExit w (after n) →
      ∀ k, (after (n + k)).record.dials = (after n).record.dials) := by
  intro s after does
  have hnone : s.phase.link? = none := by
    simp only [s, start]
    split <;> rfl
  have hresolute : ∀ n, Resolute (after n) := (Resolute.start w dials accepts mailbox).run
  refine ⟨fun n => ?_, fun hm n => ?_, fun n control d => host_of_dial, fun n hnew => ?_,
    fun n d hd => ?_, fun n link hl => ?_, fun n link delay reason hp ho => ?_, fun n hover k => ?_⟩
  · have hrecord := (record_eq_happenedBy w s n).1
    rwa [show s.record.dials = [] from rfl, List.nil_append] at hrecord
  · have hreceives := (Receives.start hm dials accepts mailbox).run (w := w) n
    exact ⟨hreceives.dialled, hreceives.script⟩
  · simp only [after, does, run_succ]
    exact dial_of_new hnew
  · obtain ⟨link, hp⟩ := fetching_of_dial hd
    exact new_before_fetching hnone hp
  · obtain ⟨m, stream, hheld⟩ := held_of_link hnone hl
    exact ⟨m, hheld.negotiated⟩
  · simp only [after, run_succ]
    exact step_of_failed_fetch (hresolute n) hp ho
  · simp only [after, run_add]
    exact dials_over hover k

/-- A server whose peer leaves after one order and names another port when it is back. -/
def fickle : World where
  config := { mode := .tcpReverse, remoteHost := some "peer", retryDelay := .ofMillis 5 }
  worker := .ofPlans []

/-- The first dial for data fails, the second opens a stream; after that the peer says STOP. -/
def fickleStart : Supervisor :=
  start fickle ⟨[
    .opens 0 ⟨[⟨0, .bytes (Word.encode 5556 ++ Command.new.encode)⟩, ⟨3, .ended⟩], [], none⟩,
    .fails 1 "refused",
    .opens 0 ⟨[⟨0, .bytes (Word.encode 6000 ++ Command.new.encode ++ Command.stop.encode)⟩], [],
      none⟩,
    .opens 2 ⟨[⟨0, .bytes Flags.empty.encode⟩, ⟨1, .ended⟩], [], none⟩], .hangs⟩ ⟨[], .hangs⟩ none

/-- Each NEW is dialled for at the port of its own connection, the failed dial changes nothing, and
STOP ends the dialling. -/
theorem dials_follow_orders_fickle :
    dispatched fickle (run fickle 1 fickleStart) = some .new ∧
      happenings fickle (run fickle 2 fickleStart) = [.dialled false ⟨0, "peer", 5556⟩] ∧
      (run fickle 3 fickleStart).registry = (run fickle 2 fickleStart).registry ∧
      dispatched fickle (run fickle 6 fickleStart) = some .new ∧
      happenings fickle (run fickle 7 fickleStart) = [.dialled false ⟨8, "peer", 6000⟩] ∧
      (∃ link m, (run fickle 7 fickleStart).phase.link? = some link ∧
        Negotiated fickle fickleStart m 7 link) ∧
      dispatched fickle (run fickle 12 fickleStart) = some .stop ∧
      (run fickle 20 fickleStart).record.dials = (run fickle 12 fickleStart).record.dials := by
  have ordered : dispatched fickle (run fickle 1 fickleStart) = some .new := by decide +kernel
  have fetching : ∃ link, (run fickle 2 fickleStart).phase = .fetching link := ⟨_, rfl⟩
  have fails : (run fickle 2 fickleStart).dials.take.1 = .fails 1 "refused" := by decide +kernel
  have again : dispatched fickle (run fickle 6 fickleStart) = some .new := by decide +kernel
  have linked : (run fickle 7 fickleStart).phase.link?.isSome = true := by decide +kernel
  have stopped : dispatched fickle (run fickle 12 fickleStart) = some .stop := by decide +kernel
  have ports : (run fickle 1 fickleStart).phase.link?.map (·.dataPort) = some 5556 ∧
      (run fickle 6 fickleStart).phase.link?.map (·.dataPort) = some 6000 := by decide +kernel
  have clocks : ((run fickle 2 fickleStart).ready fickle).clock = 0 ∧
      ((run fickle 7 fickleStart).ready fickle).clock = 8 := by decide +kernel
  unfold fickleStart at ordered fetching fails again linked stopped ports clocks ⊢
  obtain ⟨-, -, -, hnew, -, hlink, hfail, hover⟩ := dials_follow_orders fickle _ _ _
  obtain ⟨link, hp, hdial, -⟩ := hnew 1 ordered
  obtain ⟨link', hp', hdial', -⟩ := hnew 6 again
  rw [hp, hp'] at ports
  have hport : link.dataPort = 5556 := Option.some.inj ports.1
  have hport' : link'.dataPort = 6000 := Option.some.inj ports.2
  rw [clocks.1, hport] at hdial
  rw [clocks.2, hport'] at hdial'
  obtain ⟨fetched, hfetching⟩ := fetching
  obtain ⟨current, hcurrent⟩ := Option.isSome_iff_exists.1 linked
  obtain ⟨m, hm⟩ := hlink 7 current hcurrent
  exact ⟨ordered, hdial, (hfail 2 _ _ _ hfetching fails).2.1, again, hdial', ⟨current, m, hcurrent, hm⟩,
    stopped, hover 12 (.inl stopped) 8⟩

end StreamServer.Supervisor
