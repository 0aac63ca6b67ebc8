/-
Words on a control connection that come to nothing: START, which is for a
server to say, and words that stand for no command. A peer may put any number
of them behind a word it says, all at once; waiting, turns and shaking hands
then come to the same at the same times, but for turns that do nothing and
take no time.

By any time the padded stream has brought the words of the other, each with the
idle words behind it, and the same part of the next word. So a word is complete
in both at the same time; what is left of the padded stream then may begin with
idle words that wait to be read, and the next turns do away with them.
-/
import StreamServer.Proofs.WordTiming

namespace StreamServer

/-- A word that comes to nothing. -/
def Word.isIdle (w : Word) : Bool :=
  match Command.ofWord w with
  | .start | .unknown _ => true
  | _ => false

/-- The bytes of words, one after another. -/
def spell (words : List Word) : List UInt8 := words.flatMap Word.encode

/-- What is done about an idle word is nothing, and it takes no time. -/
theorem Link.dispatch_idle {w : Word} (h : w.isIdle = true) (l : Link) (now : Instant) :
    (l.dispatch now (.ofWord w)).outcome = some (now, .ok .idle) ∧
      (l.dispatch now (.ofWord w)).link = l := by
  unfold Word.isIdle at h
  cases hc : Command.ofWord w with
  | start | unknown _ => exact ⟨rfl, rfl⟩
  | new | stop | ping | pong => simp [hc] at h

namespace Control

open Arrival

/-! ## Padded streams -/

/-- Idle words are put behind any words, any number of them, and come in when the last byte of the word
does that they are put behind. -/
inductive Padded : List (Instant × UInt8) → List (Instant × UInt8) → Prop
  | same (rest : List (Instant × UInt8)) : Padded rest rest
  | word {a b c d : Instant × UInt8} {rest rest' : List (Instant × UInt8)} (idle : List Word)
    (hidle : ∀ w ∈ idle, w.isIdle = true) (h : Padded rest rest') :
    Padded (a :: b :: c :: d :: rest) (a :: b :: c :: d :: ((spell idle).map (d.1, ·) ++ rest'))

theorem Padded.postpone {l l' : List (Instant × UInt8)} (h : Padded l l') (opened : Instant) :
    Padded (l.map fun x => (opened + x.1, x.2)) (l'.map fun x => (opened + x.1, x.2)) := by
  induction h with
  | same rest => exact .same _
  | @word a b c d rest rest' idle hidle h ih =>
    have hword := Padded.word (a := (opened + a.1, a.2)) (b := (opened + b.1, b.2))
      (c := (opened + c.1, c.2)) (d := (opened + d.1, d.2)) idle hidle ih
    simpa [Function.comp_def] using hword

/-- A word and the idle words behind it. -/
structure Block where
  word : List UInt8
  idle : List Word
  whole : word.length = 4
  nothing : ∀ w ∈ idle, w.isIdle = true

/-- What has come in of a stream and of the padded one: some blocks, without their idle words and with
them, and part of the next; or all of them, and what comes behind. -/
inductive Split : List Block → List UInt8 → List UInt8 → Prop
  | behind (bytes : List UInt8) : Split [] bytes bytes
  | part {blocks : List Block} {bytes : List UInt8} (h : bytes.length < 4) : Split blocks bytes bytes
  | block {b : Block} {blocks : List Block} {bytes bytes' : List UInt8} (h : Split blocks bytes bytes') :
    Split (b :: blocks) (b.word ++ bytes) (b.word ++ (spell b.idle ++ bytes'))

/-- A padded stream can be split in the same way at any time. -/
theorem Padded.split {l l' : List (Instant × UInt8)} (h : Padded l l')
    (hl : l.Pairwise (·.1 ≤ ·.1)) :
    ∃ blocks, ∀ t, Split blocks ((l.takeWhile (·.1 ≤ t)).map (·.2))
      ((l'.takeWhile (·.1 ≤ t)).map (·.2)) := by
  induction h with
  | same rest => exact ⟨[], fun t => .behind _⟩
  | @word a b c d rest rest' idle hidle h ih =>
    simp only [List.pairwise_cons] at hl
    obtain ⟨ha, hb, hc, -, hrest⟩ := hl
    obtain ⟨blocks, hblocks⟩ := ih hrest
    refine ⟨⟨[a.2, b.2, c.2, d.2], idle, rfl, hidle⟩ :: blocks, fun t => ?_⟩
    by_cases hd : d.1 ≤ t
    · -- The word is complete, and with it come all idle words behind it.
      have ha' : a.1 ≤ t := Nat.le_trans (ha d (by simp)) hd
      have hb' : b.1 ≤ t := Nat.le_trans (hb d (by simp)) hd
      have hc' : c.1 ≤ t := Nat.le_trans (hc d (by simp)) hd
      have hall : ∀ x ∈ (spell idle).map (d.1, ·), decide (x.1 ≤ t) = true := by
        intro x hx
        obtain ⟨_, _, rfl⟩ := List.mem_map.1 hx
        exact decide_eq_true hd
      have hblock := Split.block (b := ⟨[a.2, b.2, c.2, d.2], idle, rfl, hidle⟩) (hblocks t)
      simpa [ha', hb', hc', hd, List.takeWhile_append_of_pos hall, Function.comp_def] using hblock
    · -- Both have brought the same of the word, and it is not complete.
      have hsame : ∀ more, (a :: b :: c :: d :: more).takeWhile (·.1 ≤ t) =
          [a, b, c].takeWhile (·.1 ≤ t) := by
        intro more
        by_cases ha' : a.1 ≤ t <;> by_cases hb' : b.1 ≤ t <;> by_cases hc' : c.1 ≤ t <;>
          simp [ha', hb', hc', hd]
      rw [hsame, hsame]
      refine .part ?_
      have hle : ([a, b, c].takeWhile (·.1 ≤ t)).length ≤ 3 := (List.takeWhile_prefix _).length_le
      simpa using Nat.lt_succ_of_le hle

theorem Block.take?_append (b : Block) :
    ∃ w, ∀ bytes, Word.take? (b.word ++ bytes) = some (w, bytes) := by
  obtain ⟨word, idle, hwhole, -⟩ := b
  match word with
  | [x, y, z, v] => exact ⟨_, fun bytes => rfl⟩

/-- The same can be read of both. -/
theorem Split.readable_eq {blocks : List Block} {bytes bytes' : List UInt8}
    (h : Split blocks bytes bytes') (end_ : Option Input) :
    readable bytes end_ = readable bytes' end_ := by
  cases h with
  | behind | part => rfl
  | @block b =>
    obtain ⟨w, hw⟩ := b.take?_append
    rw [readable_of_take? (hw _), readable_of_take? (hw _)]

theorem Split.of_nil {bytes bytes' : List UInt8} (h : Split [] bytes bytes') : bytes' = bytes := by
  cases h <;> rfl

/-- When a word is complete, so are the idle words behind it. -/
theorem Split.of_cons {b : Block} {blocks : List Block} {bytes bytes' : List UInt8}
    (h : Split (b :: blocks) bytes bytes') (hfour : 4 ≤ bytes.length) :
    ∃ rest, bytes'.drop 4 = spell b.idle ++ rest ∧ Split blocks (bytes.drop 4) rest := by
  cases h with
  | part hlt => omega
  | @block _ _ x y h =>
    have hdrop : ∀ more, (b.word ++ more).drop 4 = more := fun more => by
      rw [← b.whole, List.drop_left]
    rw [hdrop, hdrop]
    exact ⟨y, rfl, h⟩

/-! ## Inboxes -/

/-- From `t` on the inbox `j` gets what `i` gets, padded with idle words; at its front are idle words
that wait to be read. -/
structure Inbox.Padded (t : Instant) (pending : List Word) (i j : Inbox) : Prop where
  idle : ∀ w ∈ pending, w.isIdle = true
  ends : ∀ d, t ≤ d → i.fateBy d = j.fateBy d
  blocks : ∃ blocks, ∀ d, t ≤ d → ∃ bytes,
    j.got d = spell pending ++ bytes ∧ Split blocks (i.got d) bytes

namespace Inbox.Padded

variable {t u now : Instant} {pending : List Word} {i j rest rest' : Inbox} {w : Word}

theorem mono (h : i.Padded t pending j) (htu : t ≤ u) : i.Padded u pending j where
  idle := h.idle
  ends d hd := h.ends d (Nat.le_trans htu hd)
  blocks := by
    obtain ⟨blocks, hblocks⟩ := h.blocks
    exact ⟨blocks, fun d hd => hblocks d (Nat.le_trans htu hd)⟩

theorem agrees (h : i.Padded t [] j) : i.Agrees t j := by
  intro d hd
  obtain ⟨blocks, hblocks⟩ := h.blocks
  obtain ⟨bytes, hgot, hsplit⟩ := hblocks d hd
  rw [hgot, ← h.ends d hd]
  exact hsplit.readable_eq _

/-- When a word was taken off both, the idle words behind it are left to be read. -/
theorem of_word (h : i.Padded t [] j) (htu : t ≤ u) (hfour : 4 ≤ (i.got u).length)
    (hi : ∀ d, u ≤ d → rest.got d = (i.got d).drop 4 ∧ rest.fateBy d = i.fateBy d)
    (hj : ∀ d, u ≤ d → rest'.got d = (j.got d).drop 4 ∧ rest'.fateBy d = j.fateBy d) :
    ∃ pending, rest.Padded u pending rest' := by
  have hends : ∀ d, u ≤ d → rest.fateBy d = rest'.fateBy d := fun d hd => by
    rw [(hi d hd).2, (hj d hd).2, h.ends d (Nat.le_trans htu hd)]
  obtain ⟨blocks, hblocks⟩ := h.blocks
  cases blocks with
  | nil =>
    refine ⟨[], nofun, hends, [], fun d hd => ⟨rest'.got d, rfl, ?_⟩⟩
    obtain ⟨bytes, hgot, hsplit⟩ := hblocks d (Nat.le_trans htu hd)
    have hsame : j.got d = i.got d := by
      rw [hgot, hsplit.of_nil]
      rfl
    rw [(hi d hd).1, (hj d hd).1, hsame]
    exact .behind _
  | cons b blocks =>
    refine ⟨b.idle, b.nothing, hends, blocks, fun d hd => ?_⟩
    obtain ⟨bytes, hgot, hsplit⟩ := hblocks d (Nat.le_trans htu hd)
    obtain ⟨more, hmore, hsplit'⟩ := hsplit.of_cons (Nat.le_trans hfour (i.length_got_le hd))
    refine ⟨more, ?_, ?_⟩
    · rw [(hj d hd).1, hgot]
      exact hmore
    · rw [(hi d hd).1]
      exact hsplit'

theorem of_silence (h : i.Padded t pending j) (htu : t ≤ u) (hi : rest.SameFrom u i)
    (hj : rest'.SameFrom u j) : rest.Padded u pending rest' where
  idle := h.idle
  ends d hd := by rw [(hi d hd).2, (hj d hd).2, h.ends d (Nat.le_trans htu hd)]
  blocks := by
    obtain ⟨blocks, hblocks⟩ := h.blocks
    refine ⟨blocks, fun d hd => ?_⟩
    rw [(hi d hd).1, (hj d hd).1]
    exact hblocks d (Nat.le_trans htu hd)

/-- An idle word that waits to be read is there at once. -/
theorem readable_pending (h : i.Padded t (w :: pending) j) (htu : t ≤ u) :
    readable (j.got u) (j.fateBy u) = some (.word w) := by
  obtain ⟨blocks, hblocks⟩ := h.blocks
  obtain ⟨bytes, hgot, -⟩ := hblocks u htu
  have htake : Word.take? (j.got u) = some (w, spell pending ++ bytes) := by
    rw [hgot, spell, List.flatMap_cons, List.append_assoc]
    exact Word.take?_encode w _
  exact readable_of_take? htake

theorem of_pending (h : i.Padded t (w :: pending) j) (htu : t ≤ u)
    (hj : ∀ d, u ≤ d → rest'.got d = (j.got d).drop 4 ∧ rest'.fateBy d = j.fateBy d) :
    i.Padded u pending rest' where
  idle x hx := h.idle x (List.mem_cons_of_mem _ hx)
  ends d hd := by rw [(hj d hd).2, h.ends d (Nat.le_trans htu hd)]
  blocks := by
    obtain ⟨blocks, hblocks⟩ := h.blocks
    refine ⟨blocks, fun d hd => ?_⟩
    obtain ⟨bytes, hgot, hsplit⟩ := hblocks d (Nat.le_trans htu hd)
    refine ⟨bytes, ?_, hsplit⟩
    rw [(hj d hd).1, hgot]
    rfl

end Inbox.Padded

/-- The inbox `j` gets what `i` gets, padded with idle words. -/
def Inbox.Pads (t : Instant) (i j : Inbox) : Prop := ∃ pending, i.Padded t pending j

theorem Inbox.Pads.mono {t u : Instant} {i j : Inbox} (h : i.Pads t j) (htu : t ≤ u) :
    i.Pads u j := by
  obtain ⟨pending, h⟩ := h
  exact ⟨pending, h.mono htu⟩

/-- Waiting comes to the same on a padded stream, if no idle word waits to be read. -/
theorem await_padded {t now : Instant} {deadline : Option Instant} {i j : Inbox}
    (h : i.Padded t [] j) (htn : t ≤ now) (hd : ∀ d, deadline = some d → now ≤ d) :
    (await deadline now i.buffer i.arrivals).AlikeBy Inbox.Pads
      (await deadline now j.buffer j.arrivals) := by
  have hagrees := await_agrees h.agrees htn hd
  have hi := await_timely hd i.buffer i.arrivals
  have hj := await_timely hd j.buffer j.arrivals
  generalize await deadline now i.buffer i.arrivals = a at hagrees hi
  generalize await deadline now j.buffer j.arrivals = b at hagrees hj
  cases hagrees with
  | @received u what rest rest' =>
    obtain ⟨hu, -, -, hwhat, hrest⟩ := hi
    obtain ⟨-, -, -, -, hrest'⟩ := hj
    have htu : t ≤ u := Nat.le_trans htn hu
    cases what with
    | word w => exact .word (h.of_word htu (readable_word_iff.1 ⟨w, hwhat⟩) (hrest w rfl) (hrest' w rfl))
    | closed => exact .finished nofun
    | failed e => exact .finished nofun
  | @silence u rest rest' =>
    have htu : t ≤ u := Nat.le_trans htn (hd u hi.1)
    exact .silence ⟨[], h.of_silence htu hi.2.2 hj.2.2⟩
  | never => exact .never

/-- Waiting on a stream where an idle word waits to be read is over at once, with that word. -/
theorem await_pending {t now : Instant} {deadline : Option Instant} {i j : Inbox} {w : Word}
    {pending : List Word} (h : i.Padded t (w :: pending) j) (htn : t ≤ now)
    (hd : ∀ d, deadline = some d → now ≤ d) :
    ∃ rest, await deadline now j.buffer j.arrivals = .received now (.word w) rest ∧
      i.Padded now pending rest := by
  have hj := await_timely hd j.buffer j.arrivals
  have loud : ∀ d, now ≤ d → ¬j.Quiet d := by
    intro d hle hquiet
    have hread := h.readable_pending (Nat.le_trans htn hle)
    rw [Inbox.readable_eq_none_iff.2 hquiet] at hread
    cases hread
  cases ha : await deadline now j.buffer j.arrivals with
  | received u what rest =>
    rw [ha] at hj
    obtain ⟨hu, hbefore, -, hwhat, hrest⟩ := hj
    have hun : u = now := by
      refine Nat.le_antisymm (Nat.le_of_not_lt fun hlt => ?_) hu
      exact loud now (Nat.le_refl _) (hbefore now (Nat.le_refl _) hlt)
    subst hun
    rw [h.readable_pending htn] at hwhat
    cases hwhat
    exact ⟨rest, rfl, h.of_pending htn (hrest w rfl)⟩
  | silence u rest =>
    rw [ha] at hj
    exact absurd hj.2.1 (loud u (hd u hj.1))
  | never =>
    rw [ha] at hj
    exact absurd (hj.2 now) (loud now (Nat.le_refl _))

end Control

/-! ## Connections -/

namespace Link

open Control

variable {t now : Instant} {pending : List Word} {l m : Link} {w : Word}

/-- The connections differ at most in what is left to be read, and that of `m` is that of `l`, padded
with idle words from `t` on. -/
def Padded (t : Instant) (pending : List Word) (l m : Link) : Prop :=
  m = l.withInbox m.inbox ∧ l.inbox.Padded t pending m.inbox

theorem Padded.mono {u : Instant} (h : l.Padded t pending m) (htu : t ≤ u) : l.Padded u pending m :=
  ⟨h.1, h.2.mono htu⟩

theorem Padded.alikeBy (h : l.Padded t pending m) : l.AlikeBy Inbox.Pads t m := ⟨h.1, pending, h.2⟩

theorem next_padded (h : l.Padded t [] m) (htn : t ≤ now) :
    (l.next now).AlikeBy Inbox.Pads (m.next now) := by
  refine next_alikeBy Inbox.Pads.mono h.1 ?_
  unfold sight
  rw [h.alikeBy.liveness]
  exact await_padded h.2 htn fun _ => Instant.le_of_timeout?

/-- The next turn does away with an idle word that waits to be read, and with nothing else. -/
theorem next_pending (h : l.Padded t (w :: pending) m) (htn : t ≤ now) :
    (m.next now).outcome = some (now, .ok .idle) ∧ l.Padded now pending (m.next now).link := by
  obtain ⟨rest, hsight, hrest⟩ := await_pending h.2 htn fun _ => Instant.le_of_timeout?
  obtain ⟨ho, hlink⟩ := dispatch_idle (h.2.idle w List.mem_cons_self) (m.withInbox rest) now
  have hnext : m.next now = (m.withInbox rest).dispatch now (.ofWord w) := by
    rw [next_eq_react, show m.sight now = _ from hsight]
    rfl
  rw [hnext, hlink]
  refine ⟨ho, ?_, hrest⟩
  rw [h.1]
  rfl

end Link

/-! ## Shaking hands -/

open Control

/-- The peers do the same, but for idle words that the second puts behind words of the first. -/
structure Script.Padded (p p' : Script) : Prop where
  obstacles : p'.obstacles = p.obstacles
  closeFault : p'.closeFault = p.closeFault
  words : Control.Padded (deliveries 0 p.reads) (deliveries 0 p'.reads)
  ends : ending 0 p'.reads = ending 0 p.reads

namespace Script.Padded

variable {p p' : Script}

/-- Whenever the streams are opened, the second brings what the first brings, padded. -/
theorem inbox (h : p.Padded p') (opened : Instant) :
    Inbox.Padded opened [] ⟨[], postpone opened p.reads⟩ ⟨[], postpone opened p'.reads⟩ where
  idle := nofun
  ends d hd := by
    have found : ∀ p : Script, Inbox.fateBy ⟨[], postpone opened p.reads⟩ d =
        (((ending 0 p.reads).map fun x => (opened + x.1, x.2)).filter (·.1 ≤ d)).map (·.2) := by
      intro p
      rw [← ending_postpone]
      exact fate_dueBy_eq hd _
    rw [found, found, h.ends]
  blocks := by
    have hsorted := deliveries_sorted (opened + 0) (postpone opened p.reads)
    rw [deliveries_postpone] at hsorted
    obtain ⟨blocks, hblocks⟩ := (h.words.postpone opened).split hsorted
    refine ⟨blocks, fun d hd => ⟨Inbox.got ⟨[], postpone opened p'.reads⟩ d, rfl, ?_⟩⟩
    have brought : ∀ p : Script, Inbox.got ⟨[], postpone opened p.reads⟩ d =
        (((deliveries 0 p.reads).map fun x => (opened + x.1, x.2)).takeWhile (·.1 ≤ d)).map (·.2) := by
      intro p
      rw [← deliveries_postpone]
      exact incoming_dueBy_eq hd _
    rw [brought, brought]
    exact hblocks d

theorem openAt (h : p.Padded p') (serial : Nat) (peer : String) (opened : Instant) :
    p'.openAt serial peer opened =
      { p.openAt serial peer opened with arrivals := postpone opened p'.reads } := by
  unfold Script.openAt
  rw [h.obstacles, h.closeFault]
  rfl

theorem handshake (h : p.Padded p') (timeout : Duration) (serial : Nat) (peer : String)
    (opened : Instant) :
    (handshake timeout (p.openAt serial peer opened) opened).AlikeBy Inbox.Pads
      (handshake timeout (p'.openAt serial peer opened) opened) := by
  rw [h.openAt]
  exact handshake_alikeBy (fun _ ht => await_padded (h.inbox opened) ht (by simp)) timeout

end Script.Padded

/-- What happens is the same, but for idle words on the stream that opens. -/
inductive Opening.Padded : Opening → Opening → Prop
  | opens {p p' : Script} (delay : Nat) (h : p.Padded p') : Padded (.opens delay p) (.opens delay p')
  | fails (delay : Nat) (reason : String) : Padded (.fails delay reason) (.fails delay reason)
  | hangs : Padded .hangs .hangs

theorem Opening.Padded.refl (o : Opening) : o.Padded o := by
  cases o with
  | opens delay p => exact .opens delay ⟨rfl, rfl, .same _, rfl⟩
  | fails delay reason => exact .fails delay reason
  | hangs => exact .hangs

end StreamServer
