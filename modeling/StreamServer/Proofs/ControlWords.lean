/-
The words of a control connection. Its bytes may come in any pieces and at any
times: a word is dispatched when its last byte is there, the words come out in
the order of their bytes, and the end of the stream is reported only when no
word is left.

The argument is one equation. What is buffered and what is still to come are
together the bytes of the stream behind the words that were dispatched; waiting
in vain moves bytes from one to the other, and a word takes four off the front.
-/
import StreamServer.Control.Handshake
import StreamServer.Proofs.Timing

namespace StreamServer

/-! ## Words and their bytes -/

namespace Word

/-- The first byte of a word counts least. -/
theorem toNat_ofBytes (a b c d : UInt8) :
    (ofBytes a b c d).toNat =
      a.toNat + 256 * b.toNat + 65536 * c.toNat + 16777216 * d.toNat := by
  have ha := a.toNat_lt
  have hb := b.toNat_lt
  have hc := c.toNat_lt
  have hd := d.toNat_lt
  have h₁ := Nat.shiftLeft_add_eq_or_of_lt (i := 8) ha b.toNat
  have h₂ := Nat.shiftLeft_add_eq_or_of_lt (i := 16) (b := b.toNat <<< 8 + a.toNat)
    (by simp only [Nat.shiftLeft_eq]; omega) c.toNat
  have h₃ := Nat.shiftLeft_add_eq_or_of_lt (i := 24)
    (b := c.toNat <<< 16 + (b.toNat <<< 8 + a.toNat))
    (by simp only [Nat.shiftLeft_eq]; omega) d.toNat
  have hor : (ofBytes a b c d).toNat =
      a.toNat ||| b.toNat <<< 8 ||| c.toNat <<< 16 ||| d.toNat <<< 24 := by
    simp only [ofBytes, UInt32.toNat_or, UInt32.toNat_shiftLeft, UInt8.toNat_toUInt32]
    simp only [Nat.shiftLeft_eq]
    congr 1
    · congr 1
      · congr 1
        exact Nat.mod_eq_of_lt (by simp; omega)
      · exact Nat.mod_eq_of_lt (by simp; omega)
    · exact Nat.mod_eq_of_lt (by simp; omega)
  rw [hor, Nat.or_comm a.toNat, ← h₁, Nat.or_comm _ (c.toNat <<< 16), ← h₂,
    Nat.or_comm _ (d.toNat <<< 24), ← h₃]
  simp only [Nat.shiftLeft_eq]
  omega

/-- A word that was written is read back. -/
theorem take?_encode (w : Word) (rest : List UInt8) :
    take? (encode w ++ rest) = some (w, rest) := by
  have hw := w.toNat_lt
  have hword : ofBytes w.toUInt8 (w >>> 8).toUInt8 (w >>> 16).toUInt8 (w >>> 24).toUInt8 = w := by
    apply UInt32.toNat_inj.1
    rw [toNat_ofBytes]
    simp only [UInt32.toNat_toUInt8, UInt32.toNat_shiftRight, Nat.shiftRight_eq_div_pow]
    simp only [UInt32.reduceToNat, Nat.reduceMod, Nat.reducePow]
    omega
  simp [encode, take?, hword]

theorem take?_inv {bs rest : List UInt8} {w : Word} (h : take? bs = some (w, rest)) :
    ∃ a b c d, bs = a :: b :: c :: d :: rest ∧ w = ofBytes a b c d := by
  match bs, h with
  | a :: b :: c :: d :: _, h =>
    cases h
    exact ⟨a, b, c, d, rfl, rfl⟩

theorem take?_append {bs rest : List UInt8} {w : Word} (h : take? bs = some (w, rest))
    (more : List UInt8) : take? (bs ++ more) = some (w, rest ++ more) := by
  obtain ⟨a, b, c, d, rfl, rfl⟩ := take?_inv h
  rfl

theorem eq_drop_of_take? {bs rest : List UInt8} {w : Word} (h : take? bs = some (w, rest)) :
    rest = bs.drop 4 := by
  obtain ⟨a, b, c, d, rfl, rfl⟩ := take?_inv h
  rfl

/-- A word that was split off is the little-endian number of the first four bytes. -/
theorem bytes_of_take? {bs rest : List UInt8} {w : Word} (h : take? bs = some (w, rest)) :
    ∃ a b c d : UInt8, bs.take 4 = [a, b, c, d] ∧
      w = .ofNat (a.toNat + 256 * b.toNat + 65536 * c.toNat + 16777216 * d.toNat) := by
  obtain ⟨a, b, c, d, rfl, rfl⟩ := take?_inv h
  exact ⟨a, b, c, d, rfl, by rw [← toNat_ofBytes, UInt32.ofNat_toNat]⟩

end Word

theorem Codec.decode_eq_some {buffer rest : List UInt8} {w : Word}
    (h : decode buffer = (some w, rest)) : Word.take? buffer = some (w, rest) := by
  unfold decode at h
  split at h <;> cases h
  assumption

theorem Codec.length_lt_of_decode_eq_none {buffer rest : List UInt8}
    (h : decode buffer = (none, rest)) : buffer.length < 4 := by
  unfold decode at h
  split at h <;> cases h
  exact Word.take?_eq_none_iff.1 ‹_›

/-! ## What a stream brings -/

namespace Arrival

/-- The bytes that come in before the stream ends or fails. -/
def incoming : List Arrival → List UInt8
  | [] => []
  | a :: rest =>
    match a.input with
    | .bytes data => data ++ incoming rest
    | .ended | .fault _ => []

/-- How the stream ends, if it does. -/
def fate : List Arrival → Option Input
  | [] => none
  | a :: rest =>
    match a.input with
    | .bytes _ => fate rest
    | end_ => some end_

end Arrival

namespace Control

open Arrival

/-- Everything an inbox holds or will hold. -/
def Inbox.bytes (i : Inbox) : List UInt8 := i.buffer ++ incoming i.arrivals

/-- What waiting came to, read against all the bytes of the stream and the way it ends: a word is the
first one and leaves the rest, the end comes when no word is left, and silence leaves everything. -/
def Awaited.Fits (bytes : List UInt8) (end_ : Option Input) : Awaited → Prop
  | .received _ (.word w) rest =>
    Word.take? bytes = some (w, rest.bytes) ∧ fate rest.arrivals = end_
  | .received _ .closed _ => bytes = [] ∧ end_ = some .ended
  | .received _ (.failed e) _ =>
    bytes.length < 4 ∧ (bytes ≠ [] ∧ end_ = some .ended ∧ e = .truncated bytes.length ∨
      ∃ reason, end_ = some (.fault reason) ∧ e = .io reason)
  | .silence _ rest => rest.bytes = bytes ∧ fate rest.arrivals = end_
  | .never => True

theorem atEnd_of_short {buffer : List UInt8} (h : buffer.length < 4) :
    atEnd buffer = if buffer = [] then .closed else .failed (.truncated buffer.length) := by
  have hnone : Word.take? buffer = none := Word.take?_eq_none_iff.2 h
  cases buffer with
  | nil => rfl
  | cons a rest => simp [atEnd, Codec.decodeEnd, Codec.decode, hnone]

theorem fits_atEnd {buffer : List UInt8} {t : Instant} {rest : Inbox} (h : buffer.length < 4) :
    (Awaited.received t (atEnd buffer) rest).Fits buffer (some .ended) := by
  rw [atEnd_of_short h]
  split
  · exact ⟨‹_›, rfl⟩
  · exact ⟨h, .inl ⟨‹_›, rfl, rfl⟩⟩

/-- Waiting loses no byte, invents none and changes no order. -/
theorem await_fits (deadline : Option Instant) (now : Instant) (buffer : List UInt8)
    (arrivals : List Arrival) :
    (await deadline now buffer arrivals).Fits (buffer ++ incoming arrivals) (fate arrivals) := by
  fun_induction await deadline now buffer arrivals with
  | case1 _ _ _ _ hd | case4 _ _ _ _ _ _ hd =>
    exact ⟨Word.take?_append (Codec.decode_eq_some hd) _, rfl⟩
  | case2 | case5 => exact ⟨rfl, rfl⟩
  | case3 => exact trivial
  | case6 _ _ _ _ _ _ _ _ _ hin ih => simpa [incoming, fate, hin] using ih
  | case7 _ _ _ _ _ hd _ _ hin =>
    simpa [incoming, fate, hin] using fits_atEnd (Codec.length_lt_of_decode_eq_none hd)
  | case8 _ _ _ _ _ hd _ _ reason hin =>
    simp only [incoming, fate, hin, List.append_nil]
    exact ⟨Codec.length_lt_of_decode_eq_none hd, .inr ⟨reason, rfl, rfl⟩⟩

/-! ## What is there in time -/

/-- What has come in by a time; nothing overtakes what comes before it. -/
def dueBy (d : Instant) (arrivals : List Arrival) : List Arrival :=
  arrivals.takeWhile fun a => a.due ≤ d

/-- What comes in by a deadline; where there is none, everything does. -/
def inTime : Option Instant → List Arrival → List Arrival
  | some d, arrivals => dueBy d arrivals
  | none, arrivals => arrivals

theorem inTime_cons_of_passes {deadline : Option Instant} {t : Instant} {a : Arrival}
    {arrivals : List Arrival} (h : passesBefore deadline a.due = some t) :
    inTime deadline (a :: arrivals) = [] := by
  obtain ⟨rfl, hlt⟩ := Option.filter_eq_some_iff.1 h
  simp only [decide_eq_true_eq] at hlt
  simp [inTime, dueBy, hlt]

theorem inTime_cons_of_not_passes {deadline : Option Instant} {a : Arrival} {arrivals : List Arrival}
    (h : passesBefore deadline a.due = none) :
    inTime deadline (a :: arrivals) = a :: inTime deadline arrivals := by
  cases deadline with
  | none => rfl
  | some d =>
    have hle : a.due ≤ d := by simpa [passesBefore] using h
    simp [inTime, dueBy, hle]

/-- When the end of a stream has come in, so have all bytes before it. -/
theorem incoming_inTime {deadline : Option Instant} {arrivals : List Arrival} {end_ : Input}
    (h : fate (inTime deadline arrivals) = some end_) :
    incoming (inTime deadline arrivals) = incoming arrivals ∧ fate arrivals = some end_ := by
  induction arrivals with
  | nil => cases deadline <;> cases h
  | cons a arrivals ih =>
    cases hp : passesBefore deadline a.due with
    | some t => rw [inTime_cons_of_passes hp] at h; cases h
    | none =>
      rw [inTime_cons_of_not_passes hp] at h ⊢
      cases hin : a.input with
      | bytes data =>
        simp only [fate, incoming, hin] at h ⊢
        obtain ⟨hbytes, hend⟩ := ih h
        exact ⟨by rw [hbytes], hend⟩
      | ended | fault _ => simpa [fate, incoming, hin] using h

/-- What one gets who reads a word off these bytes, with the stream ending so, or not at all. -/
def readable (bytes : List UInt8) (end_ : Option Input) : Option Received :=
  match Word.take? bytes, end_ with
  | some (w, _), _ => some (.word w)
  | none, some .ended => some (atEnd bytes)
  | none, some (.fault reason) => some (.failed (.io reason))
  | none, _ => none

/-- What was received, if anything was. -/
def Awaited.what? : Awaited → Option Received
  | .received _ what _ => some what
  | .silence .. | .never => none

theorem Awaited.eq_received {a : Awaited} {what : Received} (h : a.what? = some what) :
    ∃ t rest, a = .received t what rest := by
  cases a <;> cases h
  exact ⟨_, _, rfl⟩

theorem readable_of_take? {bytes rest : List UInt8} {w : Word} {end_ : Option Input}
    (h : Word.take? bytes = some (w, rest)) : readable bytes end_ = some (.word w) := by
  simp [readable, h]

theorem readable_of_short {bytes : List UInt8} (h : bytes.length < 4) (end_ : Option Input) :
    readable bytes end_ = match end_ with
      | some .ended => some (atEnd bytes)
      | some (.fault reason) => some (.failed (.io reason))
      | _ => none := by
  unfold readable
  rw [Word.take?_eq_none_iff.2 h]
  split <;> simp_all

theorem readable_word_iff {bytes : List UInt8} {end_ : Option Input} :
    (∃ w, readable bytes end_ = some (.word w)) ↔ 4 ≤ bytes.length := by
  constructor
  · intro ⟨w, hw⟩
    refine Nat.le_of_not_lt fun hlt => ?_
    rw [readable_of_short hlt] at hw
    split at hw
    · rw [atEnd_of_short hlt] at hw
      split at hw <;> cases hw
    · cases hw
    · cases hw
  · intro hle
    cases ht : Word.take? bytes with
    | none => exact absurd hle (Nat.not_le_of_lt (Word.take?_eq_none_iff.1 ht))
    | some p => exact ⟨p.1, readable_of_take? ht⟩

/-- Waiting gives what has come in by the deadline, and nothing else has a say in it. -/
theorem await_what (deadline : Option Instant) (now : Instant) (buffer : List UInt8)
    (arrivals : List Arrival) :
    (await deadline now buffer arrivals).what? =
      readable (buffer ++ incoming (inTime deadline arrivals)) (fate (inTime deadline arrivals)) := by
  have nothing : ∀ deadline, inTime deadline [] = [] := fun deadline => by cases deadline <;> rfl
  fun_induction await deadline now buffer arrivals with
  | case1 _ _ _ _ hd | case4 _ _ _ _ _ _ hd =>
    exact (readable_of_take? (Word.take?_append (Codec.decode_eq_some hd) _)).symm
  | case2 _ _ _ hd | case3 _ _ _ hd =>
    rw [nothing]
    simp [incoming, fate, Awaited.what?, readable_of_short (Codec.length_lt_of_decode_eq_none hd)]
  | case5 _ _ _ _ _ hd _ hp =>
    rw [inTime_cons_of_passes hp]
    simp [incoming, fate, Awaited.what?,
      readable_of_short (Codec.length_lt_of_decode_eq_none hd)]
  | case6 _ _ _ _ _ _ hp _ _ hin ih =>
    rw [inTime_cons_of_not_passes hp]
    simpa [incoming, fate, hin] using ih
  | case7 _ _ _ _ _ hd hp _ hin =>
    rw [inTime_cons_of_not_passes hp]
    simp [incoming, fate, hin, Awaited.what?,
      readable_of_short (Codec.length_lt_of_decode_eq_none hd)]
  | case8 _ _ _ _ _ hd hp _ _ hin =>
    rw [inTime_cons_of_not_passes hp]
    simp [incoming, fate, hin, Awaited.what?,
      readable_of_short (Codec.length_lt_of_decode_eq_none hd)]

end Control

/-! ## One turn -/

namespace Link

open Arrival Control

/-- What a connection holds of the stream or will still get. -/
def inbox (l : Link) : Inbox := ⟨l.buffer, l.stream.arrivals⟩

/-- What a turn that begins at `now` gets to see. -/
def sight (l : Link) (now : Instant) : Awaited :=
  await (now.timeout? l.liveness.timeout) now l.buffer l.stream.arrivals

/-- The command that a turn dispatches, if a word is complete in time. -/
def heard (l : Link) (now : Instant) : Option Command :=
  match l.sight now with
  | .received _ (.word w) _ => some (.ofWord w)
  | _ => none

theorem next_eq_react (l : Link) (now : Instant) : l.next now = l.react (l.sight now) := rfl

theorem inbox_sending {l : Link} {now c log} {after : Link → Instant → Turn}
    (h : ∀ l t, (after l t).link.inbox = l.inbox) :
    (l.sending now c log after).link.inbox = l.inbox := by
  have hsend : (l.send now c).2.inbox = l.inbox := rfl
  unfold sending
  dsimp only
  split <;> rename_i hs <;> rw [hs] at hsend
  · exact (h _ _).trans hsend
  · exact hsend
  · exact hsend

theorem inbox_onSilence (l : Link) (now : Instant) : (l.onSilence now).link.inbox = l.inbox := by
  unfold onSilence
  split
  · exact inbox_sending fun _ _ => rfl
  · rfl
  · rfl

theorem inbox_dispatch (l : Link) (now : Instant) (c : Command) :
    (l.dispatch now c).link.inbox = l.inbox := by
  cases c with
  | ping => exact inbox_sending fun _ _ => rfl
  | new | stop | start | pong | unknown _ => rfl

/-- A turn that hears a command dispatches it and keeps what lies behind its word. -/
theorem next_of_heard {l : Link} {now c} (h : l.heard now = some c) :
    ∃ t rest, l.next now = (l.withInbox rest).dispatch t c ∧
      (l.next now).link.inbox = rest ∧ fate rest.arrivals = fate l.stream.arrivals ∧
      ∃ w, c = .ofWord w ∧ Word.take? l.inbox.bytes = some (w, rest.bytes) := by
  have hfits : (l.sight now).Fits l.inbox.bytes (fate l.stream.arrivals) := await_fits ..
  unfold heard at h
  split at h <;> cases h
  rename_i t w rest hs
  rw [hs] at hfits
  have hnext : l.next now = (l.withInbox rest).dispatch t (.ofWord w) := by
    rw [next_eq_react, hs]
    rfl
  refine ⟨t, rest, hnext, ?_, hfits.2, w, rfl, hfits.1⟩
  rw [hnext, inbox_dispatch]
  rfl

/-- A turn that hears nothing and goes on all the same has met with silence. -/
theorem silence_of_not_heard {l : Link} {now t event} (h : l.heard now = none)
    (ho : (l.next now).outcome = some (t, .ok event)) :
    ∃ u rest, l.sight now = .silence u rest := by
  unfold heard at h
  rw [next_eq_react] at ho
  split at h
  · cases h
  · rename_i hne
    cases hs : l.sight now with
    | received u what rest =>
      rw [hs] at ho
      cases what with
      | word w => exact absurd hs (hne u w rest)
      | closed | failed _ => cases ho
    | silence u rest => exact ⟨u, rest, rfl⟩
    | never =>
      rw [hs] at ho
      cases ho

/-- A turn that hears nothing and goes on all the same keeps everything. -/
theorem next_of_not_heard {l : Link} {now t event} (h : l.heard now = none)
    (ho : (l.next now).outcome = some (t, .ok event)) :
    (l.next now).link.inbox.bytes = l.inbox.bytes ∧
      fate (l.next now).link.stream.arrivals = fate l.stream.arrivals := by
  have hfits : (l.sight now).Fits l.inbox.bytes (fate l.stream.arrivals) := await_fits ..
  obtain ⟨u, rest, hs⟩ := silence_of_not_heard h ho
  rw [hs] at hfits
  have hin : (l.next now).link.inbox = rest := by
    rw [next_eq_react, hs]
    exact inbox_onSilence ..
  have harrivals : (l.next now).link.stream.arrivals = rest.arrivals := congrArg Inbox.arrivals hin
  exact ⟨by rw [hin]; exact hfits.1, by rw [harrivals]; exact hfits.2⟩

/-- All that silence can lead to is a ping. -/
theorem event_of_onSilence {l : Link} {now t event}
    (h : (l.onSilence now).outcome = some (t, .ok event)) : event = .pingSent ∨ event = .idle := by
  unfold onSilence sending at h
  dsimp only at h
  split at h
  · split at h <;> cases h
    exact .inl rfl
  · cases h
    exact .inr rfl
  · cases h

/-- A turn that hears nothing asks the server for nothing. -/
theorem event_of_not_heard {l : Link} {now t event} (h : l.heard now = none)
    (ho : (l.next now).outcome = some (t, .ok event)) : event = .pingSent ∨ event = .idle := by
  obtain ⟨u, rest, hs⟩ := silence_of_not_heard h ho
  rw [next_eq_react, hs] at ho
  exact event_of_onSilence ho

/-- The server is asked to stop by the word STOP and by nothing else. -/
theorem stop_iff_heard {l : Link} {now : Instant} :
    (∃ t, (l.next now).outcome = some (t, .ok .stop)) ↔ l.heard now = some .stop := by
  constructor
  · intro ⟨t, ho⟩
    cases hc : l.heard now with
    | none => rcases event_of_not_heard hc ho with h | h <;> cases h
    | some c =>
      obtain ⟨u, rest, hnext, -⟩ := next_of_heard hc
      rw [hnext] at ho
      cases c with
      | stop => rfl
      | ping =>
        unfold dispatch sending at ho
        dsimp only at ho
        split at ho <;> cases ho
      | new | start | pong | unknown _ => cases ho
  · intro hc
    obtain ⟨u, rest, hnext, -⟩ := next_of_heard hc
    exact ⟨u, by rw [hnext]; rfl⟩

theorem error_of_sending {l : Link} {now c log t e} {after : Link → Instant → Turn}
    (hafter : ∀ l u t e, (after l u).outcome ≠ some (t, .error e))
    (h : (l.sending now c log after).outcome = some (t, .error e)) :
    ∃ reason, e = .send c.text (.io reason) := by
  unfold sending at h
  dsimp only at h
  split at h
  · exact absurd h (hafter _ _ _ _)
  · cases h; exact ⟨_, rfl⟩
  · cases h

theorem error_of_dispatch {l : Link} {now c t e}
    (h : (l.dispatch now c).outcome = some (t, .error e)) :
    ∃ reason, e = .send Command.pong.text (.io reason) := by
  cases c with
  | ping => exact error_of_sending (fun _ _ _ _ h => by cases h) h
  | new | stop | start | pong | unknown _ => cases h

theorem error_of_onSilence {l : Link} {now t e}
    (h : (l.onSilence now).outcome = some (t, .error e)) :
    (∃ reason, e = .send Command.ping.text (.io reason)) ∨ ∃ waited, e = .pingTimeout waited := by
  unfold onSilence at h
  split at h
  · exact .inl (error_of_sending (fun _ _ _ _ h => by cases h) h)
  · cases h
  · cases h; exact .inr ⟨_, rfl⟩

/-- Why a turn fails: a command could not be written, a ping stayed unanswered, or the stream has
come to its end with no word left. -/
theorem error_of_next {l : Link} {now t e} (h : (l.next now).outcome = some (t, .error e)) :
    (∃ command reason, e = .send command (.io reason)) ∨ (∃ waited, e = .pingTimeout waited) ∨
    (l.inbox.bytes = [] ∧ fate l.stream.arrivals = some .ended ∧ e = .closed) ∨
    (l.inbox.bytes.length < 4 ∧ (l.inbox.bytes ≠ [] ∧ fate l.stream.arrivals = some .ended ∧
        e = .receive (.truncated l.inbox.bytes.length) ∨
      ∃ reason, fate l.stream.arrivals = some (.fault reason) ∧ e = .receive (.io reason))) := by
  have hfits : (l.sight now).Fits l.inbox.bytes (fate l.stream.arrivals) := await_fits ..
  rw [next_eq_react] at h
  cases hs : l.sight now with
  | received u what rest =>
    rw [hs] at h hfits
    cases what with
    | word w =>
      obtain ⟨reason, rfl⟩ := error_of_dispatch h
      exact .inl ⟨_, reason, rfl⟩
    | closed =>
      cases h
      exact .inr (.inr (.inl ⟨hfits.1, hfits.2, rfl⟩))
    | failed e =>
      cases h
      refine .inr (.inr (.inr ⟨hfits.1, ?_⟩))
      rcases hfits.2 with ⟨hne, hend, rfl⟩ | ⟨reason, hend, rfl⟩
      · exact .inl ⟨hne, hend, rfl⟩
      · exact .inr ⟨reason, hend, rfl⟩
  | silence u rest =>
    rw [hs] at h
    rcases error_of_onSilence h with ⟨reason, rfl⟩ | ⟨waited, rfl⟩
    · exact .inl ⟨_, reason, rfl⟩
    · exact .inr (.inl ⟨waited, rfl⟩)
  | never =>
    rw [hs] at h
    cases h

theorem sight_what (l : Link) (now : Instant) :
    (l.sight now).what? =
      readable (l.buffer ++ incoming (inTime (now.timeout? l.liveness.timeout) l.stream.arrivals))
        (fate (inTime (now.timeout? l.liveness.timeout) l.stream.arrivals)) := await_what ..

/-- A turn that comes upon the end of the stream reports it. -/
theorem outcome_of_closed {l : Link} {now} (h : (l.sight now).what? = some .closed) :
    ∃ u, (l.next now).outcome = some (u, .error .closed) := by
  obtain ⟨u, rest, hs⟩ := Awaited.eq_received h
  exact ⟨u, by rw [next_eq_react, hs]; rfl⟩

/-- A turn that fails to read a word reports it. -/
theorem outcome_of_failed {l : Link} {now e} (h : (l.sight now).what? = some (.failed e)) :
    ∃ u, (l.next now).outcome = some (u, .error (.receive e)) := by
  obtain ⟨u, rest, hs⟩ := Awaited.eq_received h
  exact ⟨u, by rw [next_eq_react, hs]; rfl⟩

/-- A command is heard exactly when its word is complete by the deadline of the turn. -/
theorem heard_isSome_iff (l : Link) (now : Instant) :
    (l.heard now).isSome = true ↔ 4 ≤ (l.buffer ++
      incoming (inTime (now.timeout? l.liveness.timeout) l.stream.arrivals)).length := by
  rw [← readable_word_iff, ← sight_what]
  unfold heard
  cases l.sight now with
  | received t what rest => cases what <;> simp [Awaited.what?]
  | silence | never => simp [Awaited.what?]

end Link

/-! ## Shaking hands -/

namespace Control

open Arrival

theorem portOf?_eq_some {w : Word} {port : UInt16} (h : portOf? w = some port) :
    port.toNat = w.toNat := by
  unfold portOf? at h
  split at h <;> cases h
  rename_i hw
  have hle : w.toNat ≤ 65535 := UInt32.le_iff_toNat_le.1 hw.2
  rw [UInt32.toNat_toUInt16]
  exact Nat.mod_eq_of_lt (Nat.lt_succ_of_le hle)

/-- The answer to START is the first word of the stream, and the connection keeps all that lies
behind it. -/
theorem handshake_linked {timeout stream now t link}
    (h : handshake timeout stream now = .linked t link) :
    ∃ w, Word.take? (incoming stream.arrivals) = some (w, link.inbox.bytes) ∧
      link.dataPort.toNat = w.toNat ∧ fate link.stream.arrivals = fate stream.arrivals := by
  unfold handshake at h
  dsimp only at h
  split at h
  · rename_i u _
    have hfits := await_fits none u [] stream.arrivals
    unfold answered at h
    split at h
    · rename_i w rest ha
      rw [ha] at hfits
      dsimp only at h
      split at h <;> cases h
      rename_i hport
      exact ⟨w, hfits.1, portOf?_eq_some hport, hfits.2⟩
    all_goals cases h
  · cases h
  · cases h

end Control

/-! ## Whole conversations -/

namespace Link

open Arrival Control

/-- Turns on a connection one after another, each at the time the one before is over or later, and
each with a result: the commands they dispatched, and the connection and the time at the end. -/
inductive Turns (l₀ : Link) (t₀ : Instant) : List Command → Link → Instant → Prop
  | none : Turns l₀ t₀ [] l₀ t₀
  | turn {commands l t now u event} (h : Turns l₀ t₀ commands l t) (hnow : t ≤ now)
      (ho : (l.next now).outcome = some (u, .ok event)) :
      Turns l₀ t₀ (commands ++ (l.heard now).toList) (l.next now).link u

/-- The command that the bytes `4 * k` to `4 * k + 3` stand for, the first counting least. -/
def commandAt (bytes : List UInt8) (k : Nat) : Option Command :=
  match (bytes.drop (4 * k)).take 4 with
  | [a, b, c, d] => some (.ofWord
    (.ofNat (a.toNat + 256 * b.toNat + 65536 * c.toNat + 16777216 * d.toNat)))
  | _ => none

theorem commandAt_of_take? {bytes rest : List UInt8} {k : Nat} {w : Word}
    (h : Word.take? (bytes.drop (4 * k)) = some (w, rest)) :
    commandAt bytes k = some (.ofWord w) := by
  obtain ⟨a, b, c, d, hbytes, rfl⟩ := Word.bytes_of_take? h
  unfold commandAt
  rw [hbytes]

/-- A connection on which these commands were dispatched: they stand at the front of the stream,
behind the answer to START, and the connection holds what lies behind them. -/
structure Follows (bytes : List UInt8) (end_ : Option Input) (commands : List Command)
    (l : Link) : Prop where
  enough : 4 * (commands.length + 1) ≤ bytes.length
  left : l.inbox.bytes = bytes.drop (4 * (commands.length + 1))
  ending : fate l.stream.arrivals = end_
  commands : ∀ k, 1 ≤ k → k ≤ commands.length → commands[k - 1]? = commandAt bytes k

namespace Follows

variable {bytes : List UInt8} {end_ : Option Input} {commands : List Command} {l : Link}

theorem of_handshake {timeout stream opened t}
    (h : handshake timeout stream opened = .linked t l) :
    Follows (incoming stream.arrivals) (fate stream.arrivals) [] l := by
  obtain ⟨w, hw, -, hend⟩ := handshake_linked h
  refine ⟨?_, Word.eq_drop_of_take? hw, hend, fun k hk hk' => ?_⟩
  · obtain ⟨a, b, c, d, hbytes, -⟩ := Word.take?_inv hw
    simp [hbytes]
  · exact absurd hk (Nat.not_le_of_lt (Nat.lt_succ_of_le hk'))

/-- The command that is heard next is the one whose bytes come next. -/
theorem heard {now c} (h : Follows bytes end_ commands l) (hc : l.heard now = some c) :
    commandAt bytes (commands.length + 1) = some c := by
  obtain ⟨_, _, _, _, _, w, rfl, hw⟩ := next_of_heard hc
  rw [h.left] at hw
  exact commandAt_of_take? hw

theorem turn {now u event} (h : Follows bytes end_ commands l)
    (ho : (l.next now).outcome = some (u, .ok event)) :
    Follows bytes end_ (commands ++ (l.heard now).toList) (l.next now).link := by
  cases hc : l.heard now with
  | none =>
    obtain ⟨hleft, hend⟩ := next_of_not_heard hc ho
    rw [Option.toList_none, List.append_nil]
    exact ⟨h.enough, hleft.trans h.left, hend.trans h.ending, h.commands⟩
  | some c =>
    have hcommand := h.heard hc
    obtain ⟨t, rest, -, hrest, hfate, w, -, hw⟩ := next_of_heard hc
    have hlen : 4 ≤ l.inbox.bytes.length := by
      obtain ⟨a, b, c, d, hbytes, -⟩ := Word.take?_inv hw
      simp [hbytes]
    have hleft := Word.eq_drop_of_take? hw
    rw [h.left, List.length_drop] at hlen
    rw [h.left, List.drop_drop] at hleft
    have hfour : 4 * (commands.length + 1) + 4 = 4 * ((commands ++ [c]).length + 1) := by
      simp only [List.length_append, List.length_singleton]
      omega
    rw [Option.toList_some]
    refine ⟨by omega, by rw [hrest, hleft, hfour], ?_, fun k hk hk' => ?_⟩
    · rw [← h.ending, ← hfate, ← hrest]
      rfl
    · simp only [List.length_append, List.length_singleton] at hk'
      rcases Nat.lt_or_eq_of_le hk' with hlt | rfl
      · rw [List.getElem?_append_left (by omega)]
        exact h.commands k hk (by omega)
      · simp [hcommand]

theorem of_turns {l₀ t₀ t} (h₀ : Follows bytes end_ [] l₀) (h : Turns l₀ t₀ commands l t) :
    Follows bytes end_ commands l := by
  induction h with
  | none => exact h₀
  | turn _ _ ho ih => exact ih.turn ho

/-- No word is left on a connection that holds fewer than four bytes: all that is left over is what
the length of the stream leaves when divided by four. -/
theorem left_over (h : Follows bytes end_ commands l) (hlt : l.inbox.bytes.length < 4) :
    l.inbox.bytes.length = bytes.length % 4 ∧ bytes.length < 4 * (commands.length + 2) := by
  have henough := h.enough
  rw [h.left, List.length_drop] at hlt ⊢
  omega

end Follows

/-- The error that reports the end of a stream of so many bytes. -/
def endError (length : Nat) : ConnectionError :=
  if length % 4 = 0 then .closed else .receive (.truncated (length % 4))

theorem endError_of_nil {length : Nat} (h : 0 = length % 4) : endError length = .closed := by
  simp [endError, ← h]

theorem endError_of_ne_nil {left : List UInt8} {length : Nat} (hne : left ≠ [])
    (h : left.length = length % 4) : endError length = .receive (.truncated left.length) := by
  simp [endError, ← h, hne]

/-- A turn by whose deadline the stream has ended, with no word left, reports that. -/
theorem Follows.report_end {bytes end_ commands} {l : Link} {now : Instant}
    (h : Follows bytes end_ commands l)
    (hlt : (l.buffer ++ incoming (inTime (now.timeout? l.liveness.timeout)
      l.stream.arrivals)).length < 4)
    (hend : fate (inTime (now.timeout? l.liveness.timeout) l.stream.arrivals) = some .ended) :
    ∃ u, (l.next now).outcome = some (u, .error (endError bytes.length)) := by
  have hsight := l.sight_what now
  rw [readable_of_short hlt, hend] at hsight
  dsimp only at hsight
  rw [atEnd_of_short hlt] at hsight
  -- All bytes have come in with the end, so what is there is what is left.
  rw [(incoming_inTime hend).1] at hsight hlt
  have hleft := (h.left_over hlt).1
  split at hsight
  · rename_i hnil
    rw [show l.inbox.bytes = [] from hnil] at hleft
    rw [endError_of_nil hleft]
    exact outcome_of_closed hsight
  · rename_i hne
    rw [endError_of_ne_nil hne hleft]
    exact outcome_of_failed hsight

/-- A turn reports the end of the stream or a failure to read only when no word is left. -/
theorem Follows.cause {bytes end_ commands} {l : Link} {now u : Instant} {e : ConnectionError}
    (h : Follows bytes end_ commands l) (he : (l.next now).outcome = some (u, .error e)) :
    (∃ command reason, e = .send command (.io reason)) ∨ (∃ waited, e = .pingTimeout waited) ∨
      bytes.length < 4 * (commands.length + 2) ∧
        (end_ = some .ended ∧ e = endError bytes.length ∨
          ∃ reason, end_ = some (.fault reason) ∧ e = .receive (.io reason)) := by
  rcases error_of_next he with herr | herr | ⟨hnil, hend, rfl⟩ | ⟨hlt, hcase⟩
  · exact .inl herr
  · exact .inr (.inl herr)
  · have hover := h.left_over (by simp [hnil])
    rw [hnil] at hover
    exact .inr (.inr ⟨hover.2, .inl ⟨h.ending ▸ hend, (endError_of_nil hover.1).symm⟩⟩)
  · have hover := h.left_over hlt
    refine .inr (.inr ⟨hover.2, ?_⟩)
    rcases hcase with ⟨hne, hend, rfl⟩ | ⟨reason, hend, rfl⟩
    · exact .inl ⟨h.ending ▸ hend, (endError_of_ne_nil hne hover.1).symm⟩
    · exact .inr ⟨reason, h.ending ▸ hend, rfl⟩

/-- **Control words are neither lost, doubled nor put in another order.** Shaking hands uses up the first
four bytes and no more. Whatever turns were taken since, the `k`-th command dispatched is the one that the
bytes `4 * k` to `4 * k + 3` stand for, and the next turn dispatches the command whose bytes come next
exactly when its word is complete by the deadline. The end of the stream and a failure to read are
reported only when no complete word is left. -/
theorem words_in_order {timeout : Duration} {stream : Stream} {opened t₀ : Instant} {link : Link}
    (h : handshake timeout stream opened = .linked t₀ link) :
    let bytes := incoming stream.arrivals
    (link.inbox.bytes = bytes.drop 4 ∧
      ∃ a b c d : UInt8, bytes.take 4 = [a, b, c, d] ∧ link.dataPort.toNat =
        a.toNat + 256 * b.toNat + 65536 * c.toNat + 16777216 * d.toNat) ∧
    ∀ commands l t, Turns link t₀ commands l t →
      (∀ k, 1 ≤ k → k ≤ commands.length → commands[k - 1]? = commandAt bytes k) ∧
      l.inbox.bytes = bytes.drop (4 * (commands.length + 1)) ∧
      ∀ now, t ≤ now →
        let due := inTime (now.timeout? l.liveness.timeout) l.stream.arrivals
        let got := l.buffer ++ incoming due
        ((l.heard now).isSome = true ↔ 4 ≤ got.length) ∧
        (∀ c, l.heard now = some c → commandAt bytes (commands.length + 1) = some c ∧
          ∃ u rest, l.next now = (l.withInbox rest).dispatch u c) ∧
        (l.heard now = none → ∀ u event, (l.next now).outcome = some (u, .ok event) →
          event = .pingSent ∨ event = .idle) ∧
        (got.length < 4 → fate due = some .ended →
          ∃ u, (l.next now).outcome = some (u, .error (endError bytes.length))) ∧
        (∀ reason, got.length < 4 → fate due = some (.fault reason) →
          ∃ u, (l.next now).outcome = some (u, .error (.receive (.io reason)))) ∧
        ∀ u e, (l.next now).outcome = some (u, .error e) →
          (∃ command reason, e = .send command (.io reason)) ∨ (∃ waited, e = .pingTimeout waited) ∨
          bytes.length < 4 * (commands.length + 2) ∧
            (fate stream.arrivals = some .ended ∧ e = endError bytes.length ∨
              ∃ reason, fate stream.arrivals = some (.fault reason) ∧ e = .receive (.io reason)) := by
  intro bytes
  have h₀ := Follows.of_handshake h
  refine ⟨?_, fun commands l t hturns => ?_⟩
  · obtain ⟨w, hw, hport, -⟩ := handshake_linked h
    obtain ⟨a, b, c, d, hbytes, rfl⟩ := Word.take?_inv hw
    rw [Word.toNat_ofBytes] at hport
    exact ⟨Word.eq_drop_of_take? hw, a, b, c, d, by simp [bytes, hbytes], hport⟩
  have hl := h₀.of_turns hturns
  refine ⟨hl.commands, hl.left, fun now _ => ?_⟩
  intro due got
  refine ⟨l.heard_isSome_iff now, fun c hc => ⟨hl.heard hc, ?_⟩,
    fun hc u event => event_of_not_heard hc, hl.report_end, fun reason hlt hend => ?_,
    fun u e => hl.cause⟩
  · obtain ⟨u, rest, hnext, -⟩ := next_of_heard hc
    exact ⟨u, rest, hnext⟩
  · have hsight := l.sight_what now
    rw [readable_of_short hlt, hend] at hsight
    exact outcome_of_failed hsight

/-- A peer that sends half a word with its answer to START, the other half and PONG once it has been
pinged, and leaves in the middle of the word after that. -/
def haltingPeer : Stream where
  serial := 0
  peer := "peer"
  opened := 0
  arrivals := [⟨0, .bytes (Word.encode 5556 ++ [1, 0])⟩,
    ⟨3, .bytes ([0, 0] ++ Command.encode .pong ++ [7])⟩, ⟨4, .ended⟩]
  outlet := ⟨[], []⟩
  closeFault := none

/-- The connection to it when hands have been shaken. -/
def haltingLink : Link where
  stream := { haltingPeer with
    arrivals := haltingPeer.arrivals.drop 1, outlet := ⟨[], [(0, Command.encode .start)]⟩ }
  buffer := [1, 0]
  dataPort := 5556
  liveness := .fresh (.ofMillis 2)

/-- Both words come out whole, one of them over a ping, and the byte that is left over is reported. -/
theorem words_in_order_haltingPeer :
    handshake (.ofMillis 2) haltingPeer 0 = .linked 0 haltingLink ∧
      ∃ l, Turns haltingLink 0 [.new, .pong] l 3 ∧
        commandAt (incoming haltingPeer.arrivals) 1 = some .new ∧
        commandAt (incoming haltingPeer.arrivals) 2 = some .pong ∧
        ∃ u, (l.next 3).outcome = some (u, .error (.receive (.truncated 1))) := by
  have linked : handshake (.ofMillis 2) haltingPeer 0 = .linked 0 haltingLink := by decide +kernel
  have pinged : (haltingLink.next 0).outcome = some (2, .ok .pingSent) := rfl
  have ordered : ((haltingLink.next 0).link.next 2).outcome = some (3, .ok .openData) := rfl
  have answered : (((haltingLink.next 0).link.next 2).link.next 3).outcome = some (3, .ok .idle) :=
    rfl
  have turns : Turns haltingLink 0 [.new, .pong]
      (((haltingLink.next 0).link.next 2).link.next 3).link 3 :=
    ((Turns.none.turn (Nat.le_refl 0) pinged).turn (Nat.le_refl 2) ordered).turn (Nat.le_refl 3)
      answered
  obtain ⟨hcommands, -, hnext⟩ := (words_in_order linked).2 _ _ _ turns
  obtain ⟨-, -, -, hend, -⟩ := hnext 3 (Nat.le_refl 3)
  exact ⟨linked, _, turns, (hcommands 1 (by decide) (by decide)).symm,
    (hcommands 2 (by decide) (by decide)).symm, hend (by decide +kernel) (by decide +kernel)⟩

end Link

end StreamServer
