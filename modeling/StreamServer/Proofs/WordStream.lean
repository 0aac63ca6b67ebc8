/-
A buffer with bytes going in and words coming out. Whatever is done with it,
and in whatever order, the bytes of the words that came out and the bytes it
still holds are together all the bytes that went in: a word takes its own four
bytes off the front, and nothing else is ever taken.

So commands that were written one after another come out as their words, in
whatever pieces their bytes were fed and wherever a word was tried for in
between. The words give the commands back, unless a command carries as a word
without a meaning one that has a meaning.
-/
import StreamServer.Proofs.ControlWords

namespace StreamServer

/-! ## The bytes of a word -/

namespace Word

/-- The bytes of a word by arithmetic, the one that counts least first. -/
def littleEndian (w : Word) : List UInt8 :=
  [w.toNat, w.toNat / 256, w.toNat / 65536, w.toNat / 16777216].map UInt8.ofNat

theorem encode_eq_littleEndian : encode = littleEndian := by
  funext w
  simp only [encode, littleEndian, List.map_cons, List.map_nil, List.cons.injEq, and_true]
  refine ⟨?_, ?_, ?_, ?_⟩ <;> apply UInt8.toNat_inj.1 <;>
    simp [UInt32.toNat_toUInt8, UInt32.toNat_shiftRight, Nat.shiftRight_eq_div_pow]

/-- Four bytes are those of the word they make. -/
theorem encode_ofBytes (a b c d : UInt8) : encode (ofBytes a b c d) = [a, b, c, d] := by
  have ha := a.toNat_lt
  have hb := b.toNat_lt
  have hc := c.toNat_lt
  have hd := d.toNat_lt
  have hword := toNat_ofBytes a b c d
  rw [encode_eq_littleEndian]
  simp only [littleEndian, List.map_cons, List.map_nil, List.cons.injEq, and_true]
  refine ⟨?_, ?_, ?_, ?_⟩ <;> apply UInt8.toNat_inj.1 <;> rw [UInt8.toNat_ofNat', hword] <;> omega

/-- What begins with the bytes of a word begins with those of no other. -/
theorem encode_append_inj {w v : Word} {bs cs : List UInt8} (h : encode w ++ bs = encode v ++ cs) :
    w = v ∧ bs = cs := by
  have htake : take? (encode w ++ bs) = some (v, cs) := h ▸ take?_encode v cs
  rw [take?_encode] at htake
  simpa using htake

/-- If words and what is behind them are the bytes of some words, then they are the first of these, and
behind them are the others. -/
theorem eq_take_of_flatMap_encode {ws vs : List Word} {left : List UInt8}
    (h : ws.flatMap encode ++ left = vs.flatMap encode) :
    ws = vs.take ws.length ∧ left = (vs.drop ws.length).flatMap encode := by
  induction ws generalizing vs with
  | nil => exact ⟨by simp, by simpa using h⟩
  | cons w ws ih =>
    cases vs with
    | nil =>
      have hlength := congrArg List.length h
      simp [size] at hlength
    | cons v vs =>
      simp only [List.flatMap_cons, List.append_assoc] at h
      obtain ⟨rfl, hrest⟩ := encode_append_inj h
      obtain ⟨hws, hleft⟩ := ih hrest
      refine ⟨?_, by simpa using hleft⟩
      simp only [List.length_cons, List.take_succ_cons, List.cons.injEq, true_and]
      exact hws

end Word

/-! ## Commands and their words -/

namespace Command

/-- The words that have a meaning. -/
def meaningful : List Word := [1, 999, 1001, 1002, 1003]

theorem ofWord_of_not_mem {w : Word} (h : w ∉ meaningful) : ofWord w = .unknown w := by
  simp only [meaningful, List.mem_cons, List.not_mem_nil, or_false, not_or] at h
  obtain ⟨hnew, hstop, hstart, hping, hpong⟩ := h
  simp [ofWord, hnew, hstop, hstart, hping, hpong]

/-- A command is read back from its word, unless it carries a word that has a meaning. -/
theorem ofWord_toWord_iff (c : Command) :
    ofWord c.toWord = c ↔ ∀ w, c = .unknown w → w ∉ meaningful := by
  cases c with
  | unknown w =>
    constructor
    · intro h v hv hmem
      cases hv
      simp only [meaningful, List.mem_cons, List.not_mem_nil, or_false] at hmem
      rcases hmem with rfl | rfl | rfl | rfl | rfl <;> cases h
    · intro h
      exact ofWord_of_not_mem (h w rfl)
  | new | stop | start | ping | pong => exact ⟨fun _ _ hv => (by cases hv), fun _ => rfl⟩

end Command

/-! ## One step -/

namespace Codec

theorem decode_of_short {buffer : List UInt8} (h : buffer.length < 4) :
    decode buffer = (none, buffer) := by
  rw [decode, Word.take?_eq_none_iff.2 h]

theorem decode_of_le {buffer : List UInt8} (h : 4 ≤ buffer.length) :
    ∃ w, decode buffer = (some w, buffer.drop 4) ∧ Word.encode w = buffer.take 4 := by
  match buffer, h with
  | a :: b :: c :: d :: rest, _ =>
    exact ⟨.ofBytes a b c d, rfl, Word.encode_ofBytes a b c d⟩

/-- The end of the stream makes a difference only to one to three bytes that are left over. -/
theorem decodeEnd_eq (buffer : List UInt8) :
    decodeEnd buffer =
      if 1 ≤ buffer.length ∧ buffer.length ≤ 3 then (.error (.truncated buffer.length), buffer)
      else (.ok (decode buffer).1, (decode buffer).2) := by
  unfold decodeEnd
  by_cases hlt : buffer.length < 4
  · rw [decode_of_short hlt]
    cases buffer with
    | nil => rfl
    | cons b rest =>
      simp only [List.length_cons] at hlt
      simp only [List.length_cons]
      rw [if_pos (by omega)]
  · obtain ⟨w, hw, -⟩ := decode_of_le (Nat.le_of_not_lt hlt)
    rw [hw, if_neg (by omega)]

/-- The bytes that a step puts into the buffer. -/
def Step.puts : Step → List UInt8
  | .feed data => data
  | .encode c => c.toWord.littleEndian
  | .decode | .decodeEnd => []

/-- The word that came out, if one did. -/
def Reply.word? : Reply → Option Word
  | .word w => w
  | .done | .failed _ => none

theorem perform_decodeEnd (buffer : List UInt8) :
    perform buffer .decodeEnd =
      if 1 ≤ buffer.length ∧ buffer.length ≤ 3 then (.failed (.truncated buffer.length), buffer)
      else perform buffer .decode := by
  simp only [perform, decodeEnd_eq]
  by_cases hpart : 1 ≤ buffer.length ∧ buffer.length ≤ 3
  · rw [if_pos hpart, if_pos hpart]
  · rw [if_neg hpart, if_neg hpart]

theorem decode_conserves (buffer : List UInt8) :
    (decode buffer).1.toList.flatMap Word.encode ++ (decode buffer).2 = buffer := by
  by_cases hlt : buffer.length < 4
  · rw [decode_of_short hlt]
    rfl
  · obtain ⟨w, hw, hbytes⟩ := decode_of_le (Nat.le_of_not_lt hlt)
    rw [hw, Option.toList_some, List.flatMap_singleton, hbytes, List.take_append_drop]

/-- A step takes out of the buffer no bytes but those of the word it gives. -/
theorem perform_conserves (buffer : List UInt8) (step : Step) :
    (perform buffer step).1.word?.toList.flatMap Word.encode ++ (perform buffer step).2 =
      buffer ++ step.puts := by
  cases step with
  | feed data => rfl
  | encode c =>
    rw [Step.puts, ← Word.encode_eq_littleEndian]
    rfl
  | decode =>
    rw [Step.puts, List.append_nil]
    exact decode_conserves buffer
  | decodeEnd =>
    rw [perform_decodeEnd, Step.puts, List.append_nil]
    split
    · rfl
    · exact decode_conserves buffer

/-! ## Any use of a buffer -/

/-- One step after another: what came of each, and the buffer at the end. -/
def performAll (buffer : List UInt8) : List Step → List Reply × List UInt8
  | [] => ([], buffer)
  | step :: steps =>
    let done := perform buffer step
    let rest := performAll done.2 steps
    (done.1 :: rest.1, rest.2)

/-- The words that came out, in order. -/
def words (replies : List Reply) : List Word := replies.filterMap Reply.word?

theorem words_cons (reply : Reply) (replies : List Reply) :
    words (reply :: replies) = reply.word?.toList ++ words replies := by
  unfold words
  cases h : reply.word? <;> simp [h]

theorem performAll_conserves (buffer : List UInt8) (steps : List Step) :
    let done := performAll buffer steps
    (words done.1).flatMap Word.encode ++ done.2 = buffer ++ steps.flatMap Step.puts := by
  induction steps generalizing buffer with
  | nil => simp [performAll, words]
  | cons step steps ih =>
    have hstep := perform_conserves buffer step
    have hrest := ih (perform buffer step).2
    simp only [performAll, words_cons, List.flatMap_append, List.flatMap_cons, List.append_assoc]
      at hrest ⊢
    rw [hrest, ← List.append_assoc, hstep, List.append_assoc]

theorem performAll_append (buffer : List UInt8) (steps more : List Step) :
    performAll buffer (steps ++ more) =
      ((performAll buffer steps).1 ++ (performAll (performAll buffer steps).2 more).1,
        (performAll (performAll buffer steps).2 more).2) := by
  induction steps generalizing buffer with
  | nil => rfl
  | cons step steps ih => simp only [List.cons_append, performAll, ih]

/-- Trying for a word often enough gets them all out. -/
theorem performAll_decode (vs : List Word) {n : Nat} (h : vs.length ≤ n) :
    let done := performAll (vs.flatMap Word.encode) (List.replicate n .decode)
    words done.1 = vs ∧ done.2 = [] := by
  induction n generalizing vs with
  | zero =>
    obtain rfl := List.length_eq_zero_iff.1 (Nat.le_zero.1 h)
    exact ⟨rfl, rfl⟩
  | succ n ih =>
    rw [List.replicate_succ]
    cases vs with
    | nil =>
      obtain ⟨hwords, hleft⟩ := ih [] (Nat.zero_le n)
      exact ⟨hwords, hleft⟩
    | cons v vs =>
      have hdecode : perform ((v :: vs).flatMap Word.encode) .decode =
          (.word (some v), vs.flatMap Word.encode) := by
        rw [List.flatMap_cons, perform, decode, Word.take?_encode]
      obtain ⟨hwords, hleft⟩ := ih vs (Nat.le_of_succ_le_succ h)
      simp only [performAll, hdecode, words_cons]
      exact ⟨by rw [hwords]; rfl, hleft⟩

/-- Commands whose bytes went in have come out from the first on, and what is left in the buffer are the
bytes of the others. -/
theorem performAll_commands {cs : List Command} {steps : List Step}
    (h : steps.flatMap Step.puts = cs.flatMap (·.toWord.littleEndian)) :
    let done := performAll [] steps
    words done.1 = (cs.map Command.toWord).take (words done.1).length ∧
      done.2 = ((cs.map Command.toWord).drop (words done.1).length).flatMap Word.encode := by
  intro done
  have hbytes : cs.flatMap (·.toWord.littleEndian) =
      (cs.map Command.toWord).flatMap Word.encode := by
    rw [List.flatMap_map, Word.encode_eq_littleEndian]
  refine Word.eq_take_of_flatMap_encode ?_
  rw [← hbytes, ← h]
  exact performAll_conserves [] steps

/-- **What goes into a buffer is what comes out and what is left.** Let bytes be fed, commands written and
words tried for in any order. A word comes out exactly when four bytes are there, and it is that of the
first four. At the end of the stream one to three bytes are an error that tells how many there are. Hence
commands, fed in any pieces, come out as their words; and a word gives back its command, unless that
carries as a word without a meaning one that has a meaning. -/
theorem bytes_in_are_words_out :
    (∀ steps : List Step,
      let done := performAll [] steps
      (words done.1).flatMap Word.littleEndian ++ done.2 = steps.flatMap Step.puts) ∧
    (∀ buffer, ((perform buffer .decode).1 = .word none ↔ buffer.length < 4) ∧
      (buffer.length < 4 → (perform buffer .decode).2 = buffer) ∧
      (4 ≤ buffer.length → ∃ w, perform buffer .decode = (.word (some w), buffer.drop 4) ∧
        w.littleEndian = buffer.take 4)) ∧
    (∀ buffer,
      (∀ e, (perform buffer .decodeEnd).1 = .failed e ↔
        (1 ≤ buffer.length ∧ buffer.length ≤ 3) ∧ e = .truncated buffer.length) ∧
      (1 ≤ buffer.length ∧ buffer.length ≤ 3 → (perform buffer .decodeEnd).2 = buffer) ∧
      (¬(1 ≤ buffer.length ∧ buffer.length ≤ 3) →
        perform buffer .decodeEnd = perform buffer .decode)) ∧
    (∀ (cs : List Command) (steps : List Step),
      steps.flatMap Step.puts = cs.flatMap (·.toWord.littleEndian) →
      words (performAll [] steps).1 <+: cs.map Command.toWord ∧
      ∀ n, cs.length ≤ n →
        let done := performAll [] (steps ++ List.replicate n .decode)
        words done.1 = cs.map Command.toWord ∧ done.2 = []) ∧
    ∀ c, Command.ofWord c.toWord = c ↔ ∀ w, c = .unknown w → w ∉ [1, 999, 1001, 1002, 1003] := by
  refine ⟨fun steps => ?_, fun buffer => ⟨?_, fun hlt => ?_, fun hle => ?_⟩,
    fun buffer => ⟨fun e => ?_, fun hpart => ?_, fun hwhole => ?_⟩, fun cs steps h => ?_,
    Command.ofWord_toWord_iff⟩
  · rw [← Word.encode_eq_littleEndian]
    exact performAll_conserves [] steps
  · by_cases hlt : buffer.length < 4
    · simp [perform, decode_of_short hlt, hlt]
    · obtain ⟨w, hw, -⟩ := decode_of_le (Nat.le_of_not_lt hlt)
      simp [perform, hw, hlt]
  · simp [perform, decode_of_short hlt]
  · obtain ⟨w, hw, hbytes⟩ := decode_of_le hle
    exact ⟨w, by simp [perform, hw], Word.encode_eq_littleEndian ▸ hbytes⟩
  · rw [perform_decodeEnd]
    by_cases hpart : 1 ≤ buffer.length ∧ buffer.length ≤ 3
    · rw [if_pos hpart]
      simp only [Reply.failed.injEq, hpart, and_self, true_and]
      exact eq_comm
    · rw [if_neg hpart]
      simp [perform, hpart]
  · rw [perform_decodeEnd, if_pos hpart]
  · rw [perform_decodeEnd, if_neg hwhole]
  · obtain ⟨hwords, hleft⟩ := performAll_commands h
    refine ⟨hwords ▸ List.take_prefix _ _, fun n hn => ?_⟩
    -- What is left in the buffer comes out in the tries that follow.
    have hrest := performAll_decode ((cs.map Command.toWord).drop
      (words (performAll [] steps).1).length) (n := n) (by simp; omega)
    rw [← hleft] at hrest
    simp only [performAll_append]
    refine ⟨?_, hrest.2⟩
    calc words ((performAll [] steps).1 ++ _)
        = words (performAll [] steps).1 ++ words _ := List.filterMap_append
      _ = (cs.map Command.toWord).take _ ++ (cs.map Command.toWord).drop _ := by
        rw [← hwords, hrest.1]
      _ = cs.map Command.toWord := List.take_append_drop _ _

/-- START and a word without a meaning, which has that of STOP, in pieces that cut both words; a word is
tried for in vain when the first piece is there. Then NEW is written behind them. -/
def choppyFeed : List Step :=
  [.feed [0xe9, 3, 0], .decodeEnd, .feed [0, 0xe7], .decode, .feed [3, 0, 0], .encode .new]

/-- All three words come out; the second one is read as STOP. -/
theorem bytes_in_are_words_out_choppyFeed :
    choppyFeed.flatMap Step.puts =
      [Command.start, .unknown 999, .new].flatMap (·.toWord.littleEndian) ∧
    (performAll [] choppyFeed).1 =
      [.done, .failed (.truncated 3), .done, .word (some 1001), .done, .done] ∧
    words (performAll [] (choppyFeed ++ List.replicate 3 .decode)).1 = [1001, 999, 1] ∧
    Command.ofWord (Command.unknown 999).toWord ≠ .unknown 999 := by
  obtain ⟨-, -, -, hcommands, hback⟩ := bytes_in_are_words_out
  have puts : choppyFeed.flatMap Step.puts =
      [Command.start, .unknown 999, .new].flatMap (·.toWord.littleEndian) := by decide
  refine ⟨puts, by decide, ((hcommands _ _ puts).2 3 (Nat.le_refl 3)).1, fun h => ?_⟩
  exact (hback (.unknown 999)).1 h 999 rfl (by decide)

end Codec

end StreamServer
