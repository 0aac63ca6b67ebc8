/-
A whole conversation on a control connection: it is dialled, hands are shaken
and turns are taken, each step given up after a while.
-/
import StreamServer.Control.Handshake

namespace StreamServer.Control

/-- How a turn went. -/
structure Reply where
  time : Instant
  /-- `none` if the turn was given up. -/
  result : Option (Except ConnectionError Event)
  outstanding : Bool

/-- Where a conversation stands. -/
structure Dialogue where
  link : Link
  clock : Instant
  replies : List Reply
  log : Log

/-- Takes one turn, given up after `patience`; whether it can go on. -/
def Dialogue.turn (patience : Nat) (d : Dialogue) : Bool × Dialogue :=
  let turn := d.link.next d.clock
  let limit := d.clock + patience
  match turn.outcome.filter (·.1 ≤ limit) with
  | some (t, result) =>
    (result.isOk,
      ⟨turn.link, t, d.replies ++ [⟨t, some result, turn.link.pingOutstanding⟩], d.log ++ turn.log⟩)
  | none =>
    (false,
      ⟨turn.link, limit, d.replies ++ [⟨limit, none, d.link.pingOutstanding⟩],
        d.log ++ turn.log.upTo limit⟩)

/-- Takes turns until so many are over, one fails or one is given up. -/
def Dialogue.turns (patience : Nat) : Nat → Dialogue → Dialogue
  | 0, d => d
  | n + 1, d =>
    match d.turn patience with
    | (true, d) => turns patience n d
    | (false, d) => d

/-- How dialling and shaking hands went. -/
structure Contact where
  time : Instant
  /-- The link; `none` if it was given up. -/
  result : Option (Except ConnectionError Link)
  /-- The stream that was dialled, if it was. -/
  stream : Option Stream
  log : Log

/-- What is known at `patience` of an attempt to reach the target, made at the time zero. -/
def Attempt.contact (target : Target) (patience : Instant) : Attempt → Contact
  | .dialled opened handshake =>
    if opened ≤ patience then
      let log := [target.dialEntry 0, Link.encodeEntry opened .start]
      match handshake with
      | .linked t link =>
        if t ≤ patience then ⟨t, some (.ok link), some link.stream, log⟩
        else ⟨patience, none, some link.stream, log⟩
      | .failed t e stream =>
        if t ≤ patience then ⟨t, some (.error e), some stream, log⟩
        else ⟨patience, none, some stream, log⟩
      | .never stream => ⟨patience, none, some stream, log⟩
    else ⟨patience, none, none, [target.dialEntry 0]⟩
  | .failed t e =>
    if t ≤ patience then ⟨t, some (.error e), none, [target.dialEntry 0]⟩
    else ⟨patience, none, none, [target.dialEntry 0]⟩
  | .never => ⟨patience, none, none, [target.dialEntry 0]⟩

/-- Dials at the time zero and shakes hands; given up at `patience`. -/
def contact (target : Target) (patience : Instant) (opening : Opening) : Contact :=
  (connect target opening 0 0).contact target patience

end StreamServer.Control
