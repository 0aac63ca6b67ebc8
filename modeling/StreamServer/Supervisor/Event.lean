/-
What a server tells those who watch it, and the mailbox through which it does.
A full mailbox, or one that nobody reads any more, never holds the server up:
the event is left out.
-/
import StreamServer.Clock
import StreamServer.SessionId

namespace StreamServer.Supervisor

/-- Milestones of a run. -/
inductive Event where
  /-- A control connection is established. -/
  | controlConnected (dataPort : UInt16)
  /-- A control connection was lost, or could not be established. -/
  | controlLost (reason : String)
  | pingSent
  /-- A session was started: how many were let go of, and how many are tracked now. -/
  | sessionStarted (id : SessionId) (reaped tracked : Nat)
  /-- A stream did not become a session. -/
  | sessionRejected (reason : String)
  /-- A client asked the server to exit. -/
  | exitRequested
  /-- All sessions have been waited for. -/
  | drained (joined : Nat)
deriving DecidableEq, Repr

/-- How a run ends. -/
inductive Exit where
  /-- All sessions were waited for. -/
  | drained (joined : Nat)
  /-- The peer said STOP; sessions were left to themselves. -/
  | stopped
deriving DecidableEq, Repr

/-- What a subscriber does before the next event is put in. -/
inductive Move where
  /-- Takes out so many events, or all there are. -/
  | read (count : Nat)
  /-- Takes out so many events and goes away. -/
  | leave (count : Nat)
deriving DecidableEq, Repr

/-- The mailbox of a subscriber. -/
structure Mailbox where
  /-- What the subscriber does before the event with this number. -/
  habit : Nat → Move
  /-- Events offered so far. -/
  offered : Nat := 0
  /-- The subscriber is still there. -/
  attended : Bool := true
  /-- Events that wait to be read. -/
  held : List (Instant × Event) := []
  /-- Events that were read. -/
  taken : List (Instant × Event) := []

namespace Mailbox

/-- Events that fit in. -/
def capacity : Nat := 256

/-- Lets the subscriber make its move. -/
def moved (m : Mailbox) : Mailbox :=
  match m.habit m.offered with
  | .read count => { m with held := m.held.drop count, taken := m.taken ++ m.held.take count }
  | .leave count => { m with attended := false, held := [], taken := m.taken ++ m.held.take count }

/-- The mailbox when the next event comes: a subscriber that is still there has made its move. -/
def ready (m : Mailbox) : Mailbox := if m.attended then m.moved else m

/-- Offers an event; whether it went in. -/
def post (m : Mailbox) (now : Instant) (e : Event) : Bool × Mailbox :=
  let m := m.ready
  let m := { m with offered := m.offered + 1 }
  if m.attended ∧ m.held.length < capacity then
    (true, { m with held := m.held ++ [(now, e)] })
  else (false, m)

/-- Everything the subscriber gets, if it reads to the end. -/
def received (m : Mailbox) : List (Instant × Event) := m.taken ++ m.held

end Mailbox

end StreamServer.Supervisor
