/-
Signs of life on a control connection. At most one ping is outstanding; when
the peer has been silent for the whole timeout, either a ping is due or the
outstanding one has gone unanswered.
-/
import StreamServer.Duration

namespace StreamServer

/-- The ping of a connection: the time it may stay unanswered, and when it was sent. Times are
durations since the clock started. -/
structure Liveness where
  timeout : Duration
  sentAt : Option Duration
deriving DecidableEq, Repr

namespace Liveness

/-- What a silence calls for. -/
inductive Verdict where
  | sendPing
  | waiting
  | dead (waited : Duration)
deriving DecidableEq, Repr

/-- No ping is outstanding. -/
def fresh (timeout : Duration) : Liveness := ⟨timeout, none⟩

def isOutstanding (l : Liveness) : Bool := l.sentAt.isSome

/-- What a silence noticed at `now` calls for. -/
def check (l : Liveness) (now : Duration) : Verdict :=
  match l.sentAt with
  | none => .sendPing
  | some sent =>
    let waited := now.since sent
    if l.timeout ≤ waited then .dead waited else .waiting

def pingSent (l : Liveness) (now : Duration) : Liveness := { l with sentAt := some now }

def pongReceived (l : Liveness) : Liveness := { l with sentAt := none }

end Liveness

end StreamServer
