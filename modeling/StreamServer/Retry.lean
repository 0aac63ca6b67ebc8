/-
Pauses between attempts to reach the peer: always the same, and counted.
-/
import StreamServer.Log

namespace StreamServer

/-- The pause between attempts, and how many pauses there have been. -/
structure Retry where
  delay : Duration
  attempts : UInt64
deriving DecidableEq, Repr

namespace Retry

/-- No pause so far. -/
def fresh (delay : Duration) : Retry := ⟨delay, 0⟩

/-- Counts one more pause. -/
def next (r : Retry) : Retry := { r with attempts := r.attempts + 1 }

/-- Announces the pause that has just been counted. -/
def announcement (r : Retry) (now : Instant) : Log.Entry :=
  Log.info now ("Reconnecting in " ++ r.delay.text ++ " (attempt " ++ toString r.attempts.toNat ++ ")")

/-- When a pause that begins at `now` is over. -/
def resumeAt (r : Retry) (uptime : UInt64) (now : Instant) : Instant := now.wake uptime r.delay

end Retry

end StreamServer
