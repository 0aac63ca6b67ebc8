/-
The clock a server runs on. It counts milliseconds since it was started and
stands still while work is done; only waiting moves it. It is set on the clock
of a host, which has been running for longer and counts further.
-/
import StreamServer.Duration

namespace StreamServer

/-- Milliseconds since the clock started. -/
abbrev Instant := Nat

namespace Instant

/-- The instant as a duration since the clock started. -/
def elapsed (t : Instant) : Duration := .ofMillis t

/-- The last instant of the clock, which counts in 64 bits and keeps the two numbers above it for
timers that are over. -/
def last : Instant := UInt64.size - 3

/-- When a timeout that is set at `now` goes off: at the first whole millisecond that covers it. One
that would go off after the last instant never does. -/
def timeout? (now : Instant) (limit : Duration) : Option Instant :=
  if now + limit.ceilMillis ≤ last then some (now + limit.ceilMillis) else none

/-- The host's clock counts seconds in 63 bits from its own start, `uptime` nanoseconds before the start
of this one; it gets to the end of a delay that begins at `now`. -/
def HostReaches (uptime : UInt64) (now : Instant) (delay : Duration) : Prop :=
  uptime.toNat + Duration.perMilli * now + delay.nanos < Nat.pow 2 63 * Duration.perSecond

instance (uptime : UInt64) (now : Instant) (delay : Duration) :
    Decidable (HostReaches uptime now delay) :=
  inferInstanceAs (Decidable (_ < _))

/-- Milliseconds of thirty years. -/
def thirtyYears : Nat := 30 * 365 * 86400 * 1000

/-- When a sleep that begins at `now` is over: at the first whole millisecond that covers it, but no
later than the last instant. One that the host's clock does not get to the end of takes thirty years
instead. -/
def wake (uptime : UInt64) (now : Instant) (delay : Duration) : Instant :=
  max now (min last (now + if HostReaches uptime now delay then delay.ceilMillis else thirtyYears))

theorem le_of_timeout? {now t : Instant} {limit : Duration} (h : now.timeout? limit = some t) :
    now ≤ t := by
  unfold timeout? at h
  split at h <;> cases h
  exact Nat.le_add_right ..

theorem le_wake (uptime : UInt64) (now : Instant) (delay : Duration) : now ≤ now.wake uptime delay :=
  Nat.le_max_left ..

end Instant

end StreamServer
