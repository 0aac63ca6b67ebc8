/-
Durations as numbers of seconds, the way settings give them: a whole number,
or a float with the nanoseconds in its fraction.
-/
import StreamServer.Binary64
import StreamServer.Duration

namespace StreamServer

/-- A number of seconds. -/
inductive Seconds where
  | whole (n : Nat)
  | float (x : Binary64)
deriving DecidableEq, Repr

namespace Seconds

/-- Why a float is no duration. -/
inductive Fault where
  | negative
  /-- Not below `2 ^ 64` seconds, or not a number. -/
  | tooBig
deriving DecidableEq, Repr

def Fault.text : Fault → String
  | .negative => "cannot convert float seconds to Duration: value is negative"
  | .tooBig => "cannot convert float seconds to Duration: value is either too big or NaN"

/-- The duration nearest to a float, a half nanosecond to the even one. -/
def ofFloat : Binary64 → Except Fault Duration
  | .finite negative units =>
    if negative ∧ units ≠ 0 then .error .negative
    else if UInt64.size * Binary64.one ≤ units then .error .tooBig
    else .ok ⟨Binary64.roundDiv (units * Duration.perSecond) Binary64.one⟩
  | .infinite negative => .error (if negative then .negative else .tooBig)
  | .nan => .error .tooBig

/-- The duration a number of seconds stands for. -/
def toDuration : Seconds → Except Fault Duration
  | .whole n => .ok (.ofSecs n)
  | .float x => ofFloat x

/-- Whole seconds and the fraction, each rounded to a float, then added and rounded. -/
def floatOf (d : Duration) : Binary64 :=
  let whole := Binary64.roundUnits (d.secs * Binary64.one) 1
  let fraction := Binary64.roundUnits (d.subsec * Binary64.one) Duration.perSecond
  .finite false (Binary64.roundUnits (whole + fraction) 1)

/-- The number of seconds that is written for a duration. -/
def ofDuration (d : Duration) : Seconds :=
  if d.subsec = 0 then .whole d.secs else .float (floatOf d)

end Seconds

end StreamServer
