/-
Lengths of time, to the nanosecond, and their text.
-/
namespace StreamServer

/-- A length of time. -/
structure Duration where
  /-- Its length in nanoseconds. -/
  nanos : Nat
deriving DecidableEq, Repr

namespace Duration

/-- Nanoseconds of one second. -/
def perSecond : Nat := 1000000000

/-- Nanoseconds of one millisecond. -/
def perMilli : Nat := 1000000

def zero : Duration := ⟨0⟩

/-- `s` seconds and `ns` nanoseconds. -/
def ofParts (s ns : Nat) : Duration := ⟨s * perSecond + ns⟩

def ofSecs (s : Nat) : Duration := ofParts s 0

def ofMillis (ms : Nat) : Duration := ⟨ms * perMilli⟩

/-- Whole seconds. -/
def secs (d : Duration) : Nat := d.nanos / perSecond

/-- Nanoseconds beyond the whole seconds. -/
def subsec (d : Duration) : Nat := d.nanos % perSecond

/-- Whole milliseconds that cover the duration. -/
def ceilMillis (d : Duration) : Nat := (d.nanos + (perMilli - 1)) / perMilli

/-- The time from `b` to `a`, or none at all if `b` is later. -/
def since (a b : Duration) : Duration := ⟨a.nanos - b.nanos⟩

instance : LE Duration := ⟨fun a b => a.nanos ≤ b.nanos⟩

instance (a b : Duration) : Decidable (a ≤ b) := inferInstanceAs (Decidable (a.nanos ≤ b.nanos))

/-- Drops the zeros at the end. -/
def dropTrailingZeros (cs : List Char) : List Char := (cs.reverse.dropWhile (· == '0')).reverse

/-- The digits of `n` with zeros in front up to `width` of them. -/
def padded (width n : Nat) : List Char :=
  let ds := Nat.toDigits 10 n
  List.replicate (width - ds.length) '0' ++ ds

/-- A number of units whose size is `10 ^ places` nanoseconds: the whole part, and the rest after
a point without zeros at its end. -/
def inUnits (places : Nat) (d : Duration) : String :=
  let whole := toString (d.nanos / Nat.pow 10 places)
  match dropTrailingZeros (padded places (d.nanos % Nat.pow 10 places)) with
  | [] => whole
  | rest => if places = 0 then whole else whole ++ "." ++ String.ofList rest

/-- The duration in the largest unit it fills, written exactly. -/
def text (d : Duration) : String :=
  if perSecond ≤ d.nanos then inUnits 9 d ++ "s"
  else if perMilli ≤ d.nanos then inUnits 6 d ++ "ms"
  else if 1000 ≤ d.nanos then inUnits 3 d ++ "µs"
  else inUnits 0 d ++ "ns"

theorem ofParts_secs_subsec (d : Duration) : ofParts d.secs d.subsec = d := by
  simp only [ofParts, secs, subsec]
  congr 1
  exact Nat.div_add_mod' d.nanos perSecond

end Duration

end StreamServer
