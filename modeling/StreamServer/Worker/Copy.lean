/-
Copying a stream back to where it comes from, through a buffer of 8 KiB. Each
round reads once, if there is something to read and a place for it, and then
writes all that is in the buffer. While a write has to wait, one more read is
tried; it is tried again when more arrives, unless it has just succeeded: then
only the write wakes the copying up.
-/
import StreamServer.Stream

namespace StreamServer.Worker

/-- Copying under way. -/
structure Copy where
  arrivals : List Arrival
  outlet : Outlet
  /-- Read and not yet written. -/
  pending : List UInt8
  /-- Places of the buffer in use; they are free again when all is written. -/
  used : Nat
  /-- The stream has ended. -/
  ended : Bool
  /-- Bytes written so far. -/
  copied : Nat
deriving DecidableEq, Repr

namespace Copy

/-- Places in the buffer. -/
def capacity : Nat := 8192

/-- Nothing has been copied. -/
def start (s : Stream) : Copy := ⟨s.arrivals, s.outlet, [], 0, false, 0⟩

/-- How an attempt to read goes. -/
inductive Fill where
  | read
  /-- Nothing is there yet; more comes at the given time, if ever. -/
  | idle (due : Option Instant)
  | failed (reason : String)
deriving DecidableEq, Repr

/-- There is a place for more, and more may come. -/
def wantsMore (c : Copy) : Bool := c.used < capacity && !c.ended

/-- Reads once. -/
def fill (c : Copy) (now : Instant) : Fill × Copy :=
  match c.arrivals with
  | [] => (.idle none, c)
  | a :: rest =>
    if now < a.due then (.idle (some a.due), c)
    else match a.input with
      | .bytes data =>
        let room := capacity - c.used
        (.read, { c with
          arrivals := Arrival.leave a.due (data.drop room) rest
          pending := c.pending ++ data.take room
          used := c.used + min room data.length })
      | .ended => (.read, { c with ended := true })
      | .fault reason => (.failed reason, { c with arrivals := rest })

/-- How copying ends. -/
inductive Result where
  | copied (n : Nat)
  | failed (reason : String)
deriving DecidableEq, Repr

/-- How a round ends. -/
inductive Round where
  /-- The next round begins at the given time. -/
  | again (time : Instant) (c : Copy)
  | finished (time : Instant) (result : Result) (c : Copy)
  | never (c : Copy)
deriving DecidableEq, Repr

/-- The next round begins when something happens, if ever. -/
def wait (c : Copy) : Option Instant → Round
  | some t => .again t c
  | none => .never c

/-- The earlier of two times that may never come. -/
def earlier : Option Instant → Option Instant → Option Instant
  | some a, some b => some (min a b)
  | some a, none => some a
  | none, b => b

/-- A write has to wait until `limit`: one more read is tried. -/
def stalled (c : Copy) (now : Instant) (limit : Option Instant) : Round :=
  if c.wantsMore then
    match c.fill now with
    | (.failed reason, c) => .finished now (.failed reason) c
    | (.idle due, c) => c.wait (earlier limit due)
    | (.read, c) => c.wait limit
  else c.wait limit

/-- Everything is written. -/
def drained (c : Copy) (now : Instant) : Round :=
  let c := { c with used := 0 }
  if c.ended then .finished now (.copied c.copied) c else .again now c

/-- Bytes were taken from the front of what is pending. -/
def wrote (c : Copy) (n : Nat) (outlet : Outlet) : Copy :=
  { c with outlet := outlet, pending := c.pending.drop n, copied := c.copied + n }

/-- Writes what is pending, attempt after attempt. One that takes nothing is a failure. -/
def flush (c : Copy) (now : Instant) : Round :=
  if c.pending = [] then c.drained now
  else match c.outlet.offer now c.pending with
    | (.taken 0, outlet) =>
      .finished now (.failed "write zero byte into writer") { c with outlet := outlet }
    | (.taken (n + 1), outlet) => (c.wrote (n + 1) outlet).flush now
    | (.failed reason, outlet) => .finished now (.failed reason) { c with outlet := outlet }
    | (.stalled limit, outlet) => { c with outlet := outlet }.stalled now limit
termination_by c.pending.length
decreasing_by
  have hpos : 0 < c.pending.length := List.length_pos_iff.2 ‹_›
  simp only [wrote, List.length_drop]
  omega

/-- One round. -/
def round (c : Copy) (now : Instant) : Round :=
  if c.wantsMore then
    match c.fill now with
    | (.failed reason, c) => .finished now (.failed reason) c
    | (.idle due, c) => if c.pending.isEmpty then c.wait due else c.flush now
    | (.read, c) => c.flush now
  else c.flush now

/-- A bound on the rounds that are left: each reads something, waits for an arrival that is then
read, or waits for an obstacle that is then lifted. -/
def budget (c : Copy) : Nat :=
  let weight := fun a : Arrival => match a.input with
    | .bytes data => data.length + 1
    | _ => 1
  2 * (c.arrivals.map weight).foldr (· + ·) 0 + 2 * c.pending.length
    + 2 * c.outlet.obstacles.length + 8

/-- Rounds until copying ends, at most so many. -/
def rounds : Nat → Copy → Instant → Round
  | 0, c, _ => .never c
  | n + 1, c, now =>
    match c.round now with
    | .again t c => rounds n c t
    | r => r

/-- Copies to the end. -/
def run (c : Copy) (now : Instant) : Round := rounds c.budget c now

end Copy

end StreamServer.Worker
