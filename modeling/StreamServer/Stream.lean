/-
Byte streams between a server and the outside, as scripts: when which bytes
arrive, how the stream ends, and what stands in the way of writing.
-/
import StreamServer.Clock

namespace StreamServer

/-- What comes in on a stream. -/
inductive Input where
  | bytes (data : List UInt8)
  /-- The other side has closed the stream. -/
  | ended
  /-- Reading fails. -/
  | fault (reason : String)
deriving DecidableEq, Repr

/-- Something that comes in, and from when on it can be read. -/
structure Arrival where
  due : Instant
  input : Input
deriving DecidableEq, Repr

namespace Arrival

/-- Carries nothing. -/
def isEmpty (a : Arrival) : Bool := a.input == .bytes []

/-- What is left of an arrival of bytes, in front of the arrivals after it. -/
def leave (due : Instant) (data : List UInt8) (rest : List Arrival) : List Arrival :=
  if data.isEmpty then rest else ⟨due, .bytes data⟩ :: rest

end Arrival

/-- What stands in the way of bytes that are written. -/
inductive Overflow where
  /-- Writing fails. -/
  | refuse (reason : String)
  /-- Writing takes nothing, time and again. -/
  | swallow
  /-- Writing waits, until it may go on or for ever. -/
  | stall (lift : Option Instant)
deriving DecidableEq, Repr

/-- Writing may go on by `now`. -/
def Overflow.liftedBy (now : Instant) : Overflow → Bool
  | .stall (some t) => t ≤ now
  | _ => false

/-- What stands in the way one after another: so many bytes are taken before the first, so many more
before the second, and so on. Behind the last, all are taken. -/
abbrev Obstacles := List (Nat × Overflow)

/-- The obstacles that writing meets at `now`. Places in front of one that is lifted count for the next,
as `spare` ones do. -/
def Obstacles.clear (now : Instant) : (spare : Nat) → Obstacles → Obstacles
  | _, [] => []
  | spare, (room, overflow) :: rest =>
    if overflow.liftedBy now then clear now (spare + room) rest
    else (spare + room, overflow) :: rest

/-- The writing side of a stream. A flush is not told apart from the writes before it: on the streams of
this library it does nothing. -/
structure Outlet where
  obstacles : Obstacles
  /-- What has been taken, and when. -/
  written : List (Instant × List UInt8)
deriving DecidableEq, Repr

/-- Why writing all of some bytes failed. -/
inductive WriteFault where
  | refused (reason : String)
  | swallowed
deriving DecidableEq, Repr

/-- The reason of a failed write; `swallowed` is what the writer says when nothing was taken. -/
def WriteFault.text (swallowed : String) : WriteFault → String
  | .refused reason => reason
  | .swallowed => swallowed

/-- How one attempt to write goes. -/
inductive Offer where
  /-- So many bytes were taken. -/
  | taken (n : Nat)
  | failed (reason : String)
  /-- Nothing is taken before the given time, if ever. -/
  | stalled (lift : Option Instant)
deriving DecidableEq, Repr

/-- What comes of an attempt where nothing can be taken. -/
def Overflow.answer : Overflow → Offer
  | .refuse reason => .failed reason
  | .swallow => .taken 0
  | .stall lift => .stalled lift

/-- How writing all of some bytes goes. -/
inductive Sent where
  | done (time : Instant)
  | failed (time : Instant) (fault : WriteFault)
  | never
deriving DecidableEq, Repr

namespace Outlet

/-- All that was taken, in order. -/
def bytes (o : Outlet) : List UInt8 := o.written.flatMap (·.2)

/-- Bytes were taken, and this is in the way of more. -/
def note (o : Outlet) (now : Instant) (data : List UInt8) (left : Obstacles) : Outlet where
  obstacles := left
  written := if data.isEmpty then o.written else o.written ++ [(now, data)]

/-- One attempt to write. -/
def offer (o : Outlet) (now : Instant) (data : List UInt8) : Offer × Outlet :=
  match o.obstacles.clear now 0 with
  | [] => (.taken data.length, o.note now data [])
  | (0, overflow) :: rest => (overflow.answer, { o with obstacles := (0, overflow) :: rest })
  | (room, overflow) :: rest =>
    (.taken (min room data.length),
      o.note now (data.take room) ((room - data.length, overflow) :: rest))

/-- Writes all of `data` past the obstacles, with `spare` places in front of them. -/
def sendPast (o : Outlet) (now : Instant) (data : List UInt8) : (spare : Nat) → Obstacles → Sent × Outlet
  | _, [] => (.done now, o.note now data [])
  | spare, (room, overflow) :: rest =>
    if overflow.liftedBy now then o.sendPast now data (spare + room) rest
    else if data.length ≤ spare + room then
      (.done now, o.note now data ((spare + room - data.length, overflow) :: rest))
    else
      let o := o.note now (data.take (spare + room)) ((0, overflow) :: rest)
      match overflow with
      | .refuse reason => (.failed now (.refused reason), o)
      | .swallow => (.failed now .swallowed, o)
      | .stall none => (.never, o)
      | .stall (some t) => o.sendPast t (data.drop (spare + room)) 0 rest

/-- Writes all of `data`, waiting where the other side makes it wait. -/
def send (o : Outlet) (now : Instant) (data : List UInt8) : Sent × Outlet :=
  o.sendPast now data 0 o.obstacles

end Outlet

/-- What the other side of a stream will do, in times since the stream was opened. -/
structure Script where
  arrivals : List Arrival
  obstacles : Obstacles
  /-- Why closing the stream fails, if it does. -/
  closeFault : Option String
deriving DecidableEq, Repr

/-- An open stream. -/
structure Stream where
  /-- Its place among the streams of a run. -/
  serial : Nat
  /-- The other side as records name it. -/
  peer : String
  opened : Instant
  /-- What is still to be read. -/
  arrivals : List Arrival
  outlet : Outlet
  closeFault : Option String
deriving DecidableEq, Repr

namespace Script

/-- Counts the time of a stall from the opening of the stream. -/
def openedOverflow (now : Instant) : Overflow → Overflow
  | .stall lift => .stall (lift.map (now + ·))
  | overflow => overflow

/-- Opens a stream. -/
def openAt (s : Script) (serial : Nat) (peer : String) (now : Instant) : Stream where
  serial := serial
  peer := peer
  opened := now
  arrivals := (s.arrivals.filter (!·.isEmpty)).map fun a => { a with due := now + a.due }
  outlet := ⟨s.obstacles.map fun o => (o.1, openedOverflow now o.2), []⟩
  closeFault := s.closeFault

end Script

/-- What happens when a stream is asked for, by dialling or by accepting. -/
inductive Opening where
  /-- It opens after a while. -/
  | opens (delay : Nat) (script : Script)
  /-- It fails after a while. -/
  | fails (delay : Nat) (reason : String)
  /-- It never does either. -/
  | hangs
deriving DecidableEq, Repr

/-- What happens each time a stream is asked for: one after another, then always the same. -/
structure Openings where
  next : List Opening
  afterwards : Opening
deriving DecidableEq, Repr

namespace Openings

/-- Asks for one more. -/
def take (o : Openings) : Opening × Openings :=
  match o.next with
  | [] => (o.afterwards, o)
  | first :: rest => (first, { o with next := rest })

end Openings

/-- How asking for a stream ends. -/
inductive Opened where
  | stream (time : Instant) (stream : Stream)
  | failed (time : Instant) (reason : String)
  | never
deriving DecidableEq, Repr

/-- Asks for a stream at `now`. -/
def Opening.ask (o : Opening) (serial : Nat) (peer : String) (now : Instant) : Opened :=
  match o with
  | .opens delay script => .stream (now + delay) (script.openAt serial peer (now + delay))
  | .fails delay reason => .failed (now + delay) reason
  | .hangs => .never

/-- How reading a fixed number of bytes ends; `got` are the bytes read before it failed. -/
inductive Exact where
  | complete (time : Instant) (data : List UInt8) (rest : List Arrival)
  | ended (time : Instant) (got : List UInt8)
  | fault (time : Instant) (reason : String) (got : List UInt8)
  | never (got : List UInt8)
deriving DecidableEq, Repr

/-- Reads exactly `need` more bytes after `got`. -/
def readExact : (need : Nat) → (now : Instant) → (got : List UInt8) → List Arrival → Exact
  | _, _, got, [] => .never got
  | need, now, got, a :: rest =>
    let now := max now a.due
    match a.input with
    | .bytes data =>
      if data.length < need then readExact (need - data.length) now (got ++ data) rest
      else .complete now (got ++ data.take need) (Arrival.leave a.due (data.drop need) rest)
    | .ended => .ended now got
    | .fault reason => .fault now reason got

/-- Joins writes of the same millisecond. -/
def joinWrites : List (Instant × List UInt8) → List (Instant × List UInt8)
  | [] => []
  | (t, data) :: rest =>
    match joinWrites rest with
    | (u, more) :: rest =>
      if t = u then (t, data ++ more) :: rest else (t, data) :: (u, more) :: rest
    | [] => [(t, data)]

/-- What a stream leaves behind. -/
structure Transcript where
  serial : Nat
  peer : String
  opened : Instant
  writes : List (Instant × List UInt8)
  /-- When its writing side was closed on purpose. -/
  closed : Option Instant
  /-- When its owner let go of it. -/
  dropped : Option Instant
deriving DecidableEq, Repr

/-- What could be recorded by a time, writes of the same millisecond joined. -/
def Transcript.upTo (limit : Instant) (t : Transcript) : Transcript :=
  { t with
    writes := joinWrites (t.writes.filter (·.1 ≤ limit))
    closed := t.closed.filter (· ≤ limit)
    dropped := t.dropped.filter (· ≤ limit) }

namespace Stream

/-- The record of a stream that was let go of, if it was. -/
def transcript (s : Stream) (dropped : Option Instant) : Transcript :=
  ⟨s.serial, s.peer, s.opened, s.outlet.written, none, dropped⟩

end Stream

end StreamServer
