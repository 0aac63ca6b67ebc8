/-
Runs: the states a server goes through, and what can be seen of a run by a
given time.
-/
import StreamServer.Supervisor.Step

namespace StreamServer.Supervisor

/-- The state after so many steps. -/
def run (w : World) : Nat → Supervisor → Supervisor
  | 0, s => s
  | n + 1, s => run w n (s.step w)

/-- Steps until nothing more can happen by `limit`, at most so many. -/
def runUntil (w : World) (limit : Instant) : Nat → Supervisor → Supervisor
  | 0, s => s
  | n + 1, s => if s.phase.isFinal ∨ limit < s.clock then s else runUntil w limit n (s.step w)

/-- Steps a script can give rise to. -/
def scriptWeight (o : Opening) : Nat :=
  match o with
  | .opens _ script =>
    (script.arrivals.map fun a => match a.input with
      | .bytes data => data.length + 1
      | _ => 1).foldr (· + ·) 0 + 1
  | _ => 1

/-- A bound on the steps that begin by `limit`: each step but a few in a row takes something off a
script or lets a millisecond pass. -/
def budget (s : Supervisor) (limit : Instant) : Nat :=
  16 * (limit + ((s.dials.next ++ s.accepts.next).map scriptWeight).foldr (· + ·) 0 + 2)

/-- What can be seen of a run by a given time. -/
def observe (w : World) (limit : Instant) (s : Supervisor) : Supervisor :=
  runUntil w limit (s.budget limit) s

/-- Streams the server holds in a phase. -/
def Phase.streams : Phase → List Stream
  | .serving link | .fetching link => [link.stream]
  | .greeting stream link | .admitting _ stream link | .creating _ stream link =>
    stream :: (link.map (·.stream)).toList
  | .tracking _ link => (link.map (·.stream)).toList
  | .stuck streams => streams
  | _ => []

/-- Records of all streams of a run, those that are still held included, in the order they were
opened. -/
def transcripts (s : Supervisor) : List Transcript :=
  (s.record.transcripts ++ s.phase.streams.map (·.transcript none)).mergeSort
    fun a b => a.serial ≤ b.serial

/-- How the run ended. -/
def exit? (s : Supervisor) : Option Exit :=
  match s.phase with
  | .ended exit => some exit
  | _ => none

end StreamServer.Supervisor
