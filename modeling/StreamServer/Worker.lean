/-
What is done with a data stream once its flags are read: a worker makes a job
of it. What a worker does is up to whoever runs the server; the course of a job
is settled when the job is made.
-/
import StreamServer.Session
import StreamServer.Worker.Copy

namespace StreamServer

namespace Worker

/-- Kinds of jobs. -/
inductive Plan where
  /-- Sends everything back. -/
  | echo
  /-- Reads to the end. -/
  | sink
  /-- Takes so many milliseconds and exits. -/
  | run (ms : Nat) (status : Int)
  /-- Takes so many milliseconds and breaks down. -/
  | panic (ms : Nat)
  /-- Never ends. -/
  | hang
  /-- No job is made. -/
  | fail (reason : String)
deriving DecidableEq, Repr

/-- The course of a job. -/
structure Course where
  ending : Option (Instant × Ending)
  /-- Record of its stream. -/
  transcript : Transcript
  /-- All that was read, if it is kept. -/
  payload : Option (List UInt8)
  log : Log
deriving DecidableEq, Repr

/-- The course of a job on a stream that is let go of when the job ends. -/
def course (stream : Stream) (ending : Option (Instant × Ending)) : Course :=
  ⟨ending, stream.transcript (ending.map (·.1)), none, []⟩

/-- How copying ended, as the end of a job. -/
def echoCourse (id : SessionId) (stream : Stream) : Copy.Round → Course
  | .finished t (.copied n) c =>
    { course { stream with outlet := c.outlet } (some (t, .exited 0)) with
      log := [Log.debug t (id.text ++ " closed after echoing " ++ toString n ++ " bytes")] }
  | .finished t (.failed reason) c =>
    { course { stream with outlet := c.outlet } (some (t, .exited 1)) with
      log := [Log.warn t (id.text ++ " I/O error: " ++ reason)] }
  | .again _ c | .never c => course { stream with outlet := c.outlet } none

/-- Sends everything back. -/
def echo (id : SessionId) (stream : Stream) (now : Instant) : Course :=
  echoCourse id stream ((Copy.start stream).run now)

/-- Everything up to the end of a stream: when it came, unless it never does, and whether reading
failed there. -/
def readToEnd : Instant → List UInt8 → List Arrival → Option (Instant × Bool) × List UInt8
  | _, got, [] => (none, got)
  | now, got, a :: rest =>
    let now := max now a.due
    match a.input with
    | .bytes data => readToEnd now (got ++ data) rest
    | .ended => (some (now, true), got)
    | .fault _ => (some (now, false), got)

/-- Reads to the end. -/
def sink (stream : Stream) (now : Instant) : Course :=
  match readToEnd now [] stream.arrivals with
  | (some (t, ok), got) =>
    { course stream (some (t, .exited (if ok then 0 else 1))) with payload := some got }
  | (none, _) => course stream none

/-- Makes a job of this kind. -/
def Plan.create (plan : Plan) (id : SessionId) (stream : Stream) (now : Instant) :
    Except SessionError Course :=
  match plan with
  | .echo => .ok (Worker.echo id stream now)
  | .sink => .ok (Worker.sink stream now)
  | .run ms status => .ok (course stream (some (now + ms, .exited status)))
  | .panic ms => .ok (course stream (some (now + ms, .panicked)))
  | .hang => .ok (course stream none)
  | .fail reason => .error (.create reason)

/-- What is said when the worker is told that no more streams come. -/
def finalizeEntry (now : Instant) : Log.Entry := Log.info now "Echo worker finalized"

end Worker

/-- Makes jobs of data streams: the course of the job for a session on a stream that it is handed at a
time, or why none is made. -/
structure Worker where
  create : SessionId → Stream → Instant → Except SessionError Worker.Course

namespace Worker

/-- Makes jobs of these kinds for the sessions 1, 2, … in turn, and sends everything back for all others. -/
def ofPlans (plans : List Plan) : Worker where
  create id := (plans.getD (id.number.toNat - 1) .echo).create id

end Worker

end StreamServer
