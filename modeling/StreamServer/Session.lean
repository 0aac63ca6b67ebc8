/-
One worker job on one data stream. When and how the job ends is settled by
the job; a session knows it and tells it to those who ask after that time.
Its result can be taken once.
-/
import StreamServer.Error
import StreamServer.Log

namespace StreamServer

/-- How a job ends. -/
inductive Ending where
  | exited (status : Int)
  | panicked
deriving DecidableEq, Repr

/-- A job that was started. -/
structure Session where
  id : SessionId
  started : Instant
  /-- When and how the job ends; `none` if it never does. -/
  ending : Option (Instant × Ending)
  /-- How often the result was taken. -/
  taken : Nat := 0
deriving DecidableEq, Repr

namespace Session

/-- What one is told who asks for the result. -/
inductive Inquiry where
  | running
  | ended (result : Except SessionError Int)
  /-- The result was taken before. Asking again is an error of the program that asks. -/
  | spent

/-- Starts a job that ends as given. -/
def start (id : SessionId) (now : Instant) (ending : Option (Instant × Ending)) : Session :=
  { id, started := now, ending }

/-- Announces a start. -/
def startEntry (id : SessionId) (now : Instant) : Log.Entry :=
  Log.debug now ("Starting " ++ id.text)

/-- The job has ended by `now`. -/
def finishedBy (s : Session) (now : Instant) : Bool :=
  match s.ending with
  | some (t, _) => t ≤ now
  | none => false

/-- Time since the start. -/
def uptime (s : Session) (now : Instant) : Duration := .ofMillis (now - s.started)

/-- The result of a job that ended so. -/
def resultOf (id : SessionId) : Ending → Except SessionError Int
  | .exited status => .ok status
  | .panicked => .error (.aborted id)

/-- The result is no longer there. -/
def collected (s : Session) : Bool := 0 < s.taken

/-- The session after its result was taken once more. -/
def take (s : Session) : Session := { s with taken := s.taken + 1 }

/-- Asks for the result without waiting. -/
def inquire (s : Session) (now : Instant) : Inquiry × Session :=
  match s.ending with
  | some (t, ending) =>
    if t ≤ now then (if s.collected then .spent else .ended (resultOf s.id ending), s.take)
    else (.running, s)
  | none => (.running, s)

/-- When waiting for the end, begun at `now`, is over and the result is taken. For a result that was
taken before, it never is. -/
def joinedAt (s : Session) (now : Instant) : Option (Instant × Ending) :=
  if s.collected then none else s.ending.map fun (t, ending) => (max now t, ending)

/-- What is said when waiting for the end is over. -/
def joinLog (id : SessionId) (t : Instant) : Ending → Log
  | .exited _ => []
  | .panicked => [Log.error t (id.text ++ " panicked")]

/-- Lets a job end that would otherwise have gone on. -/
def endAt (s : Session) (t : Instant) (ending : Ending) : Session :=
  { s with ending := some (t, ending) }

end Session

end StreamServer
