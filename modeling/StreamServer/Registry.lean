/-
The sessions a server keeps track of. It numbers them, refuses new ones at
its cap, lets go of those that have finished, and waits for the rest at the
end.
-/
import StreamServer.Session

namespace StreamServer

/-- Sessions under their numbers, in the order they were put in. -/
structure Registry where
  entries : List (SessionId × Session)
  /-- The number for the next session. -/
  nextId : SessionId
  /-- Sessions that may run at once. -/
  cap : Option UInt32
deriving DecidableEq, Repr

namespace Registry

/-- No sessions; numbers start at one. -/
def empty (cap : Option UInt32) : Registry := ⟨[], ⟨1⟩, cap⟩

/-- Hands out a number. -/
def allocate (r : Registry) : SessionId × Registry := (r.nextId, { r with nextId := r.nextId.next })

/-- Tracked numbers. -/
def ids (r : Registry) : List SessionId := r.entries.map (·.1)

/-- Tracked sessions. -/
def sessions (r : Registry) : List Session := r.entries.map (·.2)

def size (r : Registry) : Nat := r.entries.length

def contains (r : Registry) (id : SessionId) : Bool := r.ids.contains id

/-- Tracked sessions that have not finished by `now`. -/
def running (r : Registry) (now : Instant) : Nat :=
  r.entries.countP fun e => !e.2.finishedBy now

/-- Refuses one more session at the cap. Those that have finished do not count. -/
def checkCapacity (r : Registry) (now : Instant) : Except SessionError Unit :=
  match r.cap with
  | some limit => if limit.toNat ≤ r.running now then .error (.limitReached limit) else .ok ()
  | none => .ok ()

/-- Tracks a session, unless its number is taken: then it is handed back. -/
def insert (r : Registry) (s : Session) : Except Session Registry :=
  if r.contains s.id then .error s
  else .ok { r with entries := r.entries ++ [(s.id, s)] }

/-- Sessions that have finished by `now`. -/
def finished (r : Registry) (now : Instant) : List (SessionId × Session) :=
  r.entries.filter fun e => e.2.finishedBy now

/-- Lets go of a session: it is asked for its result, and something is said. -/
def reap (now : Instant) (id : SessionId) (s : Session) : Log.Entry × Session :=
  match s.inquire now with
  | (.ended (.ok status), s) =>
    (Log.debug now ("Reaped " ++ id.text ++ " (exit status " ++ toString status ++ ", ran "
      ++ (s.uptime now).text ++ ")"), s)
  | (.ended (.error e), s) => (Log.warn now ("Reaped " ++ id.text ++ ": " ++ e.message), s)
  | (.running, s) | (.spent, s) => (Log.debug now ("Reaped " ++ id.text), s)

/-- What comes of letting go of the sessions that have finished. -/
structure Sweep where
  registry : Registry
  /-- Those that were let go of. -/
  gone : List Session
  log : Log
deriving DecidableEq, Repr

/-- Lets go of the sessions that have finished by `now`. -/
def sweep (r : Registry) (now : Instant) : Sweep :=
  let reaped := (r.finished now).map fun e => reap now e.1 e.2
  { registry := { r with entries := r.entries.filter fun e => !e.2.finishedBy now }
    gone := reaped.map (·.2)
    log := reaped.map (·.1) }

/-- How waiting for sessions one after another went: when it was over, unless it never is, how each
session that was waited for ended, what was said, and the sessions afterwards. -/
structure Drain where
  time : Option Instant
  endings : List (SessionId × Ending)
  log : Log
  sessions : List Session
deriving DecidableEq, Repr

/-- What is said about a session that was waited for. -/
def joinedEntry (t : Instant) (id : SessionId) (ending : Ending) : Log :=
  Session.joinLog id t ending ++
    match Session.resultOf id ending with
    | .ok status => [Log.debug t (id.text ++ " finished with exit status " ++ toString status)]
    | .error e => [Log.warn t e.message]

/-- Waits for sessions one after another, beginning at `now`. -/
def joinAll : Instant → List Session → Drain
  | now, [] => ⟨some now, [], [], []⟩
  | now, s :: rest =>
    match s.joinedAt now with
    | none => ⟨none, [], [], s :: rest⟩
    | some (t, ending) =>
      let d := joinAll t rest
      ⟨d.time, (s.id, ending) :: d.endings, joinedEntry t s.id ending ++ d.log, s.take :: d.sessions⟩

/-- Announces that sessions are waited for. -/
def drainEntry (now : Instant) (count : Nat) : Log :=
  if 0 < count then [Log.info now ("Waiting for " ++ toString count ++ " session(s) to finish")]
  else []

/-- Takes all sessions out and waits for them. -/
def drain (r : Registry) (now : Instant) : Drain × Registry :=
  let d := joinAll now r.sessions
  ({ d with log := drainEntry now r.size ++ d.log }, { r with entries := [] })

/-- Lets the job of a tracked session end. -/
def endSession (r : Registry) (id : SessionId) (t : Instant) (ending : Ending) : Registry :=
  { r with entries := r.entries.map fun e => if e.1 = id then (e.1, e.2.endAt t ending) else e }

end Registry

end StreamServer
