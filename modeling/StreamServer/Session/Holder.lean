/-
Somebody who holds a session: what they can ask and do, at what time, and what
they learn. A held job runs until it is told to end.
-/
import StreamServer.Session

namespace StreamServer.Session

/-- A session in somebody's hands. -/
structure Holder where
  /-- `none` once it has been waited for. -/
  session : Option Session
  /-- The job waits to be told to end. -/
  held : Bool
  clock : Instant
  log : Log

/-- What the holder does. -/
inductive Call where
  | advance (ms : Nat)
  /-- Tells a held job to end. -/
  | release (status : Int)
  | id
  | finished
  | uptime
  | describe
  | status
  | join
deriving DecidableEq, Repr

/-- What the holder learns. -/
inductive Reply where
  | done
  | truth (b : Bool)
  | name (id : SessionId)
  | time (d : Duration)
  | state (id : SessionId) (finished : Bool)
  | running
  | result (r : Except SessionError Int)
  /-- Waiting was given up. -/
  | blocked
  /-- The session has been waited for before. -/
  | gone

/-- Starts a job and holds its session; `none` is a job that waits to be told to end. -/
def Holder.start (id : SessionId) (ending : Option (Instant × Ending)) (held : Bool) : Holder :=
  ⟨some (Session.start id 0 ending), held, 0, [startEntry id 0]⟩

/-- Tells a held job to end. -/
def Holder.release (h : Holder) (status : Int) : Reply × Holder :=
  (.truth h.held,
    { h with
      held := false
      session := if h.held then h.session.map (·.endAt h.clock (.exited status)) else h.session })

/-- Waits for the session, at most for `patience`. A result that was taken before cannot be waited
for. -/
def Holder.join (patience : Nat) (h : Holder) (s : Session) : Option (Reply × Holder) :=
  if s.collected then none
  else
    match (s.joinedAt h.clock).filter (·.1 ≤ h.clock + patience) with
    | some (t, ending) =>
      some (.result (resultOf s.id ending),
        { h with session := none, clock := t, log := h.log ++ joinLog s.id t ending })
    | none => some (.blocked, { h with session := none, clock := h.clock + patience })

/-- Asks for the result. -/
def Holder.status (h : Holder) (s : Session) : Option (Reply × Holder) :=
  match s.inquire h.clock with
  | (.running, s) => some (.running, { h with session := some s })
  | (.ended result, s) => some (.result result, { h with session := some s })
  | (.spent, _) => none

/-- Does something with the session. -/
def Holder.ask (patience : Nat) (h : Holder) (s : Session) : Call → Option (Reply × Holder)
  | .id => some (.name s.id, h)
  | .finished => some (.truth (s.finishedBy h.clock), h)
  | .uptime => some (.time (s.uptime h.clock), h)
  | .describe => some (.state s.id (s.finishedBy h.clock), h)
  | .status => h.status s
  | .join => h.join patience s
  | .advance _ | .release _ => some (.done, h)

/-- Does something; `none` if a result is asked for that was taken before. -/
def Holder.perform (patience : Nat) (h : Holder) : Call → Option (Reply × Holder)
  | .advance ms => some (.done, { h with clock := h.clock + ms })
  | .release status => some (h.release status)
  | call =>
    match h.session with
    | none => some (.gone, h)
    | some s => h.ask patience s call

end StreamServer.Session
