/-
Clients of a listening server, seen from outside: they come, send, and hang
up one thing at a time, and the server has settled before the next.
-/
import StreamServer.Supervisor.Run

namespace StreamServer.Supervisor

/-- What clients do. -/
inductive Act where
  /-- A client comes and sends its flags. -/
  | connect (name : String) (flags : Flags)
  /-- Somebody comes, sends bytes and hangs up. -/
  | raw (data : List UInt8)
  /-- A client sends bytes and takes what comes back. -/
  | echo (name : String) (data : List UInt8)
  /-- A client takes what comes until the server hangs up. -/
  | finish (name : String)
  /-- A client hangs up. -/
  | leave (name : String)
  /-- Somebody asks the server to exit. -/
  | shutdown
deriving DecidableEq, Repr

/-- What is seen of it. -/
inductive Sight where
  /-- What the server tells next, if it tells anything. -/
  | event (e : Option Event)
  | done
  | bytes (data : List UInt8)
  /-- The session has ended. -/
  | finished
deriving DecidableEq, Repr

/-- A client: when it comes and what it sends from then on. -/
structure Visit where
  name : String
  came : Instant
  arrivals : List Arrival
deriving DecidableEq, Repr

/-- What a client that came at `came` sends by an act at `now`. -/
def Act.sends? (name : String) (came now : Instant) : Act → Option Arrival
  | .echo n data => if n = name then some ⟨now - came, .bytes data⟩ else none
  | .leave n => if n = name then some ⟨now - came, .ended⟩ else none
  | _ => none

/-- The clients of acts a millisecond apart, the first at `now`. All hang up at the end. -/
def visits : Instant → List Act → List Visit
  | _, [] => []
  | now, act :: later =>
    let rest := visits (now + 1) later
    match act with
    | .connect name flags =>
      let sent := (later.zip (List.range' (now + 1) later.length)).filterMap fun (act, t) =>
        act.sends? name now t
      ⟨name, now, ⟨0, .bytes flags.encode⟩ :: sent ++ [⟨later.length + 1, .ended⟩]⟩ :: rest
    | .raw data => ⟨"", now, [⟨0, .bytes data⟩, ⟨0, .ended⟩]⟩ :: rest
    | .shutdown => ⟨"", now, [⟨0, .bytes Flags.exit.encode⟩, ⟨0, .ended⟩]⟩ :: rest
    | .echo .. | .finish _ | .leave _ => rest

/-- How long each client keeps a server waiting that has been waiting since `since`. -/
def openings : Instant → List Visit → List Opening
  | _, [] => []
  | since, v :: vs => .opens (v.came - since) ⟨v.arrivals, [], none⟩ :: openings v.came vs

/-- What a client got back at a time. -/
def returned (vs : List Visit) (s : Supervisor) (name : String) (t : Instant) : List UInt8 :=
  match vs.findIdx? (·.name = name) with
  | some i =>
    ((s.transcripts.filter (·.serial = i)).flatMap (·.writes)).flatMap fun (u, data) =>
      if u = t then data else []
  | none => []

/-- What is seen of the acts, the first at `now`, when the server tells these events in turn. -/
def sights (back : String → Instant → List UInt8) : Instant → List Event → List Act → List Sight
  | _, _, [] => []
  | now, events, act :: later =>
    match act with
    | .connect .. | .shutdown => .event events.head? :: sights back (now + 1) events.tail later
    | .raw _ => .done :: sights back (now + 1) events later
    | .leave _ => .finished :: sights back (now + 1) events later
    | .echo name _ | .finish name => .bytes (back name now) :: sights back (now + 1) events later

/-- A server that sends everything back, and clients that do these acts. -/
def attend (c : Config) (acts : List Act) : List Sight × Supervisor :=
  let w : World := { config := c, worker := .ofPlans [] }
  let vs := visits 1 acts
  let s := (start w ⟨[], .hangs⟩ ⟨openings 0 vs, .hangs⟩ none).observe w (acts.length + 2)
  (sights (returned vs s) 1 (s.record.events.map (·.2)) acts, s)

end StreamServer.Supervisor
