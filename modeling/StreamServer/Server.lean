/-
A server that has been set up and does not run yet. Where its streams come
from can still be replaced, and somebody can ask to be told of its events.
-/
import StreamServer.Listener
import StreamServer.Supervisor.Run

namespace StreamServer

/-- A server before it runs. -/
structure Server where
  config : Config
  /-- What happens when it accepts; `none` if it has nothing to accept on. -/
  listener : Option Openings
  /-- What happens when it dials. -/
  dialer : Openings
  /-- The mailbox of the latest subscriber, if there is one. -/
  mailbox : Option Supervisor.Mailbox

namespace Server

/-- Sets up a server that clients come to. The result says where they find it. -/
def listen (n : Network) (c : Config) (accepts dials : Openings) :
    Except ServerError (Server × Endpoint × Network) :=
  match Listener.setUp n c with
  | .ok (e, n) => .ok (⟨c, some accepts, dials, none⟩, e, n)
  | .error e => .error e

/-- Sets up a server that dials its peer. -/
def reverse (c : Config) (dials : Openings) : Except ServerError Server :=
  match Listener.setUpReverse c with
  | .ok _ => .ok ⟨c, none, dials, none⟩
  | .error e => .error e

/-- Dials in another way. -/
def withDialer (s : Server) (dials : Openings) : Server := { s with dialer := dials }

/-- Accepts in another way. A server that dials its peer never accepts and stays as it is. -/
def withListener (s : Server) (accepts : Openings) : Server :=
  if s.config.mode.isListening then { s with listener := some accepts } else s

/-- Tells a subscriber of its events from now on, and nobody else. -/
def subscribe (s : Server) (habit : Nat → Supervisor.Move) : Server :=
  { s with mailbox := some { habit := habit } }

/-- What stays the same while the server runs on a host. -/
def world (s : Server) (host : Supervisor.Host) : Supervisor.World := { host with config := s.config }

/-- Begins to run. A server that clients come to needs something to accept on. -/
def begin (s : Server) (host : Supervisor.Host) : Except ServerError Supervisor :=
  let w := s.world host
  if s.config.mode.isListening then
    match s.listener with
    | some accepts => .ok (.start w s.dialer accepts s.mailbox)
    | none => .error (.wrongMode "accept without a listener" s.config.mode)
  else .ok (.start w s.dialer ⟨[], .hangs⟩ s.mailbox)

end Server

end StreamServer
