/-
The configuration of a server: ten settings with defaults, and what makes
them usable together.
-/
import StreamServer.Error

namespace StreamServer

/-- The settings of a server. -/
structure Config where
  mode : Mode := .tcpListen
  /-- Name of the socket for clients of this machine. -/
  localName : String := "render-server"
  /-- TCP address for clients. -/
  bindAddress : String := "127.0.0.1:22468"
  /-- Host of the peer that is dialled. -/
  remoteHost : Option String := none
  /-- Control port of that peer. -/
  remotePort : UInt16 := 22468
  /-- Pause before the peer is dialled again. -/
  retryDelay : Duration := .ofSecs 5
  /-- Silence after which a ping is due, and which it may stay unanswered. -/
  pingTimeout : Duration := .ofSecs 5
  /-- Time a dialled connection may take. -/
  connectTimeout : Duration := .ofSecs 30
  /-- Sessions that may run at once. -/
  maxSessions : Option UInt32 := none
  /-- Bytes there are to store the server's address. -/
  addressCapacity : UInt64 := 256
deriving DecidableEq, Repr

namespace Config

/-- The configuration when nothing is set. -/
def standard : Config := {}

/-- Host of the peer, empty if none is set. -/
def host (c : Config) : String := c.remoteHost.getD ""

/-- Where control connections are dialled. -/
def controlTarget (c : Config) : String := c.host ++ ":" ++ toString c.remotePort.toNat

/-- What the mode itself needs. -/
def validateMode (c : Config) : Except ConfigError Unit :=
  match c.mode with
  | .localListen => if c.localName = "" then .error (.missingField "local_name") else .ok ()
  | .tcpListen => if c.bindAddress = "" then .error (.missingField "bind_address") else .ok ()
  | .tcpReverse =>
    if c.host = "" then .error (.missingField "remote_host")
    else if c.remotePort = 0 then .error (.invalid "remote_port must not be 0")
    else .ok ()

/-- The first thing that makes the configuration unusable, if there is one. -/
def validate (c : Config) : Except ConfigError Unit := do
  c.validateMode
  if c.retryDelay.nanos = 0 then .error (.invalid "retry_delay must be positive")
  else if c.pingTimeout.nanos = 0 then .error (.invalid "ping_timeout must be positive")
  else if c.maxSessions = some 0 then .error (.invalid "max_sessions must be at least 1")
  else .ok ()

end Config

end StreamServer
