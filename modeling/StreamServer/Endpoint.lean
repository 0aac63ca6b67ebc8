/-
Where clients find a listening server.
-/
import StreamServer.Error

namespace StreamServer

/-- Where clients find a listening server. -/
inductive Endpoint where
  /-- A named socket of this machine. -/
  | named (name : String)
  /-- A TCP address, `host:port`. -/
  | tcp (address : String)
deriving DecidableEq, Repr

namespace Endpoint

/-- The endpoint of a server that listens in `mode` at `address`. -/
def ofMode (mode : Mode) (address : String) : Except ServerError Endpoint :=
  match mode with
  | .localListen => .ok (.named address)
  | .tcpListen => .ok (.tcp address)
  | .tcpReverse => .error (.wrongMode "accept client connections" mode)

/-- What clients are told: the name or the TCP address. -/
def address : Endpoint → String
  | .named name => name
  | .tcp address => address

def text : Endpoint → String
  | .named name => "local:" ++ name
  | .tcp address => "tcp://" ++ address

end Endpoint

end StreamServer
