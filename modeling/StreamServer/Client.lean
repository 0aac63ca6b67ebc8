/-
The client's side of a data stream: it connects and sends its flags, and what
follows is payload.
-/
import StreamServer.Flags
import StreamServer.Network

namespace StreamServer.Client

/-- Opens a data stream to a server. The result is what the server gets first. -/
def connect (n : Network) (e : Endpoint) (flags : Flags) : Except ServerError (List UInt8) :=
  match n.connect e with
  | .ok _ => .ok flags.encode
  | .error reason => .error (.io reason)

/-- Asks a server to take no more streams and to exit. -/
def requestShutdown (n : Network) (e : Endpoint) : Except ServerError (List UInt8) :=
  connect n e .exit

end StreamServer.Client
