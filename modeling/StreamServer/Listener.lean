/-
Setting a server up: what is checked before it runs, and where clients find
it.
-/
import StreamServer.Config
import StreamServer.Network

namespace StreamServer.Listener

/-- The endpoint a configuration asks to listen at. -/
def endpoint (c : Config) : Except ServerError Endpoint :=
  match c.mode with
  | .localListen => .ok (.named c.localName)
  | .tcpListen => .ok (.tcp c.bindAddress)
  | .tcpReverse => .error (.wrongMode "listen" c.mode)

/-- Listens where the configuration says. -/
def bind (n : Network) (c : Config) : Except ServerError (Endpoint × Network) := do
  (n.bind (← endpoint c)).mapError .io

/-- Checks that the address fits where it is to be stored. -/
def checkLength (c : Config) (e : Endpoint) : Except ServerError Unit :=
  let length := e.address.utf8ByteSize
  if c.addressCapacity.toNat < length then
    .error (.addressTooLong e.address length c.addressCapacity.toNat)
  else .ok ()

/-- Sets up a server that clients come to. -/
def setUp (n : Network) (c : Config) : Except ServerError (Endpoint × Network) := do
  if !c.mode.isListening then throw (.wrongMode "listen" c.mode)
  c.validate.mapError .config
  let (e, n) ← bind n c
  checkLength c e
  return (e, n)

/-- Sets up a server that dials its peer. -/
def setUpReverse (c : Config) : Except ServerError Unit := do
  if c.mode ≠ .tcpReverse then throw (.wrongMode "dial out" c.mode)
  c.validate.mapError .config

end StreamServer.Listener
