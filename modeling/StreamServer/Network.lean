/-
The sockets of a machine: who listens where, and why an address cannot be
listened at or connected to.
-/
import StreamServer.Duration
import StreamServer.Endpoint

namespace StreamServer

/-- The sockets of a machine. -/
structure Network where
  /-- TCP connections can be made at all. -/
  routed : Bool
  /-- The port the system picks when none is asked for. -/
  freePort : UInt16
  /-- Endpoints somebody listens at. -/
  taken : List Endpoint := []
  /-- TCP endpoints that do not answer. -/
  silent : List Endpoint := []
deriving DecidableEq, Repr

namespace Network

/-! ## Addresses -/

/-- Bytes a socket's name may have. -/
def nameCapacity : Nat := 107

/-- Checks the name of a socket. -/
def checkName (name : String) : Except String Unit :=
  if '\x00' ∈ name.toList then
    .error "interior nul bytes are not allowed inside Unix domain socket names"
  else if nameCapacity < name.utf8ByteSize then
    .error "local socket name length exceeds capacity of sun_path of sockaddr_un"
  else .ok ()

/-- The number some decimal digits stand for. -/
def decimal (digits : List Char) : Nat :=
  digits.foldl (fun n c => n * 10 + (c.toNat - '0'.toNat)) 0

/-- The port a text stands for: decimal digits, a plus sign before them is allowed. -/
def portOf? (text : List Char) : Option UInt16 :=
  let digits := match text with
    | '+' :: cs => cs
    | cs => cs
  if !digits.isEmpty ∧ digits.all Char.isDigit ∧ decimal digits < UInt16.size then
    some (.ofNat (decimal digits))
  else none

/-- The host and the port of a TCP address: what stands before and after its last colon. -/
def splitAddress (address : String) : Except String (String × UInt16) :=
  let backwards := address.toList.reverse
  if ':' ∈ backwards then
    match portOf? (backwards.takeWhile (· ≠ ':')).reverse with
    | some port => .ok (String.ofList ((backwards.dropWhile (· ≠ ':')).drop 1).reverse, port)
    | none => .error "invalid port value"
  else .error "invalid socket address"

/-- A host and a port as a TCP address. -/
def joinAddress (host : String) (port : UInt16) : String := host ++ ":" ++ toString port.toNat

/-- The endpoint as the system knows it, or why it is none. -/
def resolve : Endpoint → Except String Endpoint
  | .named name => (checkName name).map fun _ => .named name
  | .tcp address => (splitAddress address).map fun (host, port) => .tcp (joinAddress host port)

/-! ## Listening and connecting -/

/-- The endpoint with a free port in place of a missing one. -/
def withPort (n : Network) : Endpoint → Except String Endpoint
  | .named name => resolve (.named name)
  | .tcp address => (splitAddress address).map fun (host, port) =>
    .tcp (joinAddress host (if port = 0 then n.freePort else port))

/-- Listens at an endpoint. The result is the endpoint clients use. -/
def bind (n : Network) (e : Endpoint) : Except String (Endpoint × Network) := do
  let e ← n.withPort e
  if e ∈ n.taken then throw "Address already in use (os error 98)"
  return (e, { n with taken := n.taken ++ [e] })

/-- Nobody listens at the endpoint any more. -/
def free (n : Network) (e : Endpoint) : Network :=
  match resolve e with
  | .ok e => { n with taken := n.taken.erase e }
  | .error _ => n

/-- TCP connections need a way. -/
def checkRoute (n : Network) : Endpoint → Except String Unit
  | .named _ => .ok ()
  | .tcp _ => if n.routed then .ok () else .error "Network is unreachable (os error 101)"

/-- Connects to an endpoint. -/
def connect (n : Network) (e : Endpoint) : Except String Unit := do
  let e ← resolve e
  n.checkRoute e
  if e ∉ n.taken then throw "Connection refused (os error 111)"

/-- Connects to a TCP endpoint within a time. -/
def dial (n : Network) (host : String) (port : UInt16) (timeout : Duration) : Except String Unit :=
  let e := Endpoint.tcp (joinAddress host port)
  if n.routed ∧ e ∈ n.silent then .error ("connect timed out after " ++ timeout.text)
  else n.connect e

end Network

end StreamServer
