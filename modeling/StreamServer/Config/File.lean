/-
A configuration as the text of a file.
-/
import StreamServer.Config.Fields
import StreamServer.Toml.Reader
import StreamServer.Toml.Writer

namespace StreamServer.Config

/-- The configuration a text gives. -/
def parse (text : String) : Except ConfigError Config :=
  match Toml.read? text with
  | none => .error (.parse .grammar)
  | some es =>
    match ofEntries es with
    | .ok c => .ok c
    | .error e => .error (.parse e.fault)

/-- A duration as a written number of seconds. -/
def writeDuration (d : Duration) : Option String :=
  match Seconds.ofDuration d with
  | .whole n => Toml.writeNat? n
  | .float x => some (Toml.writeFloat x)

/-- The lines of a file, one for each setting that is set; `none` if a number is too large. -/
def lines (c : Config) : Option (List String) := do
  let retryDelay ← writeDuration c.retryDelay
  let pingTimeout ← writeDuration c.pingTimeout
  let connectTimeout ← writeDuration c.connectTimeout
  let addressCapacity ← Toml.writeNat? c.addressCapacity.toNat
  return [Toml.line "mode" (Toml.writeString c.mode.text),
      Toml.line "local_name" (Toml.writeString c.localName),
      Toml.line "bind_address" (Toml.writeString c.bindAddress)]
    ++ (c.remoteHost.map fun host => Toml.line "remote_host" (Toml.writeString host)).toList
    ++ [Toml.line "remote_port" (toString c.remotePort.toNat),
      Toml.line "retry_delay" retryDelay,
      Toml.line "ping_timeout" pingTimeout,
      Toml.line "connect_timeout" connectTimeout]
    ++ (c.maxSessions.map fun n => Toml.line "max_sessions" (toString n.toNat)).toList
    ++ [Toml.line "address_capacity" addressCapacity]

/-- The text of a configuration. -/
def render (c : Config) : Except ConfigError String :=
  match c.lines with
  | some ls => .ok (String.join ls)
  | none => .error (.serialize "out-of-range value for u64 type")

end StreamServer.Config
