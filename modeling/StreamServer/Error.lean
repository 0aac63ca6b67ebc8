/-
What can go wrong, as causes. Every kind of error has a message and the list
of the messages of its causes, the nearest cause first. The reason the system
gives for a failure is a text.
-/
import StreamServer.Duration
import StreamServer.Mode
import StreamServer.SessionId
import StreamServer.Word

namespace StreamServer

/-- Failures in the exchange of words. -/
inductive ProtocolError where
  /-- The stream ended within a word. -/
  | truncated (received : Nat)
  /-- The peer named a port that is none. -/
  | invalidPort (word : Word)
  /-- Reading or writing failed. -/
  | io (reason : String)
deriving DecidableEq, Repr

namespace ProtocolError

def message : ProtocolError → String
  | .truncated n => "Stream closed after " ++ toString n ++ " of 4 bytes"
  | .invalidPort w => "Invalid data port " ++ toString w.toNat
  | .io reason => "I/O error: " ++ reason

def causes : ProtocolError → List String
  | .io reason => [reason]
  | _ => []

end ProtocolError

/-- Failures of a control connection. -/
inductive ConnectionError where
  /-- The peer could not be reached. -/
  | dial (target reason : String)
  /-- The data port could not be negotiated. -/
  | handshake (cause : ProtocolError)
  /-- The peer closed the connection. -/
  | closed
  /-- A command could not be written. -/
  | send (command : String) (cause : ProtocolError)
  /-- The next word could not be read. -/
  | receive (cause : ProtocolError)
  /-- The peer gave no sign of life. -/
  | pingTimeout (waited : Duration)
deriving DecidableEq, Repr

namespace ConnectionError

def message : ConnectionError → String
  | .dial target reason => "Failed to connect to " ++ target ++ ": " ++ reason
  | .handshake e => "START handshake failed: " ++ e.message
  | .closed => "Control connection closed by peer"
  | .send command e => "Failed to send " ++ command ++ ": " ++ e.message
  | .receive e => "Failed to read control command: " ++ e.message
  | .pingTimeout waited => "PING unanswered for " ++ waited.text

def causes : ConnectionError → List String
  | .dial _ reason => [reason]
  | .handshake e | .send _ e | .receive e => e.message :: e.causes
  | .closed | .pingTimeout _ => []

end ConnectionError

/-- Failures of a session. -/
inductive SessionError where
  /-- The worker did not take the stream. -/
  | create (reason : String)
  /-- As many sessions run as are allowed. -/
  | limitReached (limit : UInt32)
  /-- The session ended without an exit status. -/
  | aborted (id : SessionId)
deriving DecidableEq, Repr

namespace SessionError

def message : SessionError → String
  | .create reason => "Failed to create session: " ++ reason
  | .limitReached limit => "Session limit of " ++ toString limit.toNat ++ " reached"
  | .aborted id => id.text ++ " terminated abnormally"

def causes : SessionError → List String := fun _ => []

end SessionError

/-- Why a text is no configuration. -/
inductive TextFault where
  /-- It is not TOML. -/
  | grammar
  /-- The mode is neither a name nor a table in place of one. -/
  | modeForm
  /-- A setting cannot take its value; what is told about it. -/
  | value (reason : String)
deriving DecidableEq, Repr

def TextFault.text : TextFault → String
  | .grammar => "invalid TOML"
  | .modeForm => "invalid mode"
  | .value reason => reason

/-- Failures of the configuration. -/
inductive ConfigError where
  | notFound (path : String)
  | invalid (reason : String)
  /-- The text is no configuration. -/
  | parse (fault : TextFault)
  | serialize (reason : String)
  | missingField (name : String)
deriving DecidableEq, Repr

namespace ConfigError

def message : ConfigError → String
  | .notFound path => "Config file not found: " ++ path
  | .invalid reason => "Invalid config: " ++ reason
  | .parse fault => "TOML parse error: " ++ fault.text
  | .serialize reason => "TOML serialize error: " ++ reason
  | .missingField name => "Missing required field: " ++ name

def causes : ConfigError → List String
  | .parse fault => [fault.text]
  | .serialize reason => [reason]
  | _ => []

end ConfigError

/-- Failures of the server as a whole. -/
inductive ServerError where
  | protocol (cause : ProtocolError)
  | connection (cause : ConnectionError)
  | session (cause : SessionError)
  | config (cause : ConfigError)
  /-- The operation makes no sense in the configured mode. -/
  | wrongMode (operation : String) (mode : Mode)
  /-- The address clients need does not fit where it is to be stored. -/
  | addressTooLong (address : String) (length capacity : Nat)
  | io (reason : String)
deriving DecidableEq, Repr

namespace ServerError

def message : ServerError → String
  | .protocol e => "Protocol error: " ++ e.message
  | .connection e => "Connection error: " ++ e.message
  | .session e => "Session error: " ++ e.message
  | .config e => "Configuration error: " ++ e.message
  | .wrongMode operation mode => "Cannot " ++ operation ++ " in " ++ mode.text ++ " mode"
  | .addressTooLong address length capacity =>
    "Address '" ++ address ++ "' is " ++ toString length ++ " bytes, capacity is "
      ++ toString capacity
  | .io reason => "I/O error: " ++ reason

def causes : ServerError → List String
  | .protocol e => e.message :: e.causes
  | .connection e => e.message :: e.causes
  | .session e => e.message :: e.causes
  | .config e => e.message :: e.causes
  | .wrongMode .. | .addressTooLong .. => []
  | .io reason => [reason]

end ServerError

end StreamServer
