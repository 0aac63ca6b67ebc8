/-
The ways a server comes by its data streams.
-/
namespace StreamServer

/-- How a server comes by its data streams. -/
inductive Mode where
  /-- Accepts clients of this machine on a named socket. -/
  | localListen
  /-- Accepts clients on a TCP port. -/
  | tcpListen
  /-- Dials its peer and opens a data connection whenever the peer asks for one. -/
  | tcpReverse
deriving DecidableEq, Repr

namespace Mode

/-- The mode's full name, in messages and in configuration files. -/
def text : Mode → String
  | .localListen => "listen"
  | .tcpListen => "tcp-listen"
  | .tcpReverse => "tcp-reverse-client"

/-- Clients come to the server. -/
def isListening : Mode → Bool
  | .localListen | .tcpListen => true
  | .tcpReverse => false

/-- The mode with this full name. -/
def ofName? (name : String) : Option Mode :=
  if name = "listen" then some .localListen
  else if name = "tcp-listen" then some .tcpListen
  else if name = "tcp-reverse-client" then some .tcpReverse
  else none

/-- The mode with this full or short name, as the command line takes it. -/
def ofShortName? (name : String) : Option Mode :=
  if name = "local" then some .localListen
  else if name = "tcp" then some .tcpListen
  else if name = "reverse" then some .tcpReverse
  else ofName? name

/-- Why `name` is no mode. -/
def unknownText (name : String) : String :=
  "unknown mode '" ++ name ++ "', expected listen, tcp-listen or tcp-reverse-client"

theorem ofName?_text (m : Mode) : ofName? m.text = some m := by cases m <;> decide

end Mode

end StreamServer
