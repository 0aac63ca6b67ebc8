/-
The commands of the control channel. Five words have a meaning; every other
word is kept as it came, so that writing a command gives back the word it was
read from.
-/
import StreamServer.Word

namespace StreamServer

/-- A control command. -/
inductive Command where
  /-- The peer wants one more data connection. -/
  | new
  /-- The peer wants the server to stop at once. -/
  | stop
  /-- The server asks for the data port. -/
  | start
  /-- Asks the other side for a sign of life. -/
  | ping
  /-- Answers a ping. -/
  | pong
  /-- A word without a meaning of its own. -/
  | unknown (word : Word)
deriving DecidableEq, Repr

namespace Command

/-- The command a word stands for. -/
def ofWord (w : Word) : Command :=
  if w = 1 then .new
  else if w = 999 then .stop
  else if w = 1001 then .start
  else if w = 1002 then .ping
  else if w = 1003 then .pong
  else .unknown w

/-- The word that is written for a command. -/
def toWord : Command → Word
  | .new => 1
  | .stop => 999
  | .start => 1001
  | .ping => 1002
  | .pong => 1003
  | .unknown w => w

/-- The command as messages name it. -/
def text : Command → String
  | .new => "NEW"
  | .stop => "STOP"
  | .start => "START"
  | .ping => "PING"
  | .pong => "PONG"
  | .unknown w => "UNKNOWN(" ++ toString w.toNat ++ ")"

/-- The bytes that are written for a command. -/
def encode (c : Command) : List UInt8 := Word.encode c.toWord

end Command

end StreamServer
