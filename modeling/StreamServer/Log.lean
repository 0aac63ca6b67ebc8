/-
What a server says about itself while it runs.
-/
import StreamServer.Clock

namespace StreamServer

namespace Log

/-- How much a message matters, from least to most. -/
inductive Level where
  | trace
  | debug
  | info
  | warn
  | error
deriving DecidableEq, Repr

def Level.text : Level → String
  | .trace => "TRACE"
  | .debug => "DEBUG"
  | .info => "INFO"
  | .warn => "WARN"
  | .error => "ERROR"

/-- A message and when it was written. -/
structure Entry where
  time : Instant
  level : Level
  message : String
deriving DecidableEq, Repr

/-- The line that is written. -/
def Entry.line (e : Entry) : String := e.level.text ++ " " ++ e.message

end Log

/-- Messages in the order they were written. -/
abbrev Log := List Log.Entry

namespace Log

def trace (t : Instant) (message : String) : Entry := ⟨t, .trace, message⟩
def debug (t : Instant) (message : String) : Entry := ⟨t, .debug, message⟩
def info (t : Instant) (message : String) : Entry := ⟨t, .info, message⟩
def warn (t : Instant) (message : String) : Entry := ⟨t, .warn, message⟩
def error (t : Instant) (message : String) : Entry := ⟨t, .error, message⟩

/-- The messages written by a time. -/
def upTo (limit : Instant) (log : Log) : Log := log.filter (·.time ≤ limit)

/-- Earlier messages go first, and of those of one millisecond the lesser line. -/
def Entry.precedes (a b : Entry) : Bool :=
  a.time < b.time || (a.time == b.time && !(b.line < a.line))

/-- The messages as they are listed. -/
def listed (log : Log) : Log := log.mergeSort Entry.precedes

end Log

end StreamServer
