/-
The first word of a data stream: the client's flags, sent by the client and
read by the server.
-/
import StreamServer.Error
import StreamServer.Flags
import StreamServer.Stream

namespace StreamServer.Greeting

/-- How reading the flags ends. -/
inductive Outcome where
  | flags (time : Instant) (flags : Flags) (stream : Stream)
  | failed (time : Instant) (error : ProtocolError)
  | never
deriving DecidableEq, Repr

/-- The flags that four bytes stand for. -/
def flagsOf (data : List UInt8) : Flags :=
  match Word.take? data with
  | some (w, _) => ⟨w⟩
  | none => .empty

/-- What came of reading the four bytes of `stream`. -/
def outcome (stream : Stream) : Exact → Outcome
  | .complete t data rest => .flags t (flagsOf data) { stream with arrivals := rest }
  | .ended t _ => .failed t (.io "early eof")
  | .fault t reason _ => .failed t (.io reason)
  | .never _ => .never

/-- Reads the flags of a stream and nothing beyond them. -/
def read (stream : Stream) (now : Instant) : Outcome :=
  outcome stream (readExact Word.size now [] stream.arrivals)

/-- The reason of a failed write of flags. -/
def faultText (fault : WriteFault) : String := fault.text "write zero"

/-- Sends the flags. -/
def send (flags : Flags) (stream : Stream) (now : Instant) : Sent × Stream :=
  let (sent, outlet) := stream.outlet.send now flags.encode
  (sent, { stream with outlet := outlet })

end StreamServer.Greeting
