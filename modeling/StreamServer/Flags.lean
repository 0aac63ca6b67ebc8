/-
Client flags: the word a client sends first on a data stream. Bit 0 asks the
server to exit; the other bits are free.
-/
import StreamServer.Word

namespace StreamServer

/-- The flags of a data stream, one bit each. -/
structure Flags where
  bits : Word
deriving DecidableEq, Repr

namespace Flags

/-- No flag is set. -/
def empty : Flags := ⟨0⟩

/-- The flag that asks the server to exit. -/
def exit : Flags := ⟨1⟩

/-- Every flag of `b` is set in `a`. -/
def contains (a b : Flags) : Bool := a.bits &&& b.bits == b.bits

/-- The client asks the server to exit. -/
def requestsExit (f : Flags) : Bool := f.contains exit

/-- The bytes a client sends for its flags. -/
def encode (f : Flags) : List UInt8 := Word.encode f.bits

end Flags

end StreamServer
