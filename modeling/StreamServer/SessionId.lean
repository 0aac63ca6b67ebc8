/-
Session numbers. They count up through 64 bits and start again at zero.
-/
namespace StreamServer

/-- The number of a session. -/
structure SessionId where
  number : UInt64
deriving DecidableEq, Repr

namespace SessionId

/-- The number after this one. -/
def next (id : SessionId) : SessionId := ⟨id.number + 1⟩

/-- The session as messages name it. -/
def text (id : SessionId) : String := "session-" ++ toString id.number.toNat

end SessionId

end StreamServer
