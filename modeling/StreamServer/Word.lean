/-
Control words. A word is a 32-bit number and stands on the wire as four
bytes, the least significant first.
-/
namespace StreamServer

/-- What the two sides of a control connection exchange. -/
abbrev Word := UInt32

namespace Word

/-- Bytes of one word on the wire. -/
def size : Nat := 4

/-- The four bytes of a word, the least significant first. -/
def encode (w : Word) : List UInt8 :=
  [w.toUInt8, (w >>> 8).toUInt8, (w >>> 16).toUInt8, (w >>> 24).toUInt8]

/-- The word whose bytes are `a`, `b`, `c`, `d`, the least significant first. -/
def ofBytes (a b c d : UInt8) : Word :=
  a.toUInt32 ||| (b.toUInt32 <<< 8) ||| (c.toUInt32 <<< 16) ||| (d.toUInt32 <<< 24)

/-- Splits the first word off; `none` while fewer than four bytes are there. -/
def take? : List UInt8 → Option (Word × List UInt8)
  | a :: b :: c :: d :: rest => some (ofBytes a b c d, rest)
  | _ => none

@[simp] theorem length_encode (w : Word) : (encode w).length = size := rfl

theorem take?_eq_none_iff {bs : List UInt8} : take? bs = none ↔ bs.length < size := by
  match bs with
  | [] | [_] | [_, _] | [_, _, _] => simp [take?, size]
  | _ :: _ :: _ :: _ :: _ => simp [take?, size]

end Word

end StreamServer
