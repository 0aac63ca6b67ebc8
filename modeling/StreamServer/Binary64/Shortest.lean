/-
The text of a floating-point number: the fewest decimal digits that read back
as the same number, written out without an exponent.

For one digit, then two, and so on, the two decimals next to the value are
tried; the first number of digits with a hit wins, and of two hits the nearer,
or the larger if the value lies in the middle.
-/
import StreamServer.Binary64

namespace StreamServer.Binary64

/-- The decimal `digits * 10 ^ exponent`. -/
structure Decimal where
  digits : Nat
  exponent : Int
deriving DecidableEq, Repr

namespace Decimal

/-- The value as a ratio of naturals. -/
def ratio (d : Decimal) : Nat × Nat :=
  match d.exponent with
  | .ofNat k => (d.digits * Nat.pow 10 k, 1)
  | .negSucc k => (d.digits, Nat.pow 10 (k + 1))

/-- Read as a number, the decimal is `units`. -/
def readsAs (d : Decimal) (units : Nat) : Bool :=
  let (n, m) := d.ratio
  roundUnits (n * one) m == units

/-- The distance from `units`, times a scale that depends on the exponent only. -/
def distance (d : Decimal) (units : Nat) : Nat :=
  let (n, m) := d.ratio
  (n * one - units * m) + (units * m - n * one)

end Decimal

/-- The least `k` with `units < 10 ^ k` ones. -/
def decimalExponent (units : Nat) : Int :=
  if one ≤ units then ((Nat.toDigits 10 (units / one)).length : Int)
  else
    let leading := (List.range 330).find? fun j => one ≤ units * Nat.pow 10 (j + 1)
    Int.negOfNat (leading.getD 330)

/-- The decimals with this exponent next to the value, the smaller first. -/
def neighbours (units : Nat) (exponent : Int) : Decimal × Decimal :=
  let below := match exponent with
    | .ofNat k => units / (one * Nat.pow 10 k)
    | .negSucc k => units * Nat.pow 10 (k + 1) / one
  (⟨below, exponent⟩, ⟨below + 1, exponent⟩)

/-- Whichever of two decimals reads back; of both the nearer, or the second if they are as near. -/
def nearer? (units : Nat) (a b : Decimal) : Option Decimal :=
  if a.readsAs units then
    if b.readsAs units ∧ b.distance units ≤ a.distance units then some b else some a
  else if b.readsAs units then some b
  else none

/-- The nearer of the neighbours that read back, if one does. -/
def hit? (units : Nat) (exponent : Int) : Option Decimal :=
  nearer? units (neighbours units exponent).1 (neighbours units exponent).2

/-- The shortest decimal that reads back as `units`. -/
def shortest (units : Nat) : Decimal :=
  let top := decimalExponent units
  let tries := (List.range 17).filterMap fun n => hit? units (top - 1 - Int.ofNat n)
  tries.headD ⟨0, 0⟩

/-- Digits with `places` of them after the point, zeros at the end dropped there. -/
def pointed (digits places : Nat) : String :=
  let ds := Nat.toDigits 10 digits
  let ds := List.replicate (places + 1 - ds.length) '0' ++ ds
  let whole := ds.take (ds.length - places)
  let rest := ((ds.drop (ds.length - places)).reverse.dropWhile (· == '0')).reverse
  if rest.isEmpty then String.ofList whole
  else String.ofList whole ++ "." ++ String.ofList rest

/-- The decimal without an exponent. -/
def Decimal.text (d : Decimal) : String :=
  match d.exponent with
  | .ofNat k => toString (d.digits * Nat.pow 10 k)
  | .negSucc k => pointed d.digits (k + 1)

/-- The size of a finite number. -/
def unitsText (units : Nat) : String :=
  if units = 0 then "0" else (shortest units).text

def signed (negative : Bool) (s : String) : String := if negative then "-" ++ s else s

/-- The number as text; a whole one has no point. -/
def text : Binary64 → String
  | .finite negative units => signed negative (unitsText units)
  | .infinite negative => signed negative "inf"
  | .nan => "NaN"

/-- The number as text, a whole one with `.0` after it. -/
def pointText (x : Binary64) : String :=
  let s := x.text
  if x.isFinite && !s.toList.contains '.' then s ++ ".0" else s

end StreamServer.Binary64
