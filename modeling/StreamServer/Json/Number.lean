/-
JSON as values. A number without fraction and exponent that fits 64 bits is
an integer. Any other is rounded in two steps: its digits are taken while they
fit 64 bits, before the point and again after it, rounded, and scaled by a
rounded power of ten. One that is too large after that is out of range.
-/
import StreamServer.Json
import StreamServer.Value

namespace StreamServer.Json

/-- A written number, taken apart. -/
structure Parts where
  negative : Bool
  whole : List Char
  fraction : List Char
  exponent : Int

/-- Takes a number apart. -/
def parts (cs : List Char) : Parts :=
  let negative := cs.head? = some '-'
  let cs := if negative then cs.drop 1 else cs
  let rest := cs.dropWhile Char.isDigit
  let fraction := match rest with
    | '.' :: cs => cs.takeWhile Char.isDigit
    | _ => []
  let rest := match rest with
    | '.' :: cs => cs.dropWhile Char.isDigit
    | cs => cs
  let exponent := match rest with
    | _ :: cs => ((String.ofList (cs.filter (· ≠ '+'))).toInt?).getD 0
    | [] => 0
  ⟨negative, cs.takeWhile Char.isDigit, fraction, exponent⟩

/-- The leading digits that fit 64 bits. -/
structure Leading where
  significand : Nat := 0
  exponent : Int := 0
  /-- No more digits are taken. -/
  full : Bool := false

/-- Takes one more digit of the whole part or of the fraction. -/
def Leading.push (l : Leading) (inFraction : Bool) (c : Char) : Leading :=
  let next := l.significand * 10 + Toml.digitValue c
  if l.full ∨ UInt64.size ≤ next then
    { l with full := true, exponent := if inFraction then l.exponent else l.exponent + 1 }
  else { l with significand := next, exponent := if inFraction then l.exponent - 1 else l.exponent }

/-- A power of ten, rounded, in units. -/
def power (k : Nat) : Nat := Binary64.roundUnits (Nat.pow 10 k * Binary64.one) 1

/-- A number of units divided by a power of ten, rounded. -/
def divide (units k : Nat) : Nat := Binary64.roundUnits (units * Binary64.one) (power k)

/-- The units of a finite number. -/
def finite? (units : Nat) : Option Nat := if Binary64.overflow ≤ units then none else some units

/-- Scales a number of units by a power of ten, in two steps if it is a very small one; `none` if that is
out of range. Zero stays zero, however large the power is. -/
def scale (units : Nat) (e : Int) : Option Nat :=
  if units = 0 then some 0
  else if 308 < e then none
  else if 0 ≤ e then finite? (Binary64.roundUnits (units * power e.toNat) Binary64.one)
  else if -308 ≤ e then some (divide units (-e).toNat)
  else if -616 ≤ e then some (divide (divide units 308) ((-e).toNat - 308))
  else some 0

/-- A number with a fraction, with an exponent or too large for an integer. -/
def float (text : String) : Option Binary64 :=
  let p := parts text.toList
  let whole := p.whole.foldl (Leading.push · false) {}
  let l := p.fraction.foldl (Leading.push · true) { whole with full := false }
  let significand := Binary64.roundUnits (l.significand * Binary64.one) 1
  (scale significand (l.exponent + p.exponent)).map (.finite p.negative)

/-- A number is written as a whole one. Minus zero is not, since no integer is. -/
def isWhole (text : String) : Bool :=
  text != "-0" && text.toList.all fun c => c != '.' && c != 'e' && c != 'E'

/-- A number as a value. -/
def numberValue (text : String) : Option Value :=
  match if isWhole text then text.toInt? else none with
  | some n =>
    if -Int.pow 2 63 ≤ n ∧ n < UInt64.size then some (.integer n) else (float text).map .float
  | none => (float text).map .float

mutual

/-- JSON as a value; `none` if a number is out of range. -/
def toValue : Json → Option Value
  | .null => some .null
  | .boolean b => some (.boolean b)
  | .number digits => numberValue digits
  | .text s => some (.text s)
  | .array items => (toValues items).map .array
  | .object fields => (toEntries fields).map (.table .object)

def toValues : List Json → Option (List Value)
  | [] => some []
  | v :: vs =>
    match v.toValue, toValues vs with
    | some v, some vs => some (v :: vs)
    | _, _ => none

/-- The fields of an object as entries. -/
def toEntries : List (String × Json) → Option Entries
  | [] => some []
  | (key, v) :: fields =>
    match v.toValue, toEntries fields with
    | some v, some es => some ((key, v) :: es)
    | _, _ => none

end

end StreamServer.Json
