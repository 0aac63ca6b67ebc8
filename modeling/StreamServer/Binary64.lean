/-
Floating-point numbers of 64 bits, as exact values. Every finite one is a
whole number of the smallest positive one, `2 ^ -1074`, so its size is a
natural number of such units, and rounding is arithmetic on naturals.
-/
namespace StreamServer

/-- A floating-point number of 64 bits. -/
inductive Binary64 where
  /-- The value `± units / 2 ^ 1074`. -/
  | finite (negative : Bool) (units : Nat)
  | infinite (negative : Bool)
  | nan
deriving DecidableEq, Repr

namespace Binary64

/-- Units of the number one. -/
def one : Nat := Nat.pow 2 1074

/-- Units of the first size that is too large. -/
def overflow : Nat := Nat.pow 2 1024 * one

/-- `n / d` to the nearest whole number, a half to the even one. -/
def roundDiv (n d : Nat) : Nat :=
  let q := n / d
  let twice := 2 * (n % d)
  if twice < d ∨ twice = d ∧ q % 2 = 0 then q else q + 1

/-- `n / d` units to the nearest number with a significand of 53 bits, a half to the even one. -/
def roundUnits (n d : Nat) : Nat :=
  let shift := Nat.pow 2 ((n / d).log2 + 1 - 53)
  roundDiv n (d * shift) * shift

/-- The number nearest to `± n / d`. -/
def ofRatio (negative : Bool) (n d : Nat) : Binary64 :=
  let units := roundUnits (n * one) d
  if overflow ≤ units then .infinite negative else .finite negative units

/-- The number nearest to a natural number. -/
def ofNat (n : Nat) : Binary64 := ofRatio false n 1

/-- The number nearest to an integer. -/
def ofInt (n : Int) : Binary64 := ofRatio (n < 0) n.natAbs 1

/-- The number nearest to `± m * 10 ^ e`. Sizes far outside the range are settled by their number
of digits. -/
def ofDecimal (negative : Bool) (m : Nat) (e : Int) : Binary64 :=
  let digits : Int := (Nat.toDigits 10 m).length
  if m = 0 ∨ digits + e < -400 then .finite negative 0
  else if 400 < digits + e then .infinite negative
  else match e with
    | .ofNat k => ofRatio negative (m * Nat.pow 10 k) 1
    | .negSucc k => ofRatio negative m (Nat.pow 10 (k + 1))

def isFinite : Binary64 → Bool
  | .finite .. => true
  | _ => false

end Binary64

end StreamServer
