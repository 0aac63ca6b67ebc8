/-
Numbers in TOML: integers in four bases with underscores between digits, and
floats with a fraction or an exponent.
-/
import StreamServer.Value

namespace StreamServer.Toml

/-- Decimal value of a character that is a digit in base 16. -/
def digitValue (c : Char) : Nat :=
  if c.isDigit then c.toNat - '0'.toNat
  else if 'a' ≤ c ∧ c ≤ 'f' then c.toNat - 'a'.toNat + 10
  else c.toNat - 'A'.toNat + 10

def isHexDigit (c : Char) : Bool :=
  c.isDigit || ('a' ≤ c && c ≤ 'f') || ('A' ≤ c && c ≤ 'F')

def isOctDigit (c : Char) : Bool := '0' ≤ c && c ≤ '7'

def isBinDigit (c : Char) : Bool := c == '0' || c == '1'

/-- The number that digits stand for. -/
def ofDigits (base : Nat) (ds : List Char) : Nat :=
  ds.foldl (fun n c => n * base + digitValue c) 0

/-- The rest of a run of digits, where an underscore may stand before a digit; the underscores are
left out. -/
def digitTail (isDigit : Char → Bool) : List Char → List Char × List Char
  | [] => ([], [])
  | c :: cs =>
    if isDigit c then
      let (ds, rest) := digitTail isDigit cs
      (c :: ds, rest)
    else match c, cs with
      | '_', d :: cs' =>
        if isDigit d then
          let (ds, rest) := digitTail isDigit cs'
          (d :: ds, rest)
        else ([], c :: cs)
      | _, _ => ([], c :: cs)

/-- A run of digits. -/
def digitRun? (isDigit : Char → Bool) : List Char → Option (List Char × List Char)
  | [] => none
  | c :: cs =>
    if isDigit c then
      let (ds, rest) := digitTail isDigit cs
      some (c :: ds, rest)
    else none

/-- Digits of a decimal number, without zeros in front. -/
def wholePart? (cs : List Char) : Option (List Char × List Char) :=
  match digitRun? Char.isDigit cs with
  | some (ds, rest) => if ds.head? = some '0' ∧ 1 < ds.length then none else some (ds, rest)
  | none => none

/-- An integer has to fit in 64 bits with a sign. -/
def integer? (n : Int) : Option Value :=
  if -Int.pow 2 63 ≤ n ∧ n < Int.pow 2 63 then some (.integer n) else none

/-- A whole token in a base other than ten. -/
def based? (base : Nat) (isDigit : Char → Bool) (cs : List Char) : Option Value :=
  match digitRun? isDigit cs with
  | some (ds, []) => integer? (Int.ofNat (ofDigits base ds))
  | _ => none

/-- An exponent: its sign and digits up to the end of the token. -/
def exponent? (cs : List Char) : Option Int :=
  let (negative, cs) := match cs with
    | '-' :: r => (true, r)
    | '+' :: r => (false, r)
    | r => (false, r)
  match digitRun? Char.isDigit cs with
  | some (ds, []) =>
    let n := Int.ofNat (ofDigits 10 ds)
    some (if negative then -n else n)
  | _ => none

/-- A float must not be too large. -/
def float? (x : Binary64) : Option Value :=
  if x = .infinite false then none else some (.float x)

/-- A float from the digits before and after the point and an exponent. -/
def scaled? (negative : Bool) (whole fraction : List Char) (exponent : Int) : Option Value :=
  float? (.ofDecimal negative (ofDigits 10 (whole ++ fraction)) (exponent - fraction.length))

/-- What follows the whole part of a decimal number, up to the end of the token. -/
def decimalRest? (negative : Bool) (whole : List Char) : List Char → Option Value
  | [] =>
    let n := Int.ofNat (ofDigits 10 whole)
    integer? (if negative then -n else n)
  | '.' :: cs =>
    match digitRun? Char.isDigit cs with
    | some (fraction, []) => scaled? negative whole fraction 0
    | some (fraction, c :: cs) =>
      if c = 'e' ∨ c = 'E' then (exponent? cs).bind (scaled? negative whole fraction) else none
    | none => none
  | c :: cs => if c = 'e' ∨ c = 'E' then (exponent? cs).bind (scaled? negative whole []) else none

/-- A decimal number or a special float after its sign. -/
def unsigned? (negative : Bool) (cs : List Char) : Option Value :=
  match cs with
  | ['i', 'n', 'f'] => some (.float (.infinite negative))
  | ['n', 'a', 'n'] => some (.float .nan)
  | cs => (wholePart? cs).bind fun (ds, rest) => decimalRest? negative ds rest

/-- A whole token as a number. -/
def number? : List Char → Option Value
  | '0' :: 'x' :: cs => based? 16 isHexDigit cs
  | '0' :: 'o' :: cs => based? 8 isOctDigit cs
  | '0' :: 'b' :: cs => based? 2 isBinDigit cs
  | '-' :: cs => unsigned? true cs
  | '+' :: cs => unsigned? false cs
  | cs => unsigned? false cs

end StreamServer.Toml
