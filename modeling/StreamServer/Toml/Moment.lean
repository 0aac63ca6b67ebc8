/-
Dates and times in TOML. Only their form and the ranges of their parts
matter here: a moment is no value of any setting.
-/
import StreamServer.Toml.Number

namespace StreamServer.Toml

/-- Exactly `n` decimal digits, as a number. -/
def fixedDigits? (n : Nat) (cs : List Char) : Option (Nat × List Char) :=
  let ds := cs.take n
  if ds.length = n ∧ ds.all Char.isDigit then some (ofDigits 10 ds, cs.drop n) else none

/-- Two digits with a value up to `top`. -/
def twoDigits? (top : Nat) (cs : List Char) : Option (Nat × List Char) :=
  (fixedDigits? 2 cs).bind fun (n, rest) => if n ≤ top then some (n, rest) else none

def expect? (c : Char) : List Char → Option (List Char)
  | d :: cs => if d = c then some cs else none
  | [] => none

def isLeapYear (year : Nat) : Bool := year % 4 = 0 && (year % 100 ≠ 0 || year % 400 = 0)

def daysOf (year month : Nat) : Nat :=
  if month = 2 then (if isLeapYear year then 29 else 28)
  else if month = 4 ∨ month = 6 ∨ month = 9 ∨ month = 11 then 30 else 31

/-- A calendar date; what follows it. -/
def date? (cs : List Char) : Option (List Char) := do
  let (year, cs) ← fixedDigits? 4 cs
  let cs ← expect? '-' cs
  let (month, cs) ← twoDigits? 12 cs
  let cs ← expect? '-' cs
  let (day, cs) ← twoDigits? 31 cs
  if 1 ≤ month ∧ 1 ≤ day ∧ day ≤ daysOf year month then some cs else none

/-- A time of day; what follows it. -/
def time? (cs : List Char) : Option (List Char) := do
  let (_, cs) ← twoDigits? 23 cs
  let cs ← expect? ':' cs
  let (_, cs) ← twoDigits? 59 cs
  let cs ← expect? ':' cs
  let (_, cs) ← twoDigits? 60 cs
  match cs with
  | '.' :: rest =>
    if (rest.head?.map Char.isDigit).getD false then some (rest.dropWhile Char.isDigit) else none
  | _ => some cs

/-- An offset from universal time, up to the end of the token. -/
def isOffset : List Char → Bool
  | [] => true
  | ['Z'] | ['z'] => true
  | c :: cs =>
    (c = '+' || c = '-') &&
      ((twoDigits? 23 cs).bind fun (_, cs) => (expect? ':' cs).bind fun cs =>
        (twoDigits? 59 cs).map fun (_, cs) => cs.isEmpty).getD false

/-- A time of day with an optional offset, up to the end of the token. -/
def isTimeWithOffset (cs : List Char) : Bool := ((time? cs).map isOffset).getD false

/-- A whole token as a date, a time or both. -/
def moment? (cs : List Char) : Option Value :=
  match date? cs with
  | some [] => some .moment
  | some (c :: rest) =>
    if (c = 'T' ∨ c = 't' ∨ c = ' ') ∧ isTimeWithOffset rest then some .moment else none
  | none => if time? cs = some [] then some .moment else none

end StreamServer.Toml
