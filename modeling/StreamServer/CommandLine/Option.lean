/-
Options of the command line: how they are written and which values they take.
-/
import StreamServer.Mode

namespace StreamServer.CommandLine

/-- What an option takes. -/
inductive Kind where
  /-- Nothing: it is given or not. -/
  | flag
  | text
  /-- A path, which is not empty. -/
  | path
  | mode
  /-- A number up to a greatest one. -/
  | number (most : Nat)
deriving DecidableEq, Repr

/-- An option: its long name, perhaps a letter, and what it takes. -/
structure OptionSpec where
  name : String
  letter : Option Char
  kind : Kind
deriving DecidableEq, Repr

/-- Why a text is no number. -/
inductive NumberFault where
  | empty
  | notDigit
  | tooLarge
  | tooSmall
deriving DecidableEq, Repr

def NumberFault.text : NumberFault → String
  | .empty => "cannot parse integer from empty string"
  | .notDigit => "invalid digit found in string"
  | .tooLarge => "number too large to fit in target type"
  | .tooSmall => "number too small to fit in target type"

/-- Reads digits one after the other onto a number of 64 bits with a sign. -/
def readDigits (negative : Bool) : Int → List Char → Except NumberFault Int
  | n, [] => .ok n
  | n, c :: cs =>
    if c.isDigit then
      let digit : Int := (c.toNat - '0'.toNat : Nat)
      let next := if negative then n * 10 - digit else n * 10 + digit
      if Int.pow 2 63 ≤ next then .error .tooLarge
      else if next < -Int.pow 2 63 then .error .tooSmall
      else readDigits negative next cs
    else .error .notDigit

/-- Reads a number of 64 bits with a sign. -/
def readNumber (text : String) : Except NumberFault Int :=
  match text.toList with
  | [] => .error .empty
  | ['+'] | ['-'] => .error .notDigit
  | '+' :: cs => readDigits false 0 cs
  | '-' :: cs => readDigits true 0 cs
  | cs => readDigits false 0 cs

/-- A usage error, with its text where the value of an option is at fault. -/
structure UsageError where
  text : Option String
deriving DecidableEq, Repr

/-- A usage error of any other kind. -/
def UsageError.plain : UsageError := ⟨none⟩

namespace OptionSpec

/-- Stands for the value in messages. -/
def placeholder (o : OptionSpec) : String :=
  o.name.map fun c => if c = '-' then '_' else c.toUpper

/-- Says why a value is not taken. -/
def refuse (o : OptionSpec) (value reason : String) : UsageError :=
  ⟨some ("error: invalid value '" ++ value ++ "' for '--" ++ o.name ++ " <" ++ o.placeholder
    ++ ">': " ++ reason)⟩

/-- Checks a value. -/
def check (o : OptionSpec) (value : String) : Except UsageError Unit :=
  match o.kind with
  | .flag | .text => .ok ()
  | .path => if value = "" then .error .plain else .ok ()
  | .mode =>
    match Mode.ofShortName? value with
    | some _ => .ok ()
    | none => .error (o.refuse value (Mode.unknownText value))
  | .number most =>
    match readNumber value with
    | .error e => .error (o.refuse value e.text)
    | .ok n =>
      if 0 ≤ n ∧ n ≤ most then .ok ()
      else .error (o.refuse value (toString n ++ " is not in 0..=" ++ toString most))

end OptionSpec

end StreamServer.CommandLine
