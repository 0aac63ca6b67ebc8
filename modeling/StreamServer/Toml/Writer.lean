/-
Writing TOML: strings in the plainest of the four forms that holds them,
numbers, and lines of keys and values.
-/
import StreamServer.Binary64.Shortest

namespace StreamServer.Toml

/-! ## Strings -/

/-- Cannot stand for itself in any string: a control other than tab and line feed. -/
def isControl (c : Char) : Bool :=
  (c.toNat < 0x20 && c != '\t' && c != '\n') || c.toNat == 0x7f

/-- Length of the longest run of `q`, `run` of which have just been passed. -/
def longestRun (q : Char) : (run : Nat) → List Char → Nat
  | run, [] => run
  | run, c :: cs => if c = q then longestRun q (run + 1) cs else max run (longestRun q 0 cs)

/-- The forms of a string. -/
inductive StringForm where
  | basic
  | literal
  | basicLines
  | literalLines
deriving DecidableEq, Repr

/-- The form a text is written in. -/
def stringForm (cs : List Char) : StringForm :=
  let control := cs.any isControl
  let backslash := cs.contains '\\'
  let lineFeed := cs.contains '\n'
  let singles := longestRun '\'' 0 cs
  let doubles := longestRun '"' 0 cs
  if !control && !backslash && doubles == 0 && !lineFeed then .basic
  else if !control && singles == 0 && !lineFeed then .literal
  else if !control && !backslash && doubles ≤ 2 then .basicLines
  else if !control && singles ≤ 2 then .literalLines
  else if lineFeed then .basicLines
  else .basic

/-- The upper-case hexadecimal digit of `n`. -/
def hexDigit (n : Nat) : Char := if n < 10 then Char.ofNat (0x30 + n) else Char.ofNat (0x37 + n)

/-- One character of a basic string, quotes and line feeds apart. -/
def escaped (c : Char) : List Char :=
  if c = '\\' then ['\\', '\\']
  else if c = '\t' then ['\\', 't']
  else if c = '\x08' then ['\\', 'b']
  else if c = '\x0c' then ['\\', 'f']
  else if c = '\r' then ['\\', 'r']
  else if isControl c then ['\\', 'u', '0', '0', hexDigit (c.toNat / 16), hexDigit (c.toNat % 16)]
  else [c]

/-- The inside of a basic string on one line. -/
def escapeLine : List Char → List Char
  | [] => []
  | '"' :: cs => '\\' :: '"' :: escapeLine cs
  | '\n' :: cs => '\\' :: 'n' :: escapeLine cs
  | c :: cs => escaped c ++ escapeLine cs

/-- The inside of a basic string on several lines; `run` quotes stand right before, none of them
escaped. The third of a run is escaped. -/
def escapeLines : (run : Nat) → List Char → List Char
  | _, [] => []
  | run, '"' :: cs =>
    if run = 2 then '\\' :: '"' :: escapeLines 0 cs else '"' :: escapeLines (run + 1) cs
  | _, '\n' :: cs => '\n' :: escapeLines 0 cs
  | _, c :: cs => escaped c ++ escapeLines 0 cs

/-- A line feed after the opening of a string on several lines, if the text has one itself. -/
def opening (cs : List Char) : List Char := if cs.contains '\n' then ['\n'] else []

/-- A string in a given form. -/
def writeStringAs (cs : List Char) : StringForm → List Char
  | .basic => '"' :: escapeLine cs ++ ['"']
  | .literal => '\'' :: cs ++ ['\'']
  | .basicLines => ['"', '"', '"'] ++ opening cs ++ escapeLines 0 cs ++ ['"', '"', '"']
  | .literalLines => ['\'', '\'', '\''] ++ opening cs ++ cs ++ ['\'', '\'', '\'']

/-- A string. -/
def writeString (s : String) : String :=
  String.ofList (writeStringAs s.toList (stringForm s.toList))

/-! ## Numbers -/

/-- A natural number, unless it is too large for an integer. -/
def writeNat? (n : Nat) : Option String := if n < Nat.pow 2 63 then some (toString n) else none

/-- A float. -/
def writeFloat (x : Binary64) : String := x.pointText

/-- A key with its written value. -/
def line (key value : String) : String := key ++ " = " ++ value ++ "\n"

end StreamServer.Toml
