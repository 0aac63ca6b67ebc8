/-
Quoted text: a string between double quotes in which every character that
does not show itself, the quote and the backslash are escaped.
-/
import StreamServer.Text.Printable

namespace StreamServer.Text

/-- The lower-case hexadecimal digits of `n`. -/
def hexDigits (n : Nat) : String := String.ofList (Nat.toDigits 16 n)

/-- One character inside quotes. -/
def quoteChar (c : Char) : String :=
  if c = '\x00' then "\\0"
  else if c = '\t' then "\\t"
  else if c = '\n' then "\\n"
  else if c = '\r' then "\\r"
  else if c = '"' then "\\\""
  else if c = '\\' then "\\\\"
  else if isPrintable c then String.singleton c
  else "\\u\x7b" ++ hexDigits c.toNat ++ "\x7d"

/-- The text in quotes. -/
def quoted (s : String) : String := "\"" ++ String.join (s.toList.map quoteChar) ++ "\""

/-- One character of a path inside quotes: the single quote is escaped as well. -/
def quotePathChar (c : Char) : String := if c = '\x27' then "\\'" else quoteChar c

/-- The path in quotes. -/
def quotedPath (path : String) : String :=
  "\"" ++ String.join (path.toList.map quotePathChar) ++ "\""

end StreamServer.Text
