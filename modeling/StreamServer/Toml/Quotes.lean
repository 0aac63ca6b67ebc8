/-
Strings in TOML: basic ones with escapes and literal ones without, each on
one line or on several.
-/
import StreamServer.Toml.Number

namespace StreamServer.Toml

/-- Stands for itself in a comment and, quotes and backslash apart, in a string. -/
def isPlain (c : Char) : Bool := c == '\t' || (0x20 ≤ c.toNat && c.toNat ≠ 0x7f)

def isBlank (c : Char) : Bool := c == ' ' || c == '\t'

/-- The character with this number, if there is one. -/
def scalar? (ds : List Char) : Option Char :=
  let n := ofDigits 16 ds
  if h : n.isValidChar ∧ ds.all isHexDigit then some (Char.ofNatAux n h.1) else none

/-- What a one-letter escape stands for. -/
def letterEscape? (c : Char) : Option Char :=
  if c = 'b' then some '\x08'
  else if c = 't' then some '\t'
  else if c = 'n' then some '\n'
  else if c = 'f' then some '\x0c'
  else if c = 'r' then some '\r'
  else if c = '"' then some '"'
  else if c = '\\' then some '\\'
  else none

/-- Puts a character in front of the text read so far. -/
def consText (c : Char) : Option (List Char × List Char) → Option (List Char × List Char)
  | some (text, rest) => some (c :: text, rest)
  | none => none

/-- The text of a basic string on one line after its opening quote, and what follows its closing
one. -/
def basicBody : List Char → Option (List Char × List Char)
  | [] => none
  | '"' :: rest => some ([], rest)
  | '\\' :: 'u' :: a :: b :: c :: d :: rest =>
    (scalar? [a, b, c, d]).bind fun x => consText x (basicBody rest)
  | '\\' :: 'U' :: a :: b :: c :: d :: e :: f :: g :: h :: rest =>
    (scalar? [a, b, c, d, e, f, g, h]).bind fun x => consText x (basicBody rest)
  | '\\' :: c :: rest => (letterEscape? c).bind fun x => consText x (basicBody rest)
  | c :: rest => if isPlain c ∧ c ≠ '\\' then consText c (basicBody rest) else none

/-- The text of a literal string on one line after its opening quote. -/
def literalBody : List Char → Option (List Char × List Char)
  | [] => none
  | '\'' :: rest => some ([], rest)
  | c :: rest => if isPlain c then consText c (literalBody rest) else none

/-- The line ends here, apart from blanks. -/
def endsLine (cs : List Char) : Bool :=
  match cs.dropWhile isBlank with
  | '\n' :: _ | '\r' :: '\n' :: _ => true
  | _ => false

/-- The text of a basic string on several lines after its opening. Two quotes may stand before the
three that close it. After a backslash at the end of a line, `skipping` passes over blanks and line
ends. -/
def basicLines : (skipping : Bool) → List Char → Option (List Char × List Char)
  | _, [] => none
  | _, '"' :: '"' :: '"' :: '"' :: '"' :: rest => some (['"', '"'], rest)
  | _, '"' :: '"' :: '"' :: '"' :: rest => some (['"'], rest)
  | _, '"' :: '"' :: '"' :: rest => some ([], rest)
  | skipping, '\r' :: '\n' :: rest =>
    if skipping then basicLines true rest else consText '\n' (basicLines false rest)
  | skipping, '\n' :: rest =>
    if skipping then basicLines true rest else consText '\n' (basicLines false rest)
  | _, '\\' :: 'u' :: a :: b :: c :: d :: rest =>
    (scalar? [a, b, c, d]).bind fun x => consText x (basicLines false rest)
  | _, '\\' :: 'U' :: a :: b :: c :: d :: e :: f :: g :: h :: rest =>
    (scalar? [a, b, c, d, e, f, g, h]).bind fun x => consText x (basicLines false rest)
  | _, '\\' :: c :: rest =>
    match letterEscape? c with
    | some x => consText x (basicLines false rest)
    | none => if endsLine (c :: rest) then basicLines true (c :: rest) else none
  | skipping, c :: rest =>
    if skipping ∧ isBlank c then basicLines true rest
    else if isPlain c ∧ c ≠ '\\' then consText c (basicLines false rest)
    else none

/-- The text of a literal string on several lines after its opening. -/
def literalLines : List Char → Option (List Char × List Char)
  | [] => none
  | '\'' :: '\'' :: '\'' :: '\'' :: '\'' :: rest => some (['\'', '\''], rest)
  | '\'' :: '\'' :: '\'' :: '\'' :: rest => some (['\''], rest)
  | '\'' :: '\'' :: '\'' :: rest => some ([], rest)
  | '\r' :: '\n' :: rest => consText '\n' (literalLines rest)
  | '\n' :: rest => consText '\n' (literalLines rest)
  | c :: rest => if isPlain c then consText c (literalLines rest) else none

/-- A line end right after the opening of a string on several lines is left out. -/
def dropLineEnd : List Char → List Char
  | '\n' :: rest => rest
  | '\r' :: '\n' :: rest => rest
  | cs => cs

/-- A string of any form, and what follows it. -/
def quotedText? : List Char → Option (List Char × List Char)
  | '"' :: '"' :: '"' :: rest => basicLines false (dropLineEnd rest)
  | '"' :: rest => basicBody rest
  | '\'' :: '\'' :: '\'' :: rest => literalLines (dropLineEnd rest)
  | '\'' :: rest => literalBody rest
  | _ => none

end StreamServer.Toml
