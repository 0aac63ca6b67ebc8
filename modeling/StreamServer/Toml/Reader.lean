/-
Reading TOML. A reader takes what it recognises off the front of the text and
gives the rest, or fails; why it fails is not told.
-/
import StreamServer.Toml.Document
import StreamServer.Toml.Moment
import StreamServer.Toml.Quotes

namespace StreamServer.Toml

/-- Arrays, inline tables and paths may be this deep, less one. -/
def depthLimit : Nat := 80

def isBareKeyChar (c : Char) : Bool := c.isAlphanum || c == '_' || c == '-'

def skipBlanks (cs : List Char) : List Char := cs.dropWhile isBlank

/-- Leaves out a comment; it ends before the line does. -/
def skipComment : List Char → List Char
  | '#' :: cs => cs.dropWhile isPlain
  | cs => cs

/-- A line end, or the end of the text. -/
def lineEnd? : List Char → Option (List Char)
  | [] => some []
  | '\n' :: cs => some cs
  | '\r' :: '\n' :: cs => some cs
  | _ => none

/-- The rest of a line after an expression: blanks and a comment. -/
def restOfLine? (cs : List Char) : Option (List Char) := lineEnd? (skipComment (skipBlanks cs))

/-! ## Keys -/

/-- One part of a key: bare, or a string on one line. -/
def simpleKey? : List Char → Option (String × List Char)
  | '"' :: cs => (basicBody cs).map fun (k, rest) => (String.ofList k, rest)
  | '\'' :: cs => (literalBody cs).map fun (k, rest) => (String.ofList k, rest)
  | cs =>
    let name := cs.takeWhile isBareKeyChar
    if name.isEmpty then none else some (String.ofList name, cs.dropWhile isBareKeyChar)

/-- A key with its parts, blanks around each of them. The first argument bounds their number. -/
def keyParts : Nat → List Char → Option (List String × List Char)
  | 0, _ => none
  | n + 1, cs =>
    match simpleKey? (skipBlanks cs) with
    | none => none
    | some (part, rest) =>
      match skipBlanks rest with
      | '.' :: rest => (keyParts n rest).map fun (parts, rest) => (part :: parts, rest)
      | rest => some ([part], rest)

/-- A key: the path before its last part, and that part. -/
def key? (cs : List Char) : Option ((List String × String) × List Char) :=
  match keyParts (cs.length + 1) cs with
  | none => none
  | some (parts, rest) =>
    if parts.length < depthLimit then
      (parts.getLast?).map fun last => ((parts.dropLast, last), rest)
    else none

/-! ## Values -/

/-- Ends a token that is not quoted. -/
def isDelimiter (c : Char) : Bool :=
  isBlank c || c == '\n' || c == '\r' || c == ',' || c == ']' || c == '#' || c == '\x7d'

/-- A boolean, a number or a moment. -/
def plainValue? (token : List Char) : Option Value :=
  if token = ['t', 'r', 'u', 'e'] then some (.boolean true)
  else if token = ['f', 'a', 'l', 's', 'e'] then some (.boolean false)
  else (moment? token).or (number? token)

/-- The time after a date and a blank. -/
def timeAfter (token rest : List Char) : List Char :=
  match date? token, rest with
  | some [], ' ' :: c :: cs =>
    if c.isDigit then ' ' :: (c :: cs).takeWhile (!isDelimiter ·) else []
  | _, _ => []

/-- A value that is not quoted and holds no others. -/
def plain? (cs : List Char) : Option (Value × List Char) :=
  let token := cs.takeWhile (!isDelimiter ·)
  let rest := cs.drop token.length
  let time := timeAfter token rest
  (plainValue? (token ++ time)).map fun v => (v, rest.drop time.length)

/-- Blanks, line ends and comments between the items of an array. -/
def skipLines : Nat → List Char → List Char
  | 0, cs => cs
  | n + 1, cs =>
    match skipComment (skipBlanks cs) with
    | '\n' :: rest => skipLines n rest
    | '\r' :: '\n' :: rest => skipLines n rest
    | rest => if (skipBlanks cs).head? = some '#' then skipBlanks cs else rest

/-- Blanks, line ends and comments between the items of an array. -/
def skipAll (cs : List Char) : List Char := skipLines (cs.length + 1) cs

/-- The items of an array after its opening bracket, read by `value?`. The first argument bounds
their number. -/
def items (value? : List Char → Option (Value × List Char)) :
    Nat → List Char → Option (List Value × List Char)
  | 0, _ => none
  | n + 1, cs =>
    match skipAll cs with
    | ']' :: rest => some ([], rest)
    | cs =>
      match value? cs with
      | none => none
      | some (v, rest) =>
        match skipAll rest with
        | ',' :: rest => (items value? n rest).map fun (vs, rest) => (v :: vs, rest)
        | ']' :: rest => some ([v], rest)
        | _ => none

/-- The keys of an inline table, read by `value?`, added to those before. The first argument bounds
their number. -/
def pairs (value? : List Char → Option (Value × List Char)) :
    Nat → Entries → List Char → Option (Entries × List Char)
  | 0, _, _ => none
  | n + 1, es, cs =>
    match key? cs with
    | none => none
    | some ((path, key), rest) =>
      match rest with
      | '=' :: rest =>
        match value? (skipBlanks rest) with
        | none => none
        | some (v, rest) =>
          match addKey .inline path key v es with
          | none => none
          | some es =>
            match skipBlanks rest with
            | ',' :: rest => pairs value? n es rest
            | '\x7d' :: rest => some (es, rest)
            | _ => none
      | _ => none

/-- The entries of an inline table after its opening brace. -/
def inlineEntries (value? : List Char → Option (Value × List Char)) (cs : List Char) :
    Option (Entries × List Char) :=
  match skipBlanks cs with
  | '\x7d' :: rest => some ([], rest)
  | cs => pairs value? (cs.length + 1) [] cs

/-- A value, with `depth` levels to go for the values inside it. -/
def value? : (depth : Nat) → List Char → Option (Value × List Char)
  | depth, cs =>
    match cs with
    | '"' :: _ | '\'' :: _ =>
      (quotedText? cs).map fun (s, rest) => (.text (String.ofList s), rest)
    | '[' :: rest =>
      match depth with
      | 0 => none
      | n + 1 => (items (value? n) (rest.length + 1) rest).map fun (vs, rest) => (.array vs, rest)
    | '\x7b' :: rest =>
      match depth with
      | 0 => none
      | n + 1 => (inlineEntries (value? n) rest).map fun (es, rest) => (.table .inline es, rest)
    | _ => plain? cs

/-! ## Documents -/

/-- A line with a key and its value. -/
def keyLine (d : Draft) (cs : List Char) : Option (Draft × List Char) := do
  let ((path, key), rest) ← key? cs
  let rest ← expect? '=' rest
  let (v, rest) ← value? (depthLimit - 1) (skipBlanks rest)
  let rest ← restOfLine? rest
  let d ← d.add path key v
  return (d, rest)

/-- A header after its opening bracket: `stop` closes it. -/
def header? (stop : List Char) (cs : List Char) : Option (List String × List Char) := do
  let ((path, key), rest) ← key? cs
  let rest ← if stop.isPrefixOf rest then some (rest.drop stop.length) else none
  let rest ← restOfLine? rest
  return (path ++ [key], rest)

/-- One expression at the start of a text that is not empty and does not start with a blank. -/
def expression (d : Draft) : List Char → Option (Draft × List Char)
  | '#' :: cs => (lineEnd? (skipComment ('#' :: cs))).map fun rest => (d, rest)
  | '\n' :: cs => some (d, cs)
  | '\r' :: '\n' :: cs => some (d, cs)
  | '[' :: '[' :: cs => do
    let (path, rest) ← header? [']', ']'] cs
    let d ← d.openItem path
    return (d, rest)
  | '[' :: cs => do
    let (path, rest) ← header? [']'] cs
    let d ← d.openTable path
    return (d, rest)
  | cs => keyLine d cs

/-- All expressions of a text. The first argument bounds their number. -/
def expressions : Nat → Draft → List Char → Option Draft
  | 0, _, _ => none
  | n + 1, d, cs =>
    match skipBlanks cs with
    | [] => some d
    | cs => (expression d cs).bind fun (d, rest) => expressions n d rest

/-- The entries of a document; a byte-order mark at its start is left out. -/
def read? (text : String) : Option Entries :=
  let cs := match text.toList with
    | '\ufeff' :: cs => cs
    | cs => cs
  (expressions (cs.length + 1) .empty cs).bind Draft.close

end StreamServer.Toml
