/-
JSON with numbers as they are written. The reader takes text that is JSON and
makes no effort to find fault with text that is not.
-/
import StreamServer.Toml.Number

namespace StreamServer

/-- A JSON value. -/
inductive Json where
  | null
  | boolean (b : Bool)
  | number (text : String)
  | text (s : String)
  | array (items : List Json)
  | object (fields : List (String × Json))

namespace Json

instance : Inhabited Json := ⟨.null⟩

/-! ## Reading -/

/-- The number four hexadecimal digits stand for. -/
def hex4 (a b c d : Char) : Nat :=
  ((Toml.digitValue a * 16 + Toml.digitValue b) * 16 + Toml.digitValue c) * 16 + Toml.digitValue d

/-- The character a letter after a backslash stands for. -/
def unescape (c : Char) : Char :=
  if c = 'n' then '\n'
  else if c = 't' then '\t'
  else if c = 'r' then '\r'
  else if c = 'b' then '\x08'
  else if c = 'f' then '\x0c'
  else c

/-- The rest of a string after its opening quote. Two escaped halves make one character. -/
def readString (got : List Char) : List Char → Option (String × List Char)
  | '"' :: cs => some (String.ofList got.reverse, cs)
  | '\\' :: 'u' :: a :: b :: c :: d :: cs =>
    let n := hex4 a b c d
    if 0xd800 ≤ n ∧ n < 0xdc00 then
      match cs with
      | '\\' :: 'u' :: e :: f :: g :: h :: cs =>
        readString (Char.ofNat (0x10000 + (n - 0xd800) * 0x400 + (hex4 e f g h - 0xdc00)) :: got) cs
      | _ => none
    else readString (Char.ofNat n :: got) cs
  | '\\' :: c :: cs => readString (unescape c :: got) cs
  | c :: cs => readString (c :: got) cs
  | [] => none

/-- What follows blanks. -/
def skip (cs : List Char) : List Char := cs.dropWhile Char.isWhitespace

/-- The character can be part of a number. -/
def inNumber (c : Char) : Bool :=
  c.isDigit || c == '-' || c == '+' || c == '.' || c == 'e' || c == 'E'

mutual

/-- Reads a value; `fuel` bounds the characters that are looked at. -/
def readValue : (fuel : Nat) → List Char → Option (Json × List Char)
  | 0, _ => none
  | fuel + 1, cs =>
    match skip cs with
    | 'n' :: 'u' :: 'l' :: 'l' :: cs => some (.null, cs)
    | 't' :: 'r' :: 'u' :: 'e' :: cs => some (.boolean true, cs)
    | 'f' :: 'a' :: 'l' :: 's' :: 'e' :: cs => some (.boolean false, cs)
    | '"' :: cs => (readString [] cs).map fun (s, cs) => (.text s, cs)
    | '[' :: cs =>
      match skip cs with
      | ']' :: cs => some (.array [], cs)
      | cs => readItems fuel [] cs
    | '\x7b' :: cs =>
      match skip cs with
      | '\x7d' :: cs => some (.object [], cs)
      | cs => readFields fuel [] cs
    | cs =>
      let digits := cs.takeWhile inNumber
      if digits.isEmpty then none
      else some (.number (String.ofList digits), cs.dropWhile inNumber)

/-- Reads the items of an array. -/
def readItems : (fuel : Nat) → List Json → List Char → Option (Json × List Char)
  | 0, _, _ => none
  | fuel + 1, got, cs =>
    match readValue fuel cs with
    | none => none
    | some (v, cs) =>
      match skip cs with
      | ',' :: cs => readItems fuel (v :: got) cs
      | ']' :: cs => some (.array (v :: got).reverse, cs)
      | _ => none

/-- Reads the fields of an object. -/
def readFields : (fuel : Nat) → List (String × Json) → List Char → Option (Json × List Char)
  | 0, _, _ => none
  | fuel + 1, got, cs =>
    match skip cs with
    | '"' :: cs =>
      match readString [] cs with
      | none => none
      | some (key, cs) =>
        match skip cs with
        | ':' :: cs =>
          match readValue fuel cs with
          | none => none
          | some (v, cs) =>
            match skip cs with
            | ',' :: cs => readFields fuel ((key, v) :: got) cs
            | '\x7d' :: cs => some (.object ((key, v) :: got).reverse, cs)
            | _ => none
        | _ => none
    | _ => none

end

/-- Reads a text. -/
def read? (text : String) : Option Json :=
  let cs := text.toList
  (readValue (cs.length + 1) cs).map (·.1)

/-! ## Looking into objects -/

def get? (j : Json) (key : String) : Option Json :=
  match j with
  | .object fields => fields.lookup key
  | _ => none

/-- The field, unless it is missing or null. -/
def field? (j : Json) (key : String) : Option Json :=
  match j.get? key with
  | some .null => none
  | x => x

def text? : Json → Option String
  | .text s => some s
  | _ => none

/-- An integer, which may also stand in quotes. -/
def int? : Json → Option Int
  | .number t | .text t => t.toInt?
  | _ => none

/-! ## Writing -/

def escapeChar (c : Char) : String :=
  if c = '"' then "\\\""
  else if c = '\\' then "\\\\"
  else if c.toNat < 0x20 then
    "\\u00" ++ String.ofList [Nat.digitChar (c.toNat / 16), Nat.digitChar (c.toNat % 16)]
  else String.singleton c

def quote (s : String) : String := "\"" ++ String.join (s.toList.map escapeChar) ++ "\""

mutual

/-- Writes a value. -/
def write : Json → String
  | .null => "null"
  | .boolean b => if b then "true" else "false"
  | .number t => t
  | .text s => quote s
  | .array items => "[" ++ ",".intercalate (writeItems items) ++ "]"
  | .object fields => "\x7b" ++ ",".intercalate (writeFields fields) ++ "\x7d"

def writeItems : List Json → List String
  | [] => []
  | v :: vs => write v :: writeItems vs

def writeFields : List (String × Json) → List String
  | [] => []
  | (key, v) :: fields => (quote key ++ ":" ++ write v) :: writeFields fields

end

end Json

end StreamServer
