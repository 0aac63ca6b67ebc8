/-
Values of structured text: what a configuration is read from, whichever
format it was written in.
-/
import StreamServer.Binary64

namespace StreamServer

/-- How a table came about; it decides what may still be added to it. -/
inductive TableForm where
  /-- Written between braces: complete. -/
  | inline
  /-- An object of JSON: complete. -/
  | object
  /-- Opened by a header of its own. -/
  | header
  /-- On the way to a table with a header. -/
  | implied
  /-- On the way to a dotted key. -/
  | dotted
deriving DecidableEq, Repr

/-- The table stands between braces. -/
def TableForm.isBraced (form : TableForm) : Bool := form = .inline ∨ form = .object

/-- A value. -/
inductive Value where
  | null
  | boolean (b : Bool)
  | integer (n : Int)
  | float (x : Binary64)
  | text (s : String)
  /-- A date, a time or both. -/
  | moment
  | array (items : List Value)
  /-- An array whose items were opened by headers, the last one open to additions. -/
  | tables (items : List Value)
  | table (form : TableForm) (entries : List (String × Value))
deriving Repr

/-- The entries of a table, in the order they were written. -/
abbrev Entries := List (String × Value)

namespace Entries

/-- The value under a key. -/
def get? (es : Entries) (key : String) : Option Value := List.lookup key es

/-- Puts a value under a key, in the key's place if it has one, else at the end. -/
def put : Entries → String → Value → Entries
  | [], key, v => [(key, v)]
  | (k, w) :: es, key, v => if k = key then (k, v) :: es else (k, w) :: put es key v

/-- Takes a key out. -/
def erase (es : Entries) (key : String) : Entries := es.filter (·.1 ≠ key)

end Entries

end StreamServer
