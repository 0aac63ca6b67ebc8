/-
Reading the settings from the entries of a table. Every setting has a key of
its own; a key that is no setting is passed over, and a setting without a key
keeps its default. The first entry with a value its setting cannot take ends
the reading.
-/
import StreamServer.Binary64.Shortest
import StreamServer.Config
import StreamServer.Config.Seconds
import StreamServer.Text.Quoted
import StreamServer.Value

namespace StreamServer

/-- The kinds of value a setting may want. -/
inductive Wanted where
  | string
  | word16
  | word32
  | size
deriving DecidableEq, Repr

namespace Wanted

def text : Wanted → String
  | .string => "a string"
  | .word16 => "u16"
  | .word32 => "u32"
  | .size => "usize"

end Wanted

/-- A value as messages name it. -/
def Value.found : Value → String
  | .null => "null"
  | .boolean b => "boolean `" ++ (if b then "true" else "false") ++ "`"
  | .integer n => "integer `" ++ toString n ++ "`"
  | .float x => "floating point `" ++ x.pointText ++ "`"
  | .text s => "string " ++ Text.quoted s
  | .array _ | .tables _ => "sequence"
  | .moment | .table .. => "map"

/-- Why a setting cannot take a value. -/
inductive ValueError where
  | wrongType (found : String) (wanted : Wanted)
  | outOfRange (n : Int) (wanted : Wanted)
  /-- The name of no mode. -/
  | unknownMode (name : String)
  /-- A mode is neither a name nor a table. -/
  | notMode (found : String)
  /-- A mode is a table without a key, or with more keys than it may have. -/
  | notOneKey
  /-- There is something under the name of a mode. -/
  | notBare (found : String)
  | badSeconds (x : Binary64) (fault : Seconds.Fault)
  | notSeconds
deriving DecidableEq, Repr

/-- What is told about the error. -/
def ValueError.message : ValueError → String
  | .wrongType found wanted => "invalid type: " ++ found ++ ", expected " ++ wanted.text
  | .outOfRange n wanted =>
    "invalid value: integer `" ++ toString n ++ "`, expected " ++ wanted.text
  | .unknownMode name =>
    "unknown variant `" ++ name
      ++ "`, expected one of `listen`, `tcp-listen`, `tcp-reverse-client`"
  | .notMode found => "invalid type: " ++ found ++ ", expected string or map"
  | .notOneKey => "invalid value: map, expected map with a single key"
  | .notBare found => "invalid type: " ++ found ++ ", expected unit"
  | .badSeconds x fault => "invalid duration " ++ x.text ++ ": " ++ fault.text
  | .notSeconds => "data did not match any variant of untagged enum Secs"

/-- The error as the fault of a file, which tells no more of a mode in the wrong form. -/
def ValueError.fault : ValueError → TextFault
  | .notMode _ | .notOneKey | .notBare _ => .modeForm
  | e => .value e.message

namespace Config

def readString : Value → Except ValueError String
  | .text s => .ok s
  | v => .error (.wrongType v.found .string)

/-- A natural number below `bound`. -/
def readNat (wanted : Wanted) (bound : Nat) : Value → Except ValueError Nat
  | .integer n =>
    if 0 ≤ n ∧ n < bound then .ok n.toNat else .error (.outOfRange n wanted)
  | v => .error (.wrongType v.found wanted)

/-- A mode by its full name. -/
def readModeName (name : String) : Except ValueError Mode :=
  match Mode.ofName? name with
  | some m => .ok m
  | none => .error (.unknownMode name)

/-- Holds nothing: `null` in an object, an empty array or table elsewhere. -/
def isBare (form : TableForm) : Value → Bool
  | .null => form = .object
  | .array [] | .tables [] | .table _ [] => form ≠ .object
  | _ => false

/-- A mode: its name, or a table whose first key is the name and has a value that holds nothing. A
table between braces has no other key. -/
def readMode : Value → Except ValueError Mode
  | .text name => readModeName name
  | .table _ [] => .error .notOneKey
  | .table form ((name, v) :: others) => do
    if form.isBraced ∧ !others.isEmpty then throw .notOneKey
    let m ← readModeName name
    if isBare form v then return m else throw (.notBare v.found)
  | v => .error (.notMode v.found)

/-- A float as seconds. -/
def readFloatSeconds (x : Binary64) : Except ValueError Duration :=
  match Seconds.ofFloat x with
  | .ok d => .ok d
  | .error fault => .error (.badSeconds x fault)

def readDuration : Value → Except ValueError Duration
  | .integer n => if 0 ≤ n then .ok (.ofSecs n.toNat) else readFloatSeconds (.ofInt n)
  | .float x => readFloatSeconds x
  | _ => .error .notSeconds

/-- A setting that may be left out with `null`. -/
def readOptional {α : Type} (read : Value → Except ValueError α) :
    Value → Except ValueError (Option α)
  | .null => .ok none
  | v => (read v).map some

/-- Takes one entry into the configuration. -/
def set (c : Config) (key : String) (v : Value) : Except ValueError Config :=
  if key = "mode" then (readMode v).map fun x => { c with mode := x }
  else if key = "local_name" then (readString v).map fun x => { c with localName := x }
  else if key = "bind_address" then (readString v).map fun x => { c with bindAddress := x }
  else if key = "remote_host" then
    (readOptional readString v).map fun x => { c with remoteHost := x }
  else if key = "remote_port" then
    (readNat .word16 UInt16.size v).map fun x => { c with remotePort := .ofNat x }
  else if key = "retry_delay" then (readDuration v).map fun x => { c with retryDelay := x }
  else if key = "ping_timeout" then (readDuration v).map fun x => { c with pingTimeout := x }
  else if key = "connect_timeout" then (readDuration v).map fun x => { c with connectTimeout := x }
  else if key = "max_sessions" then
    (readOptional (readNat .word32 UInt32.size) v).map fun x =>
      { c with maxSessions := x.map UInt32.ofNat }
  else if key = "address_capacity" then
    (readNat .size UInt64.size v).map fun x => { c with addressCapacity := .ofNat x }
  else .ok c

/-- The configuration that the entries give. -/
def ofEntries (es : Entries) : Except ValueError Config :=
  es.foldlM (fun c (key, v) => c.set key v) standard

end Config

end StreamServer
