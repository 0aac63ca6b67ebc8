/-
A configuration as an object of JSON.
-/
import StreamServer.Config.Fields
import StreamServer.Json.Number

namespace StreamServer.Config

/-- The configuration the fields of an object give, or what is told about a number that is out of range
or a field that is wrong. -/
def ofObject (fields : List (String × Json)) : Except String Config :=
  match Json.toEntries fields with
  | none => .error "number out of range"
  | some es => (ofEntries es).mapError ValueError.message

end StreamServer.Config
