/-
The tables of a TOML document while it is read. Keys and headers are put in
one after another; what is defined twice, or added to a table that is
complete, is refused.
-/
import StreamServer.Value

namespace StreamServer.Toml

/-- Changes the table at the end of a path, starting from a table of the given form with the given
entries. Missing tables on the way are made: for a dotted key in the form `dotted`, for a header in
the form `implied`. A path goes on in the last item of an array of tables; a dotted key cannot pass
through a table with a header of its own. -/
def alter (isKey : Bool) (change : TableForm → Entries → Option Entries) :
    List String → TableForm → Entries → Option Entries
  | [], form, es => change form es
  | key :: path, _, es =>
    match es.get? key with
    | none =>
      let form : TableForm := if isKey then .dotted else .implied
      (alter isKey change path form []).map fun sub => es.put key (.table form sub)
    | some (.table form sub) =>
      if form = .inline ∨ isKey ∧ form = .header then none
      else (alter isKey change path form sub).map fun sub => es.put key (.table form sub)
    | some (.tables items) =>
      match items.getLast? with
      | some (.table form sub) =>
        (alter isKey change path form sub).map fun sub =>
          es.put key (.tables (items.dropLast ++ [.table form sub]))
      | _ => none
    | some _ => none

/-- Entries of the table a header's path leads to; none so far if the table is still missing. -/
def tableAt : List String → Entries → Option Entries
  | [], es => some es
  | key :: path, es =>
    match es.get? key with
    | none => some []
    | some (.table form sub) => if form = .inline then none else tableAt path sub
    | some (.tables items) =>
      match items.getLast? with
      | some (.table _ sub) => tableAt path sub
      | _ => none
    | some _ => none

/-- Adds a key at the end of a dotted path to a table of the given form. The table that a dotted
path leads to has been made by dotted keys only. -/
def addKey (form : TableForm) (path : List String) (key : String) (v : Value) (es : Entries) :
    Option Entries :=
  alter true (fun last es =>
    if (last == .dotted) == path.isEmpty then none
    else if (es.get? key).isSome then none
    else some (es ++ [(key, v)])) path form es

/-- A document under construction: the tables that are complete, and the table that keys are being
added to. -/
structure Draft where
  root : Entries
  /-- Path of the open table; empty for the root itself. -/
  path : List String
  /-- The open table is an item of an array. -/
  isItem : Bool
  /-- Entries of the open table. -/
  entries : Entries

namespace Draft

/-- Nothing has been read. -/
def empty : Draft := ⟨[], [], false, []⟩

/-- The table under `key` in the parent's entries `es`, once it is complete. A table that was
implied before moves to the end. -/
def placed (isItem : Bool) (key : String) (sub es : Entries) : Option Entries :=
  match isItem, es.get? key with
  | true, none => some (es ++ [(key, .tables [.table .header sub])])
  | true, some (.tables items) => some (es.put key (.tables (items ++ [.table .header sub])))
  | false, none => some (es ++ [(key, .table .header sub)])
  | false, some (.table .implied _) => some (es.erase key ++ [(key, .table .header sub)])
  | _, _ => none

/-- Puts the open table into the root. -/
def close (d : Draft) : Option Entries :=
  match d.path.getLast? with
  | none => some d.entries
  | some key =>
    alter false (fun _ es => placed d.isItem key d.entries es) d.path.dropLast .header d.root

/-- Adds a key to the open table. -/
def add (d : Draft) (path : List String) (key : String) (v : Value) : Option Draft :=
  (addKey .header path key v d.entries).map fun es => { d with entries := es }

/-- Opens the table of a header. It may have been implied before, but not defined. -/
def openTable (d : Draft) (path : List String) : Option Draft := do
  let root ← d.close
  let key ← path.getLast?
  let es ← tableAt path.dropLast root
  match es.get? key with
  | none => some ⟨root, path, false, []⟩
  | some (.table .implied sub) => some ⟨root, path, false, sub⟩
  | some _ => none

/-- Opens a new item of the array of a header. -/
def openItem (d : Draft) (path : List String) : Option Draft := do
  let root ← d.close
  let key ← path.getLast?
  let es ← tableAt path.dropLast root
  match es.get? key with
  | none | some (.tables _) => some ⟨root, path, true, []⟩
  | some _ => none

end Draft

end StreamServer.Toml
