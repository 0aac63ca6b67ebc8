/-
The files and folders of a machine as data: what is found along a path, what
creating and writing changes, and why it fails.
-/
namespace StreamServer

/-- Where something stands: the names of the folders from the root, and its own. -/
abbrev Location := List String

/-- What stands somewhere. -/
inductive Node where
  | folder
  | file (content : ByteArray)

instance : DecidableEq Node
  | .folder, .folder => isTrue rfl
  | .folder, .file _ | .file _, .folder => isFalse nofun
  | .file a, .file b => decidable_of_iff (a.data = b.data)
    ⟨fun h => congrArg Node.file (ByteArray.ext h), fun h => by cases h; rfl⟩

/-- The files and folders of a machine. The root is a folder. -/
structure Disk where
  nodes : List (Location × Node)
  /-- Where relative paths start. -/
  start : Location

/-- A path, taken apart. -/
structure Path where
  absolute : Bool
  /-- The names along the path; `..` goes up. -/
  names : List String
  /-- What the path leads to has to be a folder. -/
  toFolder : Bool
deriving DecidableEq, Repr

namespace Path

/-- The parts of a text between slashes. -/
def parts (text : String) : List String := (text.toList.splitOn '/').map String.ofList

/-- Takes a path apart. A dot stays where it is, and so does a doubled slash. -/
def ofText (text : String) : Path where
  absolute := text.toList.head? = some '/'
  names := (parts text).filter fun part => part ≠ "" ∧ part ≠ "."
  toFolder := text ≠ "" ∧ ((parts text).getLast? = some "" ∨ (parts text).getLast? = some ".")

/-- The path of an empty text, which leads nowhere. -/
def isEmpty (p : Path) : Bool := !p.absolute && p.names.isEmpty && !p.toFolder

end Path

namespace Disk

/-- Why something cannot be done. -/
inductive Fault where
  | missing
  | taken
  | notFolder
  | isFolder
  | nameTooLong
  | nulByte
deriving DecidableEq, Repr

/-- The reason the system gives. -/
def Fault.text : Fault → String
  | .missing => "No such file or directory (os error 2)"
  | .taken => "File exists (os error 17)"
  | .notFolder => "Not a directory (os error 20)"
  | .isFolder => "Is a directory (os error 21)"
  | .nameTooLong => "File name too long (os error 36)"
  | .nulByte => "file name contained an unexpected NUL byte"

/-- Bytes a name may have. -/
def nameCapacity : Nat := 255

/-! ## Nodes -/

/-- What stands at a location. -/
def get? (d : Disk) (l : Location) : Option Node :=
  if l = [] then some .folder else d.nodes.lookup l

/-- Puts something at a location. -/
def put (d : Disk) (l : Location) (n : Node) : Disk :=
  { d with nodes := (l, n) :: d.nodes.filter (·.1 ≠ l) }

/-- Takes away what stands at a location. -/
def erase (d : Disk) (l : Location) : Disk := { d with nodes := d.nodes.filter (·.1 ≠ l) }

/-! ## Following a path -/

/-- Follows one name from a location, which has to be a folder. Nothing need stand at the end. -/
def enter (d : Disk) (here : Location) (name : String) : Except Fault Location :=
  match d.get? here with
  | none => .error .missing
  | some (.file _) => .error .notFolder
  | some .folder =>
    if name = ".." then .ok here.dropLast
    else if nameCapacity < name.utf8ByteSize then .error .nameTooLong
    else .ok (here ++ [name])

/-- Follows names from a location. -/
def follow (d : Disk) (here : Location) : List String → Except Fault Location
  | [] => .ok here
  | name :: names =>
    match d.enter here name with
    | .ok next => follow d next names
    | .error e => .error e

/-- Where the names of a path start. -/
def origin (d : Disk) (p : Path) : Location := if p.absolute then [] else d.start

/-- Where a path leads. -/
def locate (d : Disk) (p : Path) : Except Fault Location :=
  if p.names.any (·.toList.contains '\x00') then .error .nulByte
  else if p.isEmpty then .error .missing
  else d.follow (d.origin p) p.names

/-- What a path leads to. -/
def find (d : Disk) (p : Path) : Except Fault Node :=
  match d.locate p with
  | .error e => .error e
  | .ok l =>
    match d.get? l with
    | none => .error .missing
    | some (.file content) => if p.toFolder then .error .notFolder else .ok (.file content)
    | some .folder => .ok .folder

/-- A path leads to something. -/
def exists? (d : Disk) (p : Path) : Bool := (d.find p).isOk

/-- A path leads to a folder. -/
def isFolder (d : Disk) (p : Path) : Bool :=
  match d.find p with
  | .ok .folder => true
  | _ => false

/-- The content of a file. -/
def read (d : Disk) (p : Path) : Except Fault ByteArray :=
  match d.find p with
  | .ok (.file content) => .ok content
  | .ok .folder => .error .isFolder
  | .error e => .error e

/-- The content of a file as text. -/
def readText (d : Disk) (p : Path) : Except String String :=
  match d.read p with
  | .error e => .error e.text
  | .ok content =>
    match String.fromUTF8? content with
    | some text => .ok text
    | none => .error "stream did not contain valid UTF-8"

/-! ## Creating and writing -/

/-- Creates a folder. -/
def createFolder (d : Disk) (p : Path) : Except Fault Disk :=
  match d.locate p with
  | .error e => .error e
  | .ok l =>
    if p.names.isEmpty ∨ p.names.getLast? = some ".." ∨ (d.get? l).isSome then .error .taken
    else .ok (d.put l .folder)

/-- Creates a folder and those above it that are missing; the names of the path are given backwards.
On failure some of those above may have been created. -/
def createFolders (d : Disk) (absolute : Bool) : List String → Except Fault Unit × Disk
  | [] => (.ok (), d)
  | name :: above =>
    let p : Path := ⟨absolute, (name :: above).reverse, false⟩
    match d.createFolder p with
    | .ok d => (.ok (), d)
    | .error .missing =>
      match createFolders d absolute above with
      | (.error e, d) => (.error e, d)
      | (.ok _, d) =>
        match d.createFolder p with
        | .ok d => (.ok (), d)
        | .error e => (if d.isFolder p then .ok () else .error e, d)
    | .error e => (if d.isFolder p then .ok () else .error e, d)

/-- Creates the folder above a path and those above it that are missing. -/
def createFoldersAbove (d : Disk) (p : Path) : Except Fault Unit × Disk :=
  d.createFolders p.absolute (p.names.reverse.drop 1)

/-- Makes a file hold just the content, whether or not it was there. -/
def write (d : Disk) (p : Path) (content : ByteArray) : Except Fault Disk :=
  match d.locate p with
  | .error e => .error e
  | .ok l =>
    if p.names.isEmpty ∨ p.names.getLast? = some ".." then .error .isFolder
    else
      match d.get? l with
      | some .folder => .error .isFolder
      | some (.file _) => if p.toFolder then .error .notFolder else .ok (d.put l (.file content))
      | none => if p.toFolder then .error .isFolder else .ok (d.put l (.file content))

/-- Removes a file. -/
def remove (d : Disk) (p : Path) : Except Fault Disk :=
  match d.read p, d.locate p with
  | .ok _, .ok l => .ok (d.erase l)
  | .error e, _ | _, .error e => .error e

end Disk

end StreamServer
