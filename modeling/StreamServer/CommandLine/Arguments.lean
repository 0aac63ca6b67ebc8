/-
Reading arguments: options of one level of the command line are collected
until a subcommand begins or the arguments end. An option's value is checked
when the next option that is known begins, or when the arguments end.
-/
import StreamServer.CommandLine.Option

namespace StreamServer.CommandLine

/-- One level of the command line. -/
structure Level where
  options : List OptionSpec
  /-- Names of the subcommands. -/
  subcommands : List String
  /-- The version can be asked for. -/
  versioned : Bool
deriving DecidableEq, Repr

namespace Level

def byName? (l : Level) (name : String) : Option OptionSpec := l.options.find? (·.name = name)

def byLetter? (l : Level) (letter : Char) : Option OptionSpec :=
  l.options.find? (·.letter = some letter)

end Level

/-- Options that were given, with their values; a flag has an empty one. -/
abbrev Given := List (String × String)

/-- What has been read of a level. -/
structure Reading where
  given : Given := []
  /-- The option read last and its value, if there is one already. It is yet to be checked. -/
  pending : Option (OptionSpec × Option String) := none
deriving DecidableEq, Repr

namespace Reading

/-- An option with its value is complete. None may be given twice. -/
def add (r : Reading) (o : OptionSpec) (value : String) : Except UsageError Reading := do
  if (r.given.lookup o.name).isSome then throw .plain
  o.check value
  return { r with given := r.given ++ [(o.name, value)] }

/-- Completes the option read last. -/
def settle (r : Reading) : Except UsageError Reading :=
  match r.pending with
  | none => .ok r
  | some (_, none) => .error .plain
  | some (o, some value) => { r with pending := none }.add o value

/-- An option begins whose value is the next argument. -/
def await (r : Reading) (o : OptionSpec) : Except UsageError Reading := do
  let r ← r.settle
  return { r with pending := some (o, none) }

/-- An option begins that has its value with it. -/
def attach (r : Reading) (o : OptionSpec) (value : String) : Except UsageError Reading := do
  (← r.settle).add o value

/-- A value for the option read last, if it waits for one. -/
def supply? (r : Reading) (value : String) : Option Reading :=
  match r.pending with
  | some (o, none) => some { r with pending := some (o, some value) }
  | _ => none

/-- The option read last waits for its value. -/
def waits (r : Reading) : Bool :=
  match r.pending with
  | some (_, none) => true
  | _ => false

end Reading

/-- What reading one argument leads to. -/
inductive Progress where
  | further (r : Reading)
  /-- The version is asked for. -/
  | version
  /-- Help is asked for. -/
  | help
deriving DecidableEq, Repr

/-- Reads an option with a long name, and its value if one follows an equals sign. -/
def readLong (l : Level) (r : Reading) (name : String) (value : Option String) :
    Except UsageError Progress := do
  match l.byName? name, value with
  | some o, some value =>
    if o.kind = .flag then throw .plain
    return .further (← r.attach o value)
  | some o, none =>
    if o.kind = .flag then return .further (← r.attach o "")
    return .further (← r.await o)
  | none, none =>
    if name = "help" then
      let _ ← r.settle
      return .help
    if name = "version" ∧ l.versioned then
      let _ ← r.settle
      return .version
    throw .plain
  | none, some _ => throw .plain

/-- Reads options given by letters that stand together. What follows the letter of an option that
takes a value is that value, an equals sign between them left out. -/
def readLetters (l : Level) : Reading → List Char → Except UsageError Progress
  | r, [] => .ok (.further r)
  | r, c :: cs =>
    match l.byLetter? c with
    | some o =>
      if o.kind = .flag then
        match r.attach o "" with
        | .ok r => readLetters l r cs
        | .error e => .error e
      else
        match cs with
        | [] => (r.await o).map .further
        | '=' :: value => (r.attach o (String.ofList value)).map .further
        | value => (r.attach o (String.ofList value)).map .further
    | none =>
      if c = 'h' then r.settle.map fun _ => .help
      else if c = 'V' ∧ l.versioned then r.settle.map fun _ => .version
      else .error .plain

/-- Where reading a level ends. -/
inductive Ending where
  | finished (given : Given)
  | subcommand (given : Given) (name : String) (rest : List String)
  | version
  | help
deriving DecidableEq, Repr

/-- Splits what follows two dashes at the first equals sign. -/
def splitLong (cs : List Char) : String × Option String :=
  let name := cs.takeWhile (· ≠ '=')
  match cs.dropWhile (· ≠ '=') with
  | _ :: value => (String.ofList name, some (String.ofList value))
  | [] => (String.ofList name, none)

/-- Reads one argument. -/
def readArgument (l : Level) (r : Reading) (arg : String) : Except UsageError Progress :=
  match arg.toList with
  | '-' :: '-' :: cs =>
    let (name, value) := splitLong cs
    readLong l r name value
  | '-' :: c :: cs => readLetters l r (c :: cs)
  | _ =>
    match r.supply? arg with
    | some r => .ok (.further r)
    | none => .error .plain

/-- Reads the arguments of a level. -/
def readLevel (l : Level) (r : Reading) : List String → Except UsageError Ending
  | [] => r.settle.map fun r => .finished r.given
  | arg :: rest =>
    if !r.waits ∧ arg ∈ l.subcommands then r.settle.map fun r => .subcommand r.given arg rest
    else if arg = "--" then
      -- nothing may follow that is not an option
      if rest.isEmpty then r.settle.map fun r => .finished r.given else .error .plain
    else
      match readArgument l r arg with
      | .ok (.further r) => readLevel l r rest
      | .ok .version => .ok .version
      | .ok .help => .ok .help
      | .error e => .error e

end StreamServer.CommandLine
