/-
What the command line can ask for: to serve, to shut a server down, or to
write a configuration file.
-/
import StreamServer.CommandLine.Arguments

namespace StreamServer.CommandLine

/-- Settings for serving. Those that are given take the place of the configured ones. -/
structure ServeOptions where
  config : Option String
  mode : Option Mode
  bind : Option String
  name : Option String
  remote : Option String
  port : Option UInt16
  maxSessions : Option UInt32
deriving DecidableEq, Repr

/-- Which server is shut down. -/
structure ShutdownOptions where
  tcp : Option String
  name : Option String
deriving DecidableEq, Repr

/-- Where the configuration file is written. -/
structure InitOptions where
  path : Option String
  /-- A file that is there is overwritten. -/
  force : Bool
deriving DecidableEq, Repr

/-- What is asked for. -/
inductive Invocation where
  | serve (options : ServeOptions)
  | shutdown (options : ShutdownOptions)
  | init (options : InitOptions)
  | version
  | help
deriving DecidableEq, Repr

/-- Options that may stand before and after the subcommand. -/
def sharedOptions : List OptionSpec :=
  [⟨"foreground", some 'f', .flag⟩, ⟨"log-level", none, .text⟩]

/-- What stands before a subcommand. -/
def topLevel : Level := ⟨sharedOptions, ["serve", "shutdown", "init", "help"], true⟩

def serveLevel : Level where
  options := sharedOptions ++
    [⟨"config", some 'c', .path⟩, ⟨"mode", some 'm', .mode⟩, ⟨"bind", some 'b', .text⟩,
      ⟨"name", none, .text⟩, ⟨"remote", some 'r', .text⟩, ⟨"port", some 'p', .number 65535⟩,
      ⟨"max-sessions", none, .number 4294967295⟩]
  subcommands := []
  versioned := false

def shutdownLevel : Level where
  options := sharedOptions ++ [⟨"tcp", none, .text⟩, ⟨"name", none, .text⟩]
  subcommands := []
  versioned := false

def initLevel : Level where
  options := sharedOptions ++ [⟨"path", some 'p', .path⟩, ⟨"force", none, .flag⟩]
  subcommands := []
  versioned := false

namespace Given

/-- The number an option was given. -/
def number? (g : Given) (name : String) : Option Nat :=
  match (g.lookup name).map readNumber with
  | some (.ok n) => some n.toNat
  | _ => none

def serveOptions (g : Given) : ServeOptions where
  config := g.lookup "config"
  mode := (g.lookup "mode").bind Mode.ofShortName?
  bind := g.lookup "bind"
  name := g.lookup "name"
  remote := g.lookup "remote"
  port := (number? g "port").map UInt16.ofNat
  maxSessions := (number? g "max-sessions").map UInt32.ofNat

def shutdownOptions (g : Given) : ShutdownOptions := ⟨g.lookup "tcp", g.lookup "name"⟩

def initOptions (g : Given) : InitOptions := ⟨g.lookup "path", (g.lookup "force").isSome⟩

end Given

/-- A server is named by its TCP address or by its socket's name, not by both. -/
def ShutdownOptions.check (o : ShutdownOptions) : Except UsageError ShutdownOptions :=
  if o.tcp.isSome ∧ o.name.isSome then .error .plain else .ok o

/-- Reads the arguments of a subcommand. -/
def readSubcommand (name : String) (rest : List String) : Except UsageError Invocation :=
  let read := fun (l : Level) (k : Given → Except UsageError Invocation) =>
    match readLevel l {} rest with
    | .ok (.finished g) => k g
    | .ok .version => .ok .version
    | .ok .help => .ok .help
    | .ok (.subcommand ..) => .error .plain
    | .error e => .error e
  if name = "serve" then read serveLevel fun g => .ok (.serve g.serveOptions)
  else if name = "shutdown" then read shutdownLevel fun g => g.shutdownOptions.check.map .shutdown
  else if name = "init" then read initLevel fun g => .ok (.init g.initOptions)
  else .ok .help

/-- Reads all arguments. -/
def readInvocation (args : List String) : Except UsageError Invocation :=
  match readLevel topLevel {} args with
  | .ok (.subcommand _ name rest) => readSubcommand name rest
  | .ok .version => .ok .version
  | .ok .help => .ok .help
  | .ok (.finished _) => .error .plain
  | .error e => .error e

end StreamServer.CommandLine
