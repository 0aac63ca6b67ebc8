/-
What the command line does on a machine: it looks at files and sockets,
changes them, and reports. A server that could be set up runs from then on.
-/
import StreamServer.Client
import StreamServer.CommandLine.Invocation
import StreamServer.Config.Location
import StreamServer.Config.Store
import StreamServer.Listener
import StreamServer.Text.Quoted

namespace StreamServer.CommandLine

/-- What the command line has to do with. -/
structure Machine where
  disk : Disk
  network : Network
  homes : Config.Homes

/-- What is shown in the end. -/
structure Report where
  code : Nat
  output : String := ""
  /-- What went wrong, followed by its causes. -/
  errors : List String := []
  /-- The usage error, if it is shown. -/
  usage : Option String := none
deriving DecidableEq, Repr

/-- Causes under each other, numbered if there are several. -/
def causeLines (causes : List String) : List String :=
  match causes with
  | [cause] => ["    " ++ cause]
  | causes => causes.zipIdx.map fun (cause, i) => "    " ++ toString i ++ ": " ++ cause

/-- What is said about what went wrong. -/
def Report.complaint (r : Report) : List String :=
  match r.errors with
  | [] => r.usage.toList
  | [error] => ["Error: " ++ error]
  | error :: causes => ["Error: " ++ error, "", "Caused by:"] ++ causeLines causes

/-- How an invocation ends. -/
inductive Outcome where
  | finished (report : Report)
  /-- A server runs that clients find at the endpoint. -/
  | listening (config : Config) (endpoint : Endpoint)
  /-- A server runs that dials its peer. -/
  | dialling (config : Config)
deriving DecidableEq, Repr

/-- The name and version of the program. -/
def versionText : String := "render-server 0.1.0"

/-- How the program is called. -/
def helpText : String := "Usage: render-server [OPTIONS] <serve|shutdown|init>"

/-- All went well. -/
def succeed (output : String) : Outcome := .finished { code := 0, output := output }

/-- Something went wrong: what was to be done, what happened and its causes. -/
def fail (errors : List String) : Outcome := .finished { code := 1, errors := errors }

/-! ## Serving -/

/-- Loads the configuration. A file that is named has to be a good one; a standard file that is not
is passed over. -/
def loadConfig (m : Machine) (path : Option String) : Except (List String) Config :=
  match path with
  | some path =>
    match Config.load m.disk path with
    | .ok c => .ok c
    | .error e =>
      .error (("Failed to load config from " ++ Text.quotedPath path) :: e.message :: e.causes)
  | none =>
    match Config.load m.disk (Config.defaultPath m.homes) with
    | .ok c => .ok c
    | .error _ => .ok .standard

/-- The configuration with the settings of the command line in place. -/
def ServeOptions.override (o : ServeOptions) (c : Config) : Config :=
  { c with
    mode := o.mode.getD c.mode
    bindAddress := o.bind.getD c.bindAddress
    localName := o.name.getD c.localName
    remoteHost := o.remote <|> c.remoteHost
    remotePort := o.port.getD c.remotePort
    maxSessions := o.maxSessions <|> c.maxSessions }

/-- Sets up a server with a configuration. -/
def startServer (m : Machine) (c : Config) : Outcome × Machine :=
  match c.validate with
  | .error e => (fail ("Invalid configuration" :: e.message :: e.causes), m)
  | .ok _ =>
    if c.mode.isListening then
      match Listener.setUp m.network c with
      | .ok (e, n) => (.listening c e, { m with network := n })
      | .error e => (fail ("Failed to start listening" :: e.message :: e.causes), m)
    else
      match Listener.setUpReverse c with
      | .ok _ => (.dialling c, m)
      | .error e => (fail ("Failed to create reverse client" :: e.message :: e.causes), m)

/-- Serves. -/
def serve (m : Machine) (o : ServeOptions) : Outcome × Machine :=
  match loadConfig m o.config with
  | .ok c => startServer m (o.override c)
  | .error errors => (fail errors, m)

/-! ## Shutting a server down -/

/-- The server that is meant; without a name it is the one at the standard address. -/
def ShutdownOptions.endpoint (o : ShutdownOptions) : Endpoint :=
  match o.tcp, o.name with
  | some address, _ => .tcp address
  | none, some name => .named name
  | none, none => .tcp Config.standard.bindAddress

/-- Shuts a server down. A server without sessions is gone at once. -/
def shutdown (m : Machine) (o : ShutdownOptions) : Outcome × Machine :=
  let e := o.endpoint
  match Client.requestShutdown m.network e with
  | .ok _ =>
    (succeed ("Shutdown requested at " ++ e.text ++ "\n"), { m with network := m.network.free e })
  | .error f => (fail (("Failed to reach server at " ++ e.text) :: f.message :: f.causes), m)

/-! ## Writing a configuration file -/

/-- Writes the standard configuration. -/
def init (m : Machine) (o : InitOptions) : Outcome × Machine :=
  let path := o.path.getD (Config.defaultPath m.homes)
  if m.disk.exists? (.ofText path) ∧ !o.force then
    (fail ["Config file already exists at " ++ Text.quotedPath path
      ++ " (use --force to overwrite)"], m)
  else
    match Config.save m.disk path .standard with
    | (.ok _, d) =>
      (succeed ("Wrote default configuration to " ++ path ++ "\n"), { m with disk := d })
    | (.error e, d) =>
      (fail (("Failed to write config to " ++ Text.quotedPath path) :: e.message :: e.causes),
        { m with disk := d })

/-! ## All of it -/

/-- Does what was asked for. -/
def perform (m : Machine) : Invocation → Outcome × Machine
  | .serve o => serve m o
  | .shutdown o => shutdown m o
  | .init o => init m o
  | .version => (succeed (versionText ++ "\n"), m)
  | .help => (succeed (helpText ++ "\n"), m)

/-- Does what the arguments ask for. -/
def run (m : Machine) (args : List String) : Outcome × Machine :=
  match readInvocation args with
  | .ok i => perform m i
  | .error e => (.finished { code := 2, usage := e.text }, m)

end StreamServer.CommandLine
