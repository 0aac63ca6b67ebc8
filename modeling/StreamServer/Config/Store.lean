/-
Configurations in files: loading and saving.
-/
import StreamServer.Config.File
import StreamServer.Disk

namespace StreamServer.Config

/-- Loads the configuration of a file. -/
def load (d : Disk) (path : String) : Except ConfigError Config :=
  let p := Path.ofText path
  if d.exists? p then
    match d.readText p with
    | .ok text => parse text
    | .error reason => .error (.invalid ("Failed to read config: " ++ reason))
  else .error (.notFound path)

/-- Writes a text to a file, in a folder that is created if it is missing. -/
def store (d : Disk) (p : Path) (text : String) : Except ConfigError Unit × Disk :=
  match d.createFoldersAbove p with
  | (.error e, d) => (.error (.invalid ("Failed to create config dir: " ++ e.text)), d)
  | (.ok _, d) =>
    match d.write p text.toUTF8 with
    | .ok d => (.ok (), d)
    | .error e => (.error (.invalid ("Failed to write config: " ++ e.text)), d)

/-- Saves a configuration to a file. -/
def save (d : Disk) (path : String) (c : Config) : Except ConfigError Unit × Disk :=
  match c.render with
  | .error e => (.error e, d)
  | .ok text => store d (.ofText path) text

end StreamServer.Config
