/-
Where the configuration file is looked for when no path is given.
-/
namespace StreamServer.Config

/-- A path below a directory. -/
def joinPath (dir name : String) : String :=
  if dir = "" then name
  else if dir.toList.getLast? = some '/' then dir ++ name
  else dir ++ "/" ++ name

def isAbsolute (path : String) : Bool := path.toList.head? = some '/'

/-- What the environment says about a user's directories. -/
structure Homes where
  /-- Directory for configuration files, counted only if absolute. -/
  configHome : Option String
  /-- Home directory; an empty one counts as none. -/
  home : String
  /-- Home directory of the user's account. -/
  accountHome : String

/-- Directory of the configuration file. -/
def defaultDir (h : Homes) : String :=
  let home := if h.home = "" then h.accountHome else h.home
  let base := match h.configHome.filter isAbsolute with
    | some dir => dir
    | none => joinPath home ".config"
  joinPath base "render-server"

/-- Path of the configuration file. -/
def defaultPath (h : Homes) : String := joinPath (defaultDir h) "server.toml"

end StreamServer.Config
