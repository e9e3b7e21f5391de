import CMakeHelm.FileSystem
import CMakeHelm.Settings
import CMakeHelm.Toml

namespace CMakeHelm.Settings

inductive LoadError where
  | unreadable (path : Path)
  | malformed (path : Path)
deriving DecidableEq, Repr

def LoadError.message : LoadError → String
  | unreadable path => s!"failed to read config file: {path.toString}"
  | malformed path => s!"failed to parse config file: {path.toString}"

def load (fs : FileSystem) (path : Path) : Except LoadError Settings :=
  match fs.readText path with
  | .error _ => .error (.unreadable path)
  | .ok text =>
    match (Toml.parse? text).bind ofData? with
    | some s => .ok s
    | none => .error (.malformed path)

/-- A file that is missing or faulty sets nothing. -/
def loadOrEmpty (fs : FileSystem) (path : Path) : Settings :=
  match load fs path with
  | .ok s => s
  | .error _ => {}

def layered (fs : FileSystem) (paths : List Path) : Settings :=
  (paths.map (loadOrEmpty fs)).foldl merge {}

def pathIn (dir : Path) : Path := (dir.join (Path.ofString ".cmake-pilot")).join (Path.ofString "config.toml")

end CMakeHelm.Settings
