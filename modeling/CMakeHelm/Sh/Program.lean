import CMakeHelm.Sh.Tool

namespace CMakeHelm.Sh.Program

def imageMark : Text.Bytes := 0x7f :: Text.encode "ELF".toList

def image (name : String) : Text.Bytes := imageMark ++ Text.encode name.toList

inductive Form where
  | image (name : String)
  | script (interpreter : Octets) (argument : Option Octets)
  | text
deriving DecidableEq, Repr

def form (content : Octets) : Form :=
  let mark : Octets := imageMark.map fun b => Char.ofNat b.toNat
  if mark.isPrefixOf content then .image (String.ofList (content.drop mark.length))
  else
    match content with
    | '#' :: '!' :: rest =>
      let line := (rest.takeWhile (· ≠ '\n')).dropWhile (· ∈ [' ', '\t'])
      let line := (line.reverse.dropWhile (· ∈ [' ', '\t'])).reverse
      let interpreter := line.takeWhile (· ∉ [' ', '\t'])
      let argument := (line.drop interpreter.length).dropWhile (· ∈ [' ', '\t'])
      if interpreter.isEmpty then .text
      else .script interpreter (if argument.isEmpty then none else some argument)
    | _ => .text

def isShell (name : String) : Bool := name ∈ ["sh", "dash", "bash"]

def dialect (name : String) : Dialect := if name = "bash" then .bash else .posix

def launchers : List String :=
  ["env", "printenv", "which", "kill", "xargs", "find", "nohup", "nice", "timeout", "setsid", "awk",
    "mawk", "sh", "dash", "bash"]

def names : List String := Tool.table.map (·.1) ++ launchers

def install (fs : FileSystem) : FileSystem :=
  let binaries : Location := ["usr".toList, "bin".toList]
  let fs := (fs.makeDirectories (FileSystem.pathOf binaries)).makeDirectories (Path.ofString "/dev")
  let fs := names.foldl (fun fs name => fs.put (binaries ++ [name.toList]) (.file (image name) true)) fs
  (fs.put ["bin".toList] (.link (Path.ofString "usr/bin"))).put Test.nullDevice (.file [] false)

def atPath (fs : FileSystem) (path : Octets) : Except Fault Octets :=
  match fs.locate (Test.pathOf path) with
  | .ok (_, .file content true) => .ok (content.map fun b => Char.ofNat b.toNat)
  | .ok _ => .error .denied
  | .error e => .error e

/-- The first program of that name along a search path. What is found but may not be run is
remembered for the case that nothing else turns up. -/
def search (fs : FileSystem) (dirs : List Octets) (name : Octets) : Except Fault Octets :=
  go .absent dirs
where
  go (worst : Fault) : List Octets → Except Fault Octets
    | [] => .error worst
    | dir :: rest =>
      let path := if dir.isEmpty then name else dir ++ '/' :: name
      match atPath fs path with
      | .ok _ => .ok path
      | .error .denied => go .denied rest
      | .error _ => go worst rest

def locate (fs : FileSystem) (path name : Octets) : Except Fault Octets :=
  if '/' ∈ name then (atPath fs name).map fun _ => name
  else search fs (Text.split (· == ':') path) name

end CMakeHelm.Sh.Program
