import CMakeHelm.FileSystem

namespace CMakeHelm

structure Surroundings where
  search : String
  home : String
deriving DecidableEq, Repr

namespace Surroundings

def unfolded (s : Surroundings) (dir : Path) : Path :=
  match dir.components with
  | .name ['~'] :: rest => rest.foldl (fun p c => p.join ⟨c.chars⟩) (Path.ofString s.home)
  | _ => dir

def searchDirs (s : Surroundings) : List Path :=
  (Text.split (· == ':') s.search.toList).map fun dir => s.unfolded (Path.ofText dir)

end Surroundings

namespace FileSystem

variable (fs : FileSystem)

/-- A relative path starts at the working directory; a leading `.` is dropped. -/
def besideWorkDir (p : Path) : Path :=
  if p.isAbsolute then p
  else Path.ofComponents (fs.workPath.components ++ p.components.filter (· ≠ .here))

/-- The first executable of that name in the directories that are searched; a name of several
components is looked up as it stands. -/
def findProgram? (around : Surroundings) (name : String) : Option Path :=
  let name := Path.ofString name
  if name.components.length > 1 then
    let p := fs.besideWorkDir name
    if fs.isExecutable p then some p else none
  else
    (around.searchDirs.map fun dir => fs.besideWorkDir (dir.join name)).find? fs.isExecutable

def cmakeProgram (around : Surroundings) : Option String → String
  | some configured => configured
  | none =>
    match fs.findProgram? around "cmake" with
    | some p => p.toString
    | none => "cmake"

def findOutermost? (start : Path) (name : String) : Option Path :=
  (start.ancestors.filter fun dir => fs.isFile (dir.join (Path.ofString name))).getLast?

end FileSystem

end CMakeHelm
