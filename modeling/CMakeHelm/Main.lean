import CMakeHelm.Cli
import CMakeHelm.FileSystem.Change

namespace CMakeHelm.Main

open FileSystem (Change)

def rooted (workDir : Path) : FileSystem :=
  let fs : FileSystem := { entries := [], workDir := [] }
  { fs.makeDirectories workDir with workDir := ((Text.split (· == '/') workDir.chars).filter (· ≠ [])) }

def locationOf (p : Path) : Location := (Text.split (· == '/') p.chars).filter (· ≠ [])

def isScript (content : Text.Bytes) : Bool := (Text.encode "#!".toList).isPrefixOf content

def addFile (fs : FileSystem) (p : Path) : IO FileSystem := do
  try
    let content := (← IO.FS.readBinFile p.toString).toList
    let fs := fs.makeDirectories (Path.ofComponents p.components.dropLast)
    return (fs.write p content (isScript content)).toOption.getD fs
  catch _ => return fs

partial def below (l : Location) : IO (List (Location × Entry)) := do
  try
    let dir ← IO.FS.realPath (FileSystem.pathOf l).toString
    let mut all := []
    for e in ← dir.readDir do
      let l := l ++ [Text.octetsOf e.fileName]
      match (← e.path.symlinkMetadata).type with
      | .dir => all := all ++ (l, .directory) :: (← below l)
      | .file =>
        let content := (← IO.FS.readBinFile e.path).toList
        all := all ++ [(l, .file content (isScript content))]
      | .symlink => all := all ++ [(l, .link (Path.ofString (← IO.FS.realPath e.path).toString))]
      | .other => pure ()
    return all
  catch _ => return []

def root? (fs : FileSystem) (asked : Option Path) : IO (Option Path) := do
  match asked with
  | none => return fs.findOutermost? fs.workPath Cli.buildFile
  | some root =>
    try return some (Path.ofString (← IO.FS.realPath root.toString).toString)
    catch _ => return none

def carryOut : Change → IO Unit
  | .remove l => do
    let path ← IO.FS.realPath (FileSystem.pathOf l.dropLast).toString
    let path := path / (Path.mk (l.getLast?.getD [])).toString
    if (← path.symlinkMetadata).type == .dir then IO.FS.removeDirAll path else IO.FS.removeFile path
  | .makeDirectory l => IO.FS.createDirAll (FileSystem.pathOf l).toString
  | .write l content => IO.FS.writeBinFile (FileSystem.pathOf l).toString ⟨content.toArray⟩

/-- The file system that the program starts on, and the root of the project in it. -/
def snapshot (home : Path) (asked : Option Path) : IO (FileSystem × Option Path) := do
  let workDir := Path.ofString (← IO.currentDir).toString
  let mut fs := rooted workDir
  for dir in workDir.ancestors do
    fs ← addFile fs (dir.join (Path.ofString Cli.buildFile))
  fs ← addFile fs (Settings.pathIn home)
  match ← root? fs asked with
  | none => return (Sh.Program.install fs, none)
  | some root =>
    fs := fs.makeDirectories root
    let inside ← below (locationOf root)
    let kept := fs.entries.filter fun e => inside.all (·.1 ≠ e.1)
    return (Sh.Program.install { fs with entries := kept ++ inside }, some root)

def usage : String := "usage: cmake-pilot [flags] targets|generate|build|run [flags]\n"

def run (args : List String) : IO UInt32 := do
  let rootVariable ← IO.getEnv "CMAKE_PILOT_ROOT"
  let home := (← IO.getEnv "HOME").getD ""
  let search := (← IO.getEnv "PATH").getD ""
  let asked := match Cli.parse? rootVariable args with
    | some (.invocation i) => i.root
    | _ => none
  let (fs, root) ← snapshot (Path.ofString home) asked
  let c : Cli.Context :=
    { fs, around := ⟨search, home⟩, rootVariable, terminal := ← (← IO.getStderr).isTty }
  let start ← IO.monoNanosNow
  let first ← IO.lazyPure fun _ => Cli.report c args
  let nanos := (← IO.monoNanosNow) - start
  -- What is done does not depend on how long it takes; only the text for it does.
  let report := if first.code = 0 then Cli.report { c with nanos } args else first
  IO.print report.printed.stdout
  IO.eprint (if report.code = 2 then usage else report.printed.stderr)
  if let some root := root then
    for change in fs.changes (locationOf root) report.fs do carryOut change
  return report.code.toUInt32

end CMakeHelm.Main

/-- The project is read into a file system of its own, where everything is decided and run; then what
has changed below its root is carried out on the disk. -/
def main (args : List String) : IO UInt32 := CMakeHelm.Main.run args
