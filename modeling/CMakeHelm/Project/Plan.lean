import CMakeHelm.CommandLine
import CMakeHelm.FileSystem
import CMakeHelm.Project

namespace CMakeHelm

structure Launch.Descriptor where
  program : Path
  workingDirectory : Path
  debuggerKind : String
deriving DecidableEq, Repr

inductive Launch where
  | debugger (d : Launch.Descriptor)
  | shell (command : String)
deriving DecidableEq, Repr

namespace Project

inductive ArtifactError where
  | noTargetSelected
  | noOutputFile (target : String) (c : Configuration)
deriving DecidableEq, Repr

def ArtifactError.message : ArtifactError → String
  | noTargetSelected => "no target selected"
  | noOutputFile target c => s!"no output file for target `{target}` in {c.name} configuration"

structure RemovalError where
  dir : Path
  cause : Fault
deriving DecidableEq, Repr

def RemovalError.message (e : RemovalError) : String :=
  s!"failed to remove directory: {e.dir.toString}: {e.cause.message}"

variable (p : Project)

def isGenerated (fs : FileSystem) : Bool := fs.isDirectory p.buildDir

def configureLine (c : Configuration) (a : Architecture) : CommandLine where
  program := p.cmake
  args :=
    ["-S", p.sourceDir.toString, "-B", p.buildDir.toString, "-DCMAKE_BUILD_TYPE=" ++ c.name] ++
      (match p.platform.generatorPlatform? a with
      | some platform => ["-A", platform]
      | none => [])

def buildLine (target : String) (c : Configuration) : CommandLine where
  program := p.cmake
  args :=
    ["--build", p.buildDir.toString, "--target", p.platform.targetAlias target, "--config", c.name]

/-- The command that configures a build tree, after the old one is removed. -/
def generate (fs : FileSystem) (c : Configuration) (a : Architecture) :
    FileSystem × Except RemovalError String :=
  match fs.removeTree p.buildDir with
  | (fs, .ok ()) => (fs, .ok (p.configureLine c a).render)
  | (fs, .error e) => (fs, .error ⟨p.buildDir, e⟩)

/-- The commands that build a target; without a build directory, first the one that makes it. -/
def build (fs : FileSystem) (target : String) (c : Configuration) (a : Architecture) :
    FileSystem × Except RemovalError (List String) :=
  let last := (p.buildLine target c).render
  if p.isGenerated fs then (fs, .ok [last])
  else
    match p.generate fs c a with
    | (fs, .ok first) => (fs, .ok [first, last])
    | (fs, .error e) => (fs, .error e)

def sourcePlaceholder : String := "$\x7bCMAKE_SOURCE_DIR\x7d"

/-- A relative output directory starts at the binary directory of the declaring file. -/
def artifactDir (t : Target) (dir : String) : Path :=
  (p.binaryDir t.subdir).join (Path.ofText (Text.replace sourcePlaceholder.toList p.sourceDir.toText dir.toList))

/-- The executable that a target produces. -/
def artifact (t : Target) (c : Configuration) : Except ArtifactError Path :=
  match t.outputDir c, t.outputName with
  | some dir, some name =>
    .ok ((p.artifactDir t dir).join (Path.ofString (name ++ p.platform.exeSuffix)))
  | _, _ => .error (.noOutputFile t.key.name c)

/-- A debug build is started by a debugger, a release build by the shell. -/
def run (t : Target) (c : Configuration) (debugger : String) : Except ArtifactError Launch := do
  let program ← p.artifact t c
  match c with
  | .debug => .ok (.debugger ⟨program, p.buildDir, debugger⟩)
  | .release => .ok (.shell (CommandLine.mk program.toString []).render)

end Project

end CMakeHelm
