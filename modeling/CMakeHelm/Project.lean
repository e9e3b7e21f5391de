import CMakeHelm.Command
import CMakeHelm.Platform

namespace CMakeHelm

structure Project where
  rootDir : Path
  buildDir : Path
  platform : Platform
  cmake : String
  files : List Path
  targets : List Target
deriving DecidableEq

namespace Project

/-- `all` and `clean` are in every project. -/
def implicitTargets : List Target := [Target.build "all", Target.build "clean"]

def new (workDir root build : Path) (platform : Platform) : Project where
  rootDir := root.absolute workDir
  buildDir := build.absolute workDir
  platform := platform
  cmake := "cmake"
  files := []
  targets := implicitTargets

variable (p : Project)

def sourceDir : Path := p.rootDir

def find? (k : Key) : Option Target := p.targets.find? (·.key = k)

/-- The first declaration of a key stays. -/
def declare (t : Target) : Project :=
  if p.targets.any (·.key = t.key) then p else { p with targets := p.targets ++ [t] }

def addFile (file : Path) : Project :=
  if p.files.any (·.same file) then p
  else { p with files := p.files.takeWhile (·.before file) ++ file :: p.files.dropWhile (·.before file) }

/-- Where what a source directory declares is built. -/
def binaryDir (subdir : Path) : Path :=
  if subdir.chars = [] then p.buildDir else p.buildDir.join subdir

/-- Runtime directories are for targets that run, library directories for those that build. -/
def assign (t : Target) : Property → Target
  | .runtimeDir c dir => if t.key.kind = .run then t.setOutputDir c dir else t
  | .libraryDir c dir => if t.key.kind = .build then t.setOutputDir c dir else t
  | .outputName name => t.setOutputName name

def assignAll (names : List String) (properties : List Property) : Project :=
  { p with targets := p.targets.map fun t => if t.key.name ∈ names then properties.foldl assign t else t }

/-- What a command in the description file of `subdir` does. -/
def perform (subdir : Path) : Command → Project
  | .addExecutable name =>
    (p.declare ((Target.build name).declaredIn subdir)).declare
      ((Target.run name (p.binaryDir subdir).toString).declaredIn subdir)
  | .addLibrary name => p.declare ((Target.build name).declaredIn subdir)
  | .addCustomTarget name => p.declare ((Target.build name).declaredIn subdir)
  | .enableTesting => p.declare ((Target.build "test").declaredIn subdir)
  | .setTargetProperties names properties => p.assignAll names properties
  | .addSubdirectory _ => p
  | .unrecognized => p

def descriptionFile : Path := Path.ofString "CMakeLists.txt"

/-- The description file of a directory that is given relative to the root. -/
def descriptionPath (root subdir : Path) : Path := ((root.join subdir).join descriptionFile).normalize

/-- Whether a change to `path` makes the project stale. -/
def watches (path : Path) : Bool := p.files.any (·.same path)

end Project

end CMakeHelm
