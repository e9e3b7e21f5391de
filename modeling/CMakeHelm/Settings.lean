import CMakeHelm.Data
import CMakeHelm.Target

namespace CMakeHelm

structure Settings.Build where
  buildDir : Option String := none
  cmake : Option String := none
  configuration : Option String := none
  arch : Option String := none
deriving DecidableEq, Repr

structure Settings.Shell where
  program : Option String := none
  name : Option String := none
deriving DecidableEq, Repr

structure Settings where
  build : Settings.Build := {}
  debugger : Option String := none
  shell : Settings.Shell := {}
deriving DecidableEq, Repr

namespace Settings

def Build.ofData? (d : Data) : Option Build := do
  match ← d.record? ["build_dir", "cmake", "configuration", "arch"] with
  | [dir, cmake, configuration, arch] =>
    return ⟨← Data.optionalText? dir, ← Data.optionalText? cmake, ← Data.optionalText? configuration,
      ← Data.optionalText? arch⟩
  | _ => none

def runOfData? (d : Data) : Option (Option String) := do
  match ← d.record? ["debugger"] with
  | [debugger] => Data.optionalText? debugger
  | _ => none

def Shell.ofData? (d : Data) : Option Shell := do
  match ← d.record? ["program", "name"] with
  | [program, name] => return ⟨← Data.optionalText? program, ← Data.optionalText? name⟩
  | _ => none

/-- A section that is not there is empty. -/
def ofData? (d : Data) : Option Settings := do
  match ← d.record? ["build", "run", "shell"] with
  | [build, run, shell] =>
    return ⟨← build.elim (some {}) Build.ofData?, ← run.elim (some none) runOfData?,
      ← shell.elim (some {}) Shell.ofData?⟩
  | _ => none

def toData (s : Settings) : Data :=
  let optional (t : Option String) : Data := t.elim .null .text
  .object
    [("build", .object
        [("build_dir", optional s.build.buildDir), ("cmake", optional s.build.cmake),
          ("configuration", optional s.build.configuration), ("arch", optional s.build.arch)]),
      ("run", .object [("debugger", optional s.debugger)]),
      ("shell", .object [("program", optional s.shell.program), ("name", optional s.shell.name)])]

def merge (s upper : Settings) : Settings where
  build :=
    { buildDir := upper.build.buildDir.or s.build.buildDir
      cmake := upper.build.cmake.or s.build.cmake
      configuration := upper.build.configuration.or s.build.configuration
      arch := upper.build.arch.or s.build.arch }
  debugger := upper.debugger.or s.debugger
  shell := { program := upper.shell.program.or s.shell.program, name := upper.shell.name.or s.shell.name }

variable (s : Settings)

def buildDir (root : Path) : Path := root.join (Path.ofString (s.build.buildDir.getD "build"))

def configuration? : Option Configuration := s.build.configuration.bind Configuration.parse?

def architecture? : Option Architecture := s.build.arch.bind Architecture.parse?

def debuggerKind : String := s.debugger.getD "cppdbg"

def shellProgram : String := s.shell.program.getD "sh"

def sessionName : String := s.shell.name.getD "cmake-pilot"

end Settings

end CMakeHelm
