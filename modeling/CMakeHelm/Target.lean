import CMakeHelm.Path

namespace CMakeHelm

inductive Configuration where
  | debug
  | release
deriving DecidableEq, Repr

inductive Architecture where
  | x86
  | x64
deriving DecidableEq, Repr

namespace Configuration

def name : Configuration → String
  | debug => "Debug"
  | release => "Release"

def parse? (s : String) : Option Configuration :=
  match s.toLower with
  | "debug" => some debug
  | "release" => some release
  | _ => none

def parseError (s : String) : String :=
  s!"invalid configuration '{s}'; expected 'debug' or 'release'"

end Configuration

namespace Architecture

def name : Architecture → String
  | x86 => "x86"
  | x64 => "x64"

def parse? (s : String) : Option Architecture :=
  match s.toLower with
  | "x86" | "win32" | "i686" => some x86
  | "x64" | "x86_64" | "amd64" => some x64
  | _ => none

def parseError (s : String) : String :=
  s!"invalid architecture '{s}'; expected 'x86' or 'x64'"

end Architecture

inductive Kind where
  | build
  | run
deriving DecidableEq, Repr

def Kind.name : Kind → String
  | build => "build"
  | run => "run"

structure Key where
  name : String
  kind : Kind
deriving DecidableEq, Repr

namespace Key

def display (k : Key) : String := k.name ++ " (" ++ k.kind.name ++ ")"

/-- By name, then `build` before `run`. -/
def le (a b : Key) : Bool := a.name < b.name || (a.name == b.name && (a.kind == .build || b.kind == .run))

end Key

/-- A target that only builds has no executable at first; one that runs has an output directory for
every configuration from the start. -/
structure Target where
  key : Key
  debugDir : Option String := none
  releaseDir : Option String := none
  outputName : Option String := none
  subdir : Path := Path.empty
deriving DecidableEq, Repr

namespace Target

def build (name : String) : Target := { key := ⟨name, .build⟩ }

def run (name dir : String) : Target :=
  { key := ⟨name, .run⟩, debugDir := some dir, releaseDir := some dir, outputName := some name }

def declaredIn (t : Target) (subdir : Path) : Target := { t with subdir }

def outputDir (t : Target) : Configuration → Option String
  | .debug => t.debugDir
  | .release => t.releaseDir

def setOutputDir (t : Target) (c : Configuration) (dir : String) : Target :=
  match c with
  | .debug => { t with debugDir := some dir }
  | .release => { t with releaseDir := some dir }

def setOutputName (t : Target) (name : String) : Target := { t with outputName := some name }

theorem outputDir_setOutputDir (t : Target) (c d : Configuration) (dir : String) :
    (t.setOutputDir c dir).outputDir d = if d = c then some dir else t.outputDir d := by
  cases c <;> cases d <;> rfl

end Target

end CMakeHelm
