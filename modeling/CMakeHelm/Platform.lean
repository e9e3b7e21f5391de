import CMakeHelm.Target

namespace CMakeHelm

/-- The family of generators: one build tree for all configurations, or one for each. -/
inductive Platform where
  | windows
  | unix
deriving DecidableEq, Repr

namespace Platform

def isMultiConfig : Platform → Bool
  | windows => true
  | unix => false

def generatorPlatform? : Platform → Architecture → Option String
  | windows, .x86 => some "Win32"
  | windows, .x64 => some "x64"
  | unix, _ => none

def targetAlias : Platform → String → String
  | windows, "all" => "ALL_BUILD"
  | windows, "test" => "RUN_TESTS"
  | _, name => name

def exeSuffix : Platform → String
  | windows => ".exe"
  | unix => ""

end Platform

end CMakeHelm
