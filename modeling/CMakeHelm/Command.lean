import CMakeHelm.Statement
import CMakeHelm.Target

namespace CMakeHelm

inductive Property where
  | runtimeDir (c : Configuration) (dir : String)
  | libraryDir (c : Configuration) (dir : String)
  | outputName (name : String)
deriving DecidableEq, Repr

def Property.ofPair? (key value : String) : Option Property :=
  match key with
  | "RUNTIME_OUTPUT_DIRECTORY_DEBUG" => some (.runtimeDir .debug value)
  | "RUNTIME_OUTPUT_DIRECTORY_RELEASE" => some (.runtimeDir .release value)
  | "LIBRARY_OUTPUT_DIRECTORY_DEBUG" => some (.libraryDir .debug value)
  | "LIBRARY_OUTPUT_DIRECTORY_RELEASE" => some (.libraryDir .release value)
  | "OUTPUT_NAME" => some (.outputName value)
  | _ => none

inductive Command where
  | addExecutable (name : String)
  | addLibrary (name : String)
  | addCustomTarget (name : String)
  | enableTesting
  | addSubdirectory (dir : String)
  | setTargetProperties (targets : List String) (properties : List Property)
  | unrecognized
deriving DecidableEq, Repr

namespace Command

/-- Ends the target names and starts the pairs. -/
def marker : String := "PROPERTIES"

/-- A key without a value is dropped, and so is a pair with an unknown key. -/
def properties : List String → List Property
  | key :: value :: rest => (Property.ofPair? key value).toList ++ properties rest
  | _ => []

def setProperties (args : List String) : Command :=
  if marker ∈ args then
    .setTargetProperties (args.takeWhile (· ≠ marker)) (properties (args.dropWhile (· ≠ marker)).tail)
  else .unrecognized

/-- Letter case of the name does not matter. A declaration takes its first argument. -/
def ofStatement (s : Statement) : Command :=
  match s.name.toLower, s.args with
  | "add_executable", name :: _ => .addExecutable name
  | "add_library", name :: _ => .addLibrary name
  | "add_custom_target", name :: _ => .addCustomTarget name
  | "enable_testing", _ => .enableTesting
  | "add_subdirectory", dir :: _ => .addSubdirectory dir
  | "set_target_properties", args => setProperties args
  | _, _ => .unrecognized

def scan (text : String) : List Command := (Statement.scan text).map ofStatement

end Command

end CMakeHelm
