import CMakeHelm.Proofs.Project.Trace
import Mathlib

namespace CMakeHelm

/-- The keys that a command declares, in order. -/
def Command.declares : Command → List Key
  | addExecutable name => [⟨name, .build⟩, ⟨name, .run⟩]
  | addLibrary name => [⟨name, .build⟩]
  | addCustomTarget name => [⟨name, .build⟩]
  | enableTesting => [⟨"test", .build⟩]
  | addSubdirectory _ => []
  | setTargetProperties _ _ => []
  | unrecognized => []

namespace Project

def Met.declares : Met → List Key
  | file _ => []
  | command _ c => c.declares

def keys (p : Project) : List Key := p.targets.map (·.key)

/-- The files that loading reaches, in order. -/
def reached (p : Project) (fs : FileSystem) (subdir : Path) : List Location :=
  (Loading.enter fs ⟨p, []⟩ subdir).1.seen.reverse

variable {p : Project} {declared : List Key}

theorem key_setOutputDir (t : Target) (c : Configuration) (dir : String) : (t.setOutputDir c dir).key = t.key := by
  cases c <;> rfl

theorem key_assign (t : Target) (property : Property) : (assign t property).key = t.key := by
  cases property with
  | outputName name => rfl
  | _ =>
      simp only [assign]
      split
      · exact key_setOutputDir ..
      · rfl

theorem key_foldl_assign (t : Target) (properties : List Property) : (properties.foldl assign t).key = t.key := by
  induction properties generalizing t with
  | nil => rfl
  | cons property properties ih => rw [List.foldl_cons, ih, key_assign]

theorem keys_assignAll (names : List String) (properties : List Property) :
    (p.assignAll names properties).keys = p.keys := by
  unfold keys assignAll
  rw [List.map_map]
  apply List.map_congr_left
  intro t _
  simp only [Function.comp_apply]
  split
  · exact key_foldl_assign t properties
  · rfl

theorem isSome_find?_iff {k : Key} : (p.find? k).isSome = true ↔ k ∈ p.keys := by
  simp [find?, keys]

theorem keys_addFile (file : Path) : (p.addFile file).keys = p.keys := by
  unfold addFile
  split <;> rfl

theorem keys_declare (h : p.keys = declared.eraseDups) (t : Target) :
    (p.declare t).keys = (declared ++ [t.key]).eraseDups := by
  have hmem : p.targets.any (·.key = t.key) = true ↔ t.key ∈ declared := by
    rw [← List.mem_eraseDups, ← h]
    simp [keys]
  rw [List.eraseDups_append, ← h]
  unfold declare
  split
  · next hd => simp [List.removeAll, hmem.1 hd]
  · next hd =>
    have hnot : t.key ∉ declared := fun hm => hd (hmem.2 hm)
    simp [keys, List.removeAll, hnot, List.eraseDups_cons]

theorem keys_meet (h : p.keys = declared.eraseDups) (m : Met) :
    (p.meet m).keys = (declared ++ m.declares).eraseDups := by
  cases m with
  | file path => rw [meet, keys_addFile, Met.declares, List.append_nil, h]
  | command subdir c =>
      cases c with
      | addExecutable name =>
          have hbuild := keys_declare h ((Target.build name).declaredIn subdir)
          have hrun := keys_declare hbuild ((Target.run name (p.binaryDir subdir).toString).declaredIn subdir)
          rwa [List.append_assoc] at hrun
      | addLibrary name => exact keys_declare h _
      | addCustomTarget name => exact keys_declare h _
      | enableTesting => exact keys_declare h _
      | setTargetProperties names properties =>
          rw [meet, perform, keys_assignAll, h, Met.declares, Command.declares, List.append_nil]
      | addSubdirectory dir => rw [meet, perform, h, Met.declares, Command.declares, List.append_nil]
      | unrecognized => rw [meet, perform, h, Met.declares, Command.declares, List.append_nil]

theorem keys_foldl_meet (h : p.keys = declared.eraseDups) (mets : List Met) :
    (mets.foldl meet p).keys = (declared ++ mets.flatMap Met.declares).eraseDups := by
  induction mets generalizing p declared with
  | nil => rw [List.foldl_nil, List.flatMap_nil, List.append_nil, h]
  | cons m mets ih => rw [List.foldl_cons, List.flatMap_cons, ← List.append_assoc, ih (keys_meet h m)]

def twoFiles (top lib : Text.Bytes) : FileSystem where
  workDir := []
  entries :=
    [(["p".toList], .directory),
      (["p".toList, "CMakeLists.txt".toList], .file top false),
      (["p".toList, "lib".toList], .directory),
      (["p".toList, "lib".toList, "CMakeLists.txt".toList], .file lib false)]

theorem file?_twoFiles (top lib : Text.Bytes) :
    (twoFiles top lib).file? (descriptionPath (Path.ofString "/p") Path.empty) =
        some (["p".toList, "CMakeLists.txt".toList], top) ∧
      (twoFiles top lib).file? (descriptionPath (Path.ofString "/p") (Path.ofString "lib")) =
        some (["p".toList, "lib".toList, "CMakeLists.txt".toList], lib) := by
  have hpath : descriptionPath (Path.ofString "/p") Path.empty = Path.ofString "/p/CMakeLists.txt" := by decide +kernel
  have hpath' : descriptionPath (Path.ofString "/p") (Path.ofString "lib") = Path.ofString "/p/lib/CMakeLists.txt" := by
    decide +kernel
  rw [hpath, hpath']
  constructor <;> cbv

def topText : String :=
  "set_target_properties(app PROPERTIES OUTPUT_NAME early)\nadd_library(a)\nadd_subdirectory(lib)\n" ++
    "set_target_properties(a app PROPERTIES RUNTIME_OUTPUT_DIRECTORY_DEBUG bin OUTPUT_NAME tool)\nenable_testing()\n"

def libText : String := "Add_Executable(app main.c) # the tool\nadd_library(a)\n"

theorem scan_topText :
    Statement.scan topText =
      [⟨"set_target_properties", ["app", "PROPERTIES", "OUTPUT_NAME", "early"]⟩, ⟨"add_library", ["a"]⟩,
        ⟨"add_subdirectory", ["lib"]⟩,
        ⟨"set_target_properties",
          ["a", "app", "PROPERTIES", "RUNTIME_OUTPUT_DIRECTORY_DEBUG", "bin", "OUTPUT_NAME", "tool"]⟩,
        ⟨"enable_testing", []⟩] := by decide +kernel

theorem scan_libText :
    Statement.scan libText = [⟨"Add_Executable", ["app", "main.c"]⟩, ⟨"add_library", ["a"]⟩] := by decide +kernel

/-- Both files declare `a`, and properties of `app` are set before and after its declaration. -/
def written : FileSystem := twoFiles (Text.encode topText.toList) (Text.encode libText.toList)

end Project

end CMakeHelm
