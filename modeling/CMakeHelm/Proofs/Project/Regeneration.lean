import CMakeHelm.Project.Plan
import CMakeHelm.Proofs.FileSystem.Removal
import CMakeHelm.Proofs.Project.Files
import CMakeHelm.Proofs.Project.Launch
import CMakeHelm.Proofs.Project.Reload
import CMakeHelm.Proofs.Project.Watch

namespace CMakeHelm.Project

variable {fs part after : FileSystem} {root build path : Path} {platform : Platform} {cmake : String}
variable {seen seen' : List Location} {pending : List Pending} {l : Location} {content : Text.Bytes} {p : Project}
variable {c : Configuration} {a : Architecture}

/-- What was reached in the whole file system but not in the part of it is no text. -/
structure Lagging (fs : FileSystem) (seen seen' : List Location) : Prop where
  subset : seen' ⊆ seen
  garbled : ∀ path l content, fs.file? path = some (l, content) → l ∈ seen → l ∉ seen' → Text.decode? content = none

theorem Lagging.cons (h : Lagging fs seen seen') (l : Location) : Lagging fs (l :: seen) (l :: seen') where
  subset := List.cons_subset_cons l h.subset
  garbled path m content hf hm hm' := by
    obtain ⟨hne, hm'⟩ := not_or.1 (mt List.mem_cons.2 hm')
    exact h.garbled path m content hf ((List.mem_cons.1 hm).resolve_left hne) hm'

theorem Lagging.cons_left (h : Lagging fs seen seen') (hf : fs.file? path = some (l, content))
    (hd : Text.decode? content = none) : Lagging fs (l :: seen) seen' where
  subset := List.Subset.trans h.subset (List.subset_cons_self l seen)
  garbled other m content' hf' hm hm' := by
    rcases List.mem_cons.1 hm with rfl | hm
    · obtain ⟨executable, hl⟩ := FileSystem.exists_get?_of_file? hf
      rwa [FileSystem.content_eq hf' hl]
    · exact h.garbled other m content' hf' hm hm'

theorem Lagging.cons_right (h : Lagging fs seen seen') (hl : l ∈ seen) : Lagging fs seen (l :: seen') where
  subset := List.cons_subset.2 ⟨hl, h.subset⟩
  garbled path m content hf hm hm' := h.garbled path m content hf hm fun hmem => hm' (List.mem_cons_of_mem l hmem)

theorem walk_eq_of_kept (h : part.PartOf fs) (hlag : Lagging fs seen seen')
    (hkept : ∀ path, .file path ∈ walk fs root seen pending → (part.file? path).isSome) :
    walk part root seen' pending = walk fs root seen pending := by
  fun_induction walk fs root seen pending generalizing seen' with
  | case1 => rw [walk]
  | case2 seen sub c rest ih => rw [walk, ih hlag fun path hm => hkept path (List.mem_cons_of_mem _ hm)]
  | case3 seen sub rest hf ih =>
      have hf' : part.file? (descriptionPath root sub) = none := by
        rcases h.file?_eq_none_or (descriptionPath root sub) with hf' | hf'
        · exact hf'
        · rw [hf', hf]
      rw [walk_enter, hf']
      exact ih hlag hkept
  | case4 seen sub rest l content hf hl ih =>
      rw [walk_enter]
      rcases h.file?_eq_none_or (descriptionPath root sub) with hf' | hf'
      · rw [hf']
        exact ih hlag hkept
      · rw [hf', hf]
        by_cases hl' : l ∈ seen'
        · simpa only [if_pos hl'] using ih hlag hkept
        · simpa only [if_neg hl', hlag.garbled _ l content hf hl hl'] using ih (hlag.cons_right hl) hkept
  | case5 seen sub rest l content hf hl hd ih =>
      -- a file that is no text is not met, so it may be gone: then only the whole file system has it in `seen`
      have hl' : l ∉ seen' := fun hm => hl (hlag.subset hm)
      rw [walk_enter]
      rcases h.file?_eq_none_or (descriptionPath root sub) with hf' | hf'
      · rw [hf']
        exact ih (hlag.cons_left hf hd) hkept
      · rw [hf', hf]
        simpa only [if_neg hl', hd] using ih (hlag.cons l) hkept
  | case6 seen sub rest l content hf hl text hd ih =>
      have hl' : l ∉ seen' := fun hm => hl (hlag.subset hm)
      have hsome := hkept _ List.mem_cons_self
      rcases h.file?_eq_none_or (descriptionPath root sub) with hf' | hf'
      · simp [hf'] at hsome
      · rw [walk_enter_of_read (hf'.trans hf) hl' hd,
          ih (hlag.cons l) fun path hm => hkept path (List.mem_cons_of_mem _ hm)]

theorem trace_eq_of_kept (h : part.PartOf fs)
    (hkept : ∀ path, .file path ∈ trace fs root Path.empty → (part.file? path).isSome) :
    trace part root Path.empty = trace fs root Path.empty :=
  walk_eq_of_kept h ⟨List.nil_subset _, by simp⟩ hkept

theorem fst_generate (p : Project) (fs : FileSystem) (c : Configuration) (a : Architecture) :
    (p.generate fs c a).1 = (fs.removeTree p.buildDir).1 := by
  unfold generate
  rcases fs.removeTree p.buildDir with ⟨after, _ | _⟩ <;> rfl

/-- Whether it succeeds or not, generating takes away only what lies at the build directory or below it. A description
file of the project is still there, with the same text, if and only if everything that its path leads through is; so it
is if the path leads past the build directory. And when all of them are still there, loading the project again changes
nothing. -/
theorem generate_spares_descriptions (hwork : fs.HasWorkDir) (hp : p = { load fs root build platform with cmake })
    (hafter : after = (p.generate fs c a).1) :
    (∀ m, after.get? m = fs.get? m ∨
        after.get? m = none ∧ ∃ top e, fs.find false p.buildDir = .ok (.entry top e) ∧ top <+: m) ∧
      (∀ path ∈ p.files, ∃ trail l content executable,
        fs.LeadsTo path trail l (.file content executable) ∧ (Text.decode? content).isSome ∧
          after.file? path = (if ∀ m ∈ trail, (after.get? m).isSome then some (l, content) else none) ∧
          (fs.LeadsPast path p.buildDir → after.file? path = some (l, content))) ∧
      ((∀ path ∈ p.files, (after.file? path).isSome) → p.reload after = p) := by
  rw [fst_generate] at hafter
  have hroot : p.rootDir = root.absolute fs.workPath := by
    rw [hp, (sameSetting_load fs root build platform).rootDir_eq, new]
  have hmem (path : Path) : path ∈ p.files ↔ .file path ∈ trace fs p.rootDir Path.empty := by
    rw [hroot, ← mem_files_load_iff fs root build platform, hp]
  have hpart : after.PartOf fs := hafter ▸ FileSystem.partOf_removeTree fs p.buildDir
  refine ⟨hafter ▸ FileSystem.get?_removeTree fs p.buildDir, fun path hpath => ?_, fun hkept => ?_⟩
  · obtain ⟨d, text, rfl, hread⟩ := exists_readText_of_met ((hmem path).1 hpath)
    obtain ⟨l, content, chars, hf, hd, -⟩ := FileSystem.readText_eq_ok_iff.1 hread
    obtain ⟨trail, executable, hleads⟩ := FileSystem.exists_leadsTo_of_file? hf
    refine ⟨trail, l, content, executable, hleads, by rw [hd]; rfl, hpart.file?_eq hleads, fun hpast => ?_⟩
    rw [hafter, hpast.file?_removeTree (by rw [hf]; rfl), hf]
  · have hload := sameSetting_load fs root build platform
    have hanchored : p.Anchored := by
      rw [hp]
      exact (anchored_new hwork root build platform).of_eq hload.rootDir_eq hload.buildDir_eq
    exact hanchored.reload_eq hp (trace_eq_of_kept hpart fun path hm => hkept path ((hmem path).2 hm))

/-- A nested project with a build tree beside its subdirectory. -/
def built : FileSystem where
  workDir := []
  entries := (nested "add_library(a)").entries ++
    [(["p".toList, "build".toList], .directory),
      (["p".toList, "build".toList, "CMakeCache.txt".toList], .file [] false)]

theorem load_built (build : Path) :
    load built (Path.ofString "/p") build .unix = load (nested "add_library(a)") (Path.ofString "/p") build .unix := by
  have hf : built.file? (Path.ofString "/p/CMakeLists.txt") =
      some (["p".toList, "CMakeLists.txt".toList], Text.encode "add_subdirectory(lib)".toList) := by cbv
  have hf' : built.file? (Path.ofString "/p/lib/CMakeLists.txt") =
      some (["p".toList, "lib".toList, "CMakeLists.txt".toList], Text.encode "add_library(a)".toList) := by cbv
  have hscan : Command.scan "add_library(a)" = [.addLibrary "a"] := by decide +kernel
  rw [load_nested hscan, load_of_nested rfl hf hf' (by decide) hscan]

theorem removeTree_built : built.removeTree (Path.ofString "/p/build") = (nested "add_library(a)", .ok ()) := by
  cbv

theorem built_is_reloaded :
    let p := { load built (Path.ofString "/p") (Path.ofString "/p/build") .unix with cmake := "cmake" }
    ∃ after command, p.generate built .debug .x64 = (after, .ok command) ∧
      after.get? ["p".toList, "build".toList] = none ∧ p.reload after = p := by
  intro p
  have hp : p = _ := congrArg (fun p : Project => { p with cmake := "cmake" })
    ((load_built (Path.ofString "/p/build")).trans (@load_nested _ "a" (by decide +kernel) _))
  have hbuild : p.buildDir = Path.ofString "/p/build" := by
    rw [hp]
    decide +kernel
  have hgenerate : p.generate built .debug .x64 =
      (nested "add_library(a)", .ok (p.configureLine .debug .x64).render) := by
    rw [generate, hbuild, removeTree_built]
  have hwork : built.HasWorkDir := by simp [FileSystem.HasWorkDir, built]
  obtain ⟨-, -, hreload⟩ := generate_spares_descriptions hwork rfl (congrArg Prod.fst hgenerate).symm
  refine ⟨_, _, hgenerate, rfl, hreload fun path (hpath : path ∈ p.files) => ?_⟩
  have hfiles : p.files = [Path.ofString "/p/CMakeLists.txt", Path.ofString "/p/lib/CMakeLists.txt"] := by
    rw [hp]
    decide +kernel
  simp only [hfiles, List.mem_cons, List.not_mem_nil, or_false] at hpath
  obtain ⟨hf, hf'⟩ := file?_nested "add_library(a)"
  rcases hpath with rfl | rfl
  · rw [hf]
    rfl
  · rw [hf']
    rfl

theorem load_without_subdirectory (build : Path) :
    load (alone "add_subdirectory(lib)") (Path.ofString "/p") build .unix =
      [.file (Path.ofString "/p/CMakeLists.txt")].foldl meet (new (Path.ofString "/") (Path.ofString "/p") build .unix) := by
  have hwork : (alone "add_subdirectory(lib)").workPath = Path.ofString "/" := rfl
  have hroot : (new (Path.ofString "/") (Path.ofString "/p") build .unix).rootDir = Path.ofString "/p" :=
    (by decide +kernel : (Path.ofString "/p").absolute (Path.ofString "/") = Path.ofString "/p")
  have hpath : descriptionPath (Path.ofString "/p") Path.empty = Path.ofString "/p/CMakeLists.txt" := by decide +kernel
  have hf : (alone "add_subdirectory(lib)").file? (descriptionPath (Path.ofString "/p") Path.empty) =
      some (["p".toList, "CMakeLists.txt".toList], Text.encode "add_subdirectory(lib)".toList) := by cbv
  have hnone : (alone "add_subdirectory(lib)").file? (descriptionPath (Path.ofString "/p") (Path.ofString "lib")) = none := by
    cbv
  have hscan : (Command.scan "add_subdirectory(lib)").map (pendingOf Path.empty) = [.enter (Path.ofString "lib")] := by
    decide +kernel
  rw [load, loadInto_eq, hwork, hroot, trace, walk_enter_of_read hf List.not_mem_nil (Text.decode?_encode _),
    String.ofList_toList, hscan, List.append_nil, walk_enter, hnone, walk, hpath]

theorem removeTree_nested :
    (nested "add_library(a)").removeTree (Path.ofString "/p/lib") = (alone "add_subdirectory(lib)", .ok ()) := by
  cbv

theorem description_in_build_directory_is_lost :
    let fs := nested "add_library(a)"
    let p := load fs (Path.ofString "/p") (Path.ofString "/p/lib") .unix
    ∃ after command, p.generate fs .debug .x64 = (after, .ok command) ∧
      (∃ path ∈ p.files, fs.readText path = .ok "add_library(a)" ∧ after.file? path = none) ∧
      (p.reload after).files ≠ p.files ∧ (p.reload after).targets ≠ p.targets := by
  intro fs p
  have hp : p = _ := @load_nested _ "a" (by decide +kernel) (Path.ofString "/p/lib")
  have hdirs : p.rootDir = Path.ofString "/p" ∧ p.buildDir = Path.ofString "/p/lib" ∧ p.platform = .unix := by
    rw [hp]
    decide +kernel
  obtain ⟨hroot, hbuild, hplatform⟩ := hdirs
  have hgenerate : p.generate fs .debug .x64 =
      (alone "add_subdirectory(lib)", .ok (p.configureLine .debug .x64).render) := by
    rw [generate, hbuild, removeTree_nested]
  have hagain : p.reload (alone "add_subdirectory(lib)") =
      { load (alone "add_subdirectory(lib)") (Path.ofString "/p") (Path.ofString "/p/lib") .unix with
        cmake := p.cmake } := by rw [reload, hroot, hbuild, hplatform]
  have hread : fs.readText (Path.ofString "/p/lib/CMakeLists.txt") = .ok "add_library(a)" :=
    FileSystem.readText_eq_ok_iff.2 ⟨_, _, _, (file?_nested _).2, Text.decode?_encode _, String.ofList_toList⟩
  refine ⟨_, _, hgenerate, ⟨Path.ofString "/p/lib/CMakeLists.txt", ?_, hread, by cbv⟩, ?_⟩
  · rw [hp]
    decide +kernel
  · rw [hagain, load_without_subdirectory, hp]
    decide +kernel

end CMakeHelm.Project
