import CMakeHelm.Proofs.FileSystem.Difference
import CMakeHelm.Proofs.Path.Absolute
import CMakeHelm.Proofs.Project.Files
import CMakeHelm.Proofs.Text.Utf8

namespace CMakeHelm.Project

variable {fs fs' : FileSystem} {root build path : Path} {platform : Platform} {seen : List Location} {l : Location}
variable {pending : List Pending} {before after content : Text.Bytes}

theorem walk_eq_or_met (h : fs.Edited fs' l before after) (htext : (Text.decode? before).isSome) (hl : l ∉ seen) :
    walk fs' root seen pending = walk fs root seen pending ∨
      ∃ path content, .file path ∈ walk fs root seen pending ∧ fs.file? path = some (l, content) := by
  fun_induction walk fs root seen pending with
  | case1 => exact .inl (by rw [walk])
  | case2 seen sub c rest ih =>
      rcases ih hl with heq | ⟨path, content, hm, hf⟩
      · exact .inl (by rw [walk, heq])
      · exact .inr ⟨path, content, List.mem_cons_of_mem _ hm, hf⟩
  | case3 seen sub rest hf ih =>
      rw [walk_enter, h.file?_of_none hf]
      exact ih hl
  | case4 seen sub rest m content hf hm ih =>
      rw [walk_enter, h.file?_of_some hf]
      simpa only [if_pos hm] using ih hl
  | case5 seen sub rest m content hf hm hd ih =>
      -- a file that is passed over as no text is not the edited one, which was a text
      have hne : m ≠ l := by
        rintro rfl
        simp [← h.eq_old hf, hd] at htext
      have hl' : l ∉ m :: seen := by simp [hl, Ne.symm hne]
      rw [walk_enter, h.file?_of_some hf, if_neg hne]
      simpa only [if_neg hm, hd] using ih hl'
  | case6 seen sub rest m content hf hm text hd ih =>
      by_cases hne : m = l
      · exact .inr ⟨_, content, List.mem_cons_self, hne ▸ hf⟩
      · have hl' : l ∉ m :: seen := by simp [hl, Ne.symm hne]
        have hf' := h.file?_of_some hf
        rw [if_neg hne] at hf'
        rcases ih hl' with heq | ⟨path, content, hmem, hfile⟩
        · exact .inl (by rw [walk_enter_of_read hf' hm hd, heq])
        · exact .inr ⟨path, content, List.mem_cons_of_mem _ hmem, hfile⟩

/-- When a project is loaded differently after one text was edited, the text was read: some file of the project leads to
it, and without links the project watches it. What is read nowhere can be edited in any way. -/
theorem edited_text_is_watched (h : fs.Edited fs' l before after) (htext : (Text.decode? before).isSome)
    (hroot : root ≠ Path.empty) (hne : load fs root build platform ≠ load fs' root build platform) :
    (∃ path ∈ (load fs root build platform).files, ∃ content, fs.file? path = some (l, content)) ∧
      (fs.LinkFree → (load fs root build platform).watches (FileSystem.pathOf l) = true) := by
  have hwork : fs'.workPath = fs.workPath := by rw [FileSystem.workPath, FileSystem.workPath, h.workDir_eq]
  obtain ⟨path, content, hmet, hf⟩ : ∃ path content,
      .file path ∈ trace fs (root.absolute fs.workPath) Path.empty ∧ fs.file? path = some (l, content) := by
    rcases walk_eq_or_met h htext List.not_mem_nil with heq | hmet
    · have hload : load fs root build platform = load fs' root build platform := by
        rw [load, load, loadInto_eq, loadInto_eq, hwork]
        exact congrArg (List.foldl meet _) heq.symm
      exact absurd hload hne
    · exact hmet
  have hmem := (mem_files_load_iff fs root build platform).2 hmet
  refine ⟨⟨path, hmem, content, hf⟩, fun hfree => ?_⟩
  have habsolute : path.isAbsolute = true := by
    obtain ⟨d, -, rfl, -⟩ := exists_readText_of_met hmet
    have hchars : root.chars ≠ [] := fun he => hroot (congrArg Path.mk he)
    exact isAbsolute_descriptionPath (Path.isAbsolute_absolute hchars rfl) d
  exact List.any_eq_true.2 ⟨path, hmem, hfree.same_pathOf habsolute (normalize_of_met hmet) hf⟩

/-- A project at `/p` whose root names a subdirectory with this description file. -/
def nested (text : String) : FileSystem where
  workDir := []
  entries :=
    [(["p".toList], .directory),
      (["p".toList, "CMakeLists.txt".toList], .file (Text.encode "add_subdirectory(lib)".toList) false),
      (["p".toList, "lib".toList], .directory),
      (["p".toList, "lib".toList, "CMakeLists.txt".toList], .file (Text.encode text.toList) false)]

theorem edited_nested (before after : String) :
    (nested before).Edited (nested after) ["p".toList, "lib".toList, "CMakeLists.txt".toList]
      (Text.encode before.toList) (Text.encode after.toList) where
  workDir_eq := rfl
  elsewhere m hm := by
    cases m with
    | nil => rfl
    | cons name names =>
        have hlast : (name :: names == ["p".toList, "lib".toList, "CMakeLists.txt".toList]) = false := beq_false_of_ne hm
        simp only [FileSystem.get?, nested, List.lookup_cons, hlast]
  edited := ⟨false, rfl, rfl⟩

theorem linkFree_nested (text : String) : (nested text).LinkFree := by
  intro l target hmem
  simp [nested] at hmem

theorem file?_nested (text : String) :
    (nested text).file? (Path.ofString "/p/CMakeLists.txt") =
        some (["p".toList, "CMakeLists.txt".toList], Text.encode "add_subdirectory(lib)".toList) ∧
      (nested text).file? (Path.ofString "/p/lib/CMakeLists.txt") =
        some (["p".toList, "lib".toList, "CMakeLists.txt".toList], Text.encode text.toList) := by
  have hf : (nested "").file? (Path.ofString "/p/CMakeLists.txt") =
      some (["p".toList, "CMakeLists.txt".toList], Text.encode "add_subdirectory(lib)".toList) := by cbv
  have hf' : (nested "").file? (Path.ofString "/p/lib/CMakeLists.txt") =
      some (["p".toList, "lib".toList, "CMakeLists.txt".toList], Text.encode "".toList) := by cbv
  constructor
  · rw [(edited_nested "" text).file?_of_some hf, if_neg (by decide)]
  · rw [(edited_nested "" text).file?_of_some hf', if_pos rfl]

theorem load_of_nested {text name : String} {l l' : Location} (hwork : fs.workDir = [])
    (hf : fs.file? (Path.ofString "/p/CMakeLists.txt") = some (l, Text.encode "add_subdirectory(lib)".toList))
    (hf' : fs.file? (Path.ofString "/p/lib/CMakeLists.txt") = some (l', Text.encode text.toList)) (hne : l' ≠ l)
    (hscan : Command.scan text = [.addLibrary name]) (build : Path) :
    load fs (Path.ofString "/p") build .unix =
      [.file (Path.ofString "/p/CMakeLists.txt"), .file (Path.ofString "/p/lib/CMakeLists.txt"),
        .command (Path.ofString "lib") (.addLibrary name)].foldl meet
          (new (Path.ofString "/") (Path.ofString "/p") build .unix) := by
  have hwork : fs.workPath = Path.ofString "/" := by
    rw [FileSystem.workPath, hwork]
    rfl
  have hroot : (new (Path.ofString "/") (Path.ofString "/p") build .unix).rootDir = Path.ofString "/p" :=
    (by decide +kernel : (Path.ofString "/p").absolute (Path.ofString "/") = Path.ofString "/p")
  have hpath : descriptionPath (Path.ofString "/p") Path.empty = Path.ofString "/p/CMakeLists.txt" := by decide +kernel
  have hpath' : descriptionPath (Path.ofString "/p") (Path.ofString "lib") = Path.ofString "/p/lib/CMakeLists.txt" := by
    decide +kernel
  have hsub : (Command.scan "add_subdirectory(lib)").map (pendingOf Path.empty) = [.enter (Path.ofString "lib")] := by
    decide +kernel
  rw [← hpath] at hf
  rw [← hpath'] at hf'
  rw [load, loadInto_eq, hwork, hroot, trace, walk_enter_of_read hf List.not_mem_nil (Text.decode?_encode _),
    String.ofList_toList, hsub, List.append_nil, walk_enter_of_read hf' (by simpa using hne) (Text.decode?_encode _),
    String.ofList_toList, hscan, hpath, hpath']
  simp [pendingOf, walk]

theorem load_nested {text name : String} (hscan : Command.scan text = [.addLibrary name]) (build : Path) :
    load (nested text) (Path.ofString "/p") build .unix =
      [.file (Path.ofString "/p/CMakeLists.txt"), .file (Path.ofString "/p/lib/CMakeLists.txt"),
        .command (Path.ofString "lib") (.addLibrary name)].foldl meet
          (new (Path.ofString "/") (Path.ofString "/p") build .unix) :=
  load_of_nested rfl (file?_nested text).1 (file?_nested text).2 (by decide) hscan build

theorem nested_edit_is_watched :
    (load (nested "add_library(a)") (Path.ofString "/p") (Path.ofString "/p/build") .unix).watches
      (Path.ofString "/p/lib/CMakeLists.txt") = true := by
  have htext : (Text.decode? (Text.encode "add_library(a)".toList)).isSome := by
    rw [Text.decode?_encode]
    rfl
  have hne : load (nested "add_library(a)") (Path.ofString "/p") (Path.ofString "/p/build") .unix ≠
      load (nested "add_library(b)") (Path.ofString "/p") (Path.ofString "/p/build") .unix := by
    rw [@load_nested _ "a" (by decide +kernel), @load_nested _ "b" (by decide +kernel)]
    decide +kernel
  exact (edited_text_is_watched (edited_nested _ _) htext (by decide) hne).2 (linkFree_nested _)

end CMakeHelm.Project
