import CMakeHelm.Proofs.Path.Normal
import CMakeHelm.Proofs.Project.RepeatedLoad
import Mathlib

namespace CMakeHelm.Project

/-- The directory that the arguments of nested commands come to from `d` on, normalised after each of them. -/
def nestedDir (d : Path) (args : List String) : Path :=
  args.foldl (fun d arg => (d.join (Path.ofString arg)).normalize) d

/-- The directory that the same arguments lead to when they stand one behind the other as they are written. -/
def joinedDir (root d : Path) (args : List String) : Path :=
  args.foldl (fun d arg => d.join (Path.ofString arg)) (root.join d)

/-- The description file there. -/
def joinedFile (root d : Path) (args : List String) : Path := ((joinedDir root d args).join descriptionFile).normalize

inductive Nests (fs : FileSystem) (root d : Path) : List String → Prop
  | nil : Nests fs root d []
  | concat {args : List String} {text dir : String} (h : Nests fs root d args)
      (hread : fs.readText (joinedFile root d args) = .ok text) (hdir : .addSubdirectory dir ∈ Command.scan text) :
      Nests fs root d (args ++ [dir])

def Pending.subdir : Pending → Path
  | .enter d => d
  | .command d _ => d

/-- What is met is the description file that the arguments lead to, or stands in the directory that they come to. -/
def Met.IsAt (root d : Path) (args : List String) : Met → Prop
  | .file path => path = joinedFile root d args
  | .command e _ => e = nestedDir d args

variable {fs : FileSystem} {root d e path : Path} {args : List String} {text : String} {c : Command} {m : Met}
variable {p : Project} {mets : List Met} {seen : List Location} {pending : List Pending}

theorem nestedDir_concat (d : Path) (args : List String) (arg : String) :
    nestedDir d (args ++ [arg]) = ((nestedDir d args).join (Path.ofString arg)).normalize := by simp [nestedDir]

theorem joinedDir_concat (root d : Path) (args : List String) (arg : String) :
    joinedDir root d (args ++ [arg]) = (joinedDir root d args).join (Path.ofString arg) := by simp [joinedDir]

theorem stack_join_nestedDir (root d : Path) (args : List String) :
    (root.join (nestedDir d args)).stack = (joinedDir root d args).stack := by
  induction args using List.reverseRecOn with
  | nil => rfl
  | append_singleton args arg ih =>
      rw [nestedDir_concat, joinedDir_concat, Path.stack_join_normalize, Path.stack_join_join, Path.stack_join_congr ih]

theorem descriptionPath_nestedDir (root d : Path) (args : List String) :
    descriptionPath root (nestedDir d args) = joinedFile root d args :=
  Path.normalize_eq_of_stack_eq (Path.stack_join_congr (stack_join_nestedDir root d args) descriptionFile)

theorem descriptionPath_concat (h : descriptionPath root e = joinedFile root d args) (arg : String) :
    descriptionPath root (e.join (Path.ofString arg)).normalize = joinedFile root d (args ++ [arg]) := by
  rw [← descriptionPath_nestedDir] at h ⊢
  rw [nestedDir_concat]
  exact descriptionPath_subdirectory h (Path.ofString arg)

theorem Nests.pendingOf (h : Nests fs root d args) (hread : fs.readText (joinedFile root d args) = .ok text)
    (hc : c ∈ Command.scan text) :
    ∃ args', Nests fs root d args' ∧ (pendingOf (nestedDir d args) c).subdir = nestedDir d args' := by
  cases c with
  | addSubdirectory dir => exact ⟨args ++ [dir], h.concat hread hc, (nestedDir_concat d args dir).symm⟩
  | _ => exact ⟨args, h, rfl⟩

theorem exists_nests_of_met (hp : ∀ w ∈ pending, ∃ args, Nests fs root d args ∧ w.subdir = nestedDir d args)
    (hm : m ∈ walk fs root seen pending) : ∃ args, Nests fs root d args ∧ m.IsAt root d args := by
  -- New work comes from files that are read only, and is at most one command deeper than the file.
  fun_induction walk fs root seen pending with
  | case1 => cases hm
  | case2 seen sub c rest ih =>
      rcases List.mem_cons.1 hm with rfl | hm
      · exact hp _ List.mem_cons_self
      · exact ih (fun w hw => hp w (List.mem_cons_of_mem _ hw)) hm
  | case3 seen sub rest hf ih => exact ih (fun w hw => hp w (List.mem_cons_of_mem _ hw)) hm
  | case4 seen sub rest l content hf hl ih => exact ih (fun w hw => hp w (List.mem_cons_of_mem _ hw)) hm
  | case5 seen sub rest l content hf hl hd ih => exact ih (fun w hw => hp w (List.mem_cons_of_mem _ hw)) hm
  | case6 seen sub rest l content hf hl text hd ih =>
      obtain ⟨args, hnests, hsub⟩ := hp _ List.mem_cons_self
      obtain rfl : sub = nestedDir d args := hsub
      have hfile := descriptionPath_nestedDir root d args
      rcases List.mem_cons.1 hm with rfl | hm
      · exact ⟨args, hnests, hfile⟩
      · have hread : fs.readText (joinedFile root d args) = .ok (String.ofList text) :=
          FileSystem.readText_eq_ok_iff.2 ⟨l, content, text, hfile ▸ hf, hd, rfl⟩
        refine ih (fun w hw => ?_) hm
        rcases List.mem_append.1 hw with hw | hw
        · obtain ⟨c, hc, rfl⟩ := List.mem_map.1 hw
          exact hnests.pendingOf hread hc
        · exact hp w (List.mem_cons_of_mem _ hw)

theorem exists_nests_of_mem_trace (hm : m ∈ trace fs root d) : ∃ args, Nests fs root d args ∧ m.IsAt root d args := by
  refine exists_nests_of_met (fun w hw => ?_) hm
  cases List.mem_singleton.1 hw
  exact ⟨[], .nil, rfl⟩

theorem met_of_nests (hfree : fs.LinkFree) (hroot : root.isAbsolute = true) (h : Nests fs root d args)
    (hread : fs.readText (joinedFile root d args) = .ok text) : .file (joinedFile root d args) ∈ trace fs root d := by
  induction h generalizing text with
  | nil => exact (covered_of_pending hfree hroot List.mem_cons_self).met hread
  | @concat args scanned dir h hscanned hdir ih =>
      obtain ⟨e, text', hfile, htext, hdirs⟩ := covered_of_met hfree hroot (ih hscanned)
      obtain rfl : scanned = text' := Except.ok.inj (hscanned.symm.trans htext)
      have hcovered := hdirs dir hdir
      rw [descriptionPath_concat hfile.symm] at hcovered
      exact hcovered.met hread

theorem of_mem_files_foldl_meet (hpath : path ∈ (mets.foldl meet p).files) : path ∈ p.files ∨ .file path ∈ mets := by
  induction mets generalizing p with
  | nil => exact .inl hpath
  | cons m mets ih =>
      rcases ih hpath with hpath | hmem
      · cases m with
        | command subdir c => exact .inl (files_perform p subdir c ▸ hpath)
        | file file =>
            rw [meet, addFile] at hpath
            split at hpath
            · exact .inl hpath
            · rcases List.mem_append.1 hpath with hbefore | hrest
              · exact .inl ((List.takeWhile_sublist _).subset hbefore)
              · rcases List.mem_cons.1 hrest with rfl | hafter
                · exact .inr List.mem_cons_self
                · exact .inl ((List.dropWhile_sublist _).subset hafter)
      · exact .inr (List.mem_cons_of_mem m hmem)

/-- A normal form has no `.` and consists of names, below the root or below a run of `..`, as its path is absolute or not.
It is what is left of the path's components when nothing cancels any more, it is its own normal form, and paths may be
normalised before they are joined. So the description file that is looked for when commands are nested is the one that
their arguments lead to as they are written, and each new file and target that loading gives to a project comes from
such arguments. Without links nothing is missing: wherever they lead to a text, it is watched. -/
theorem normal_forms_compose (a b : Path) (fs : FileSystem) (p : Project) (d : Path) :
    (.here ∉ a.normalize.components ∧
      (∃ (ups : Nat) (names : List (List Char)), a.normalize.components =
        (if a.isAbsolute then [.root] else List.replicate ups .up) ++ names.map .name) ∧
      (∀ cs, cs = a.normalize.components ↔ Path.CancelsTo a.components cs ∧ ∀ ds, ¬ Path.Cancels cs ds) ∧
      a.normalize.isAbsolute = a.isAbsolute ∧
      a.normalize.normalize = a.normalize ∧
      (a.join b).normalize = (a.normalize.join b.normalize).normalize) ∧
    (∀ args, descriptionPath p.rootDir (nestedDir d args) = joinedFile p.rootDir d args) ∧
    (∀ path ∈ (p.loadInto fs d).files,
      path ∈ p.files ∨ ∃ args, Nests fs p.rootDir d args ∧ path = joinedFile p.rootDir d args) ∧
    (∀ t ∈ (p.loadInto fs d).targets,
      t.key ∈ p.keys ∨ ∃ args, Nests fs p.rootDir d args ∧ t.subdir = nestedDir d args) ∧
    (fs.LinkFree → p.rootDir.isAbsolute = true → ∀ args, Nests fs p.rootDir d args →
      ∀ text, fs.readText (joinedFile p.rootDir d args) = .ok text →
        (p.loadInto fs d).watches (joinedFile p.rootDir d args) = true) := by
  obtain ⟨ups, names, hcomponents⟩ := a.exists_components_normalize
  have hhere : .here ∉ a.normalize.components := by
    rw [hcomponents]
    split <;> simp
  refine ⟨⟨hhere, ⟨ups, names, hcomponents⟩, a.eq_components_normalize_iff, Path.isAbsolute_normalize,
    Path.normalize_normalize, Path.normalize_join a b⟩, descriptionPath_nestedDir p.rootDir d, ?_⟩
  rw [loadInto_eq]
  refine ⟨fun path hpath => ?_, fun t ht => ?_, fun hfree hroot args hnests text hread => ?_⟩
  · exact (of_mem_files_foldl_meet hpath).imp_right exists_nests_of_mem_trace
  · refine (exists_command_of_mem_targets ht).imp_right ?_
    rintro ⟨c, hmet, -⟩
    exact exists_nests_of_mem_trace hmet
  · exact (known_foldl_meet p _).recorded _ (met_of_nests hfree hroot hnests hread)

def winding : FileSystem where
  workDir := []
  entries :=
    [(["p".toList], .directory),
      (["p".toList, "CMakeLists.txt".toList], .file (Text.encode "add_subdirectory(lib/../src)".toList) false),
      (["p".toList, "src".toList], .directory),
      (["p".toList, "src".toList, "CMakeLists.txt".toList],
        .file (Text.encode "add_subdirectory(../../q/.)".toList) false),
      (["q".toList], .directory),
      (["q".toList, "CMakeLists.txt".toList], .file (Text.encode "add_library(a)".toList) false)]

def windingProject : Project := new winding.workPath (Path.ofString "/p") (Path.ofString "/p/build") .unix

theorem load_winding :
    windingProject.loadInto winding Path.empty =
      [.file (Path.ofString "/p/CMakeLists.txt"), .file (Path.ofString "/p/src/CMakeLists.txt"),
        .file (Path.ofString "/q/CMakeLists.txt"),
        .command (Path.ofString "../q") (.addLibrary "a")].foldl meet windingProject := by
  have hroot : windingProject.rootDir = Path.ofString "/p" := by decide +kernel
  have htop : winding.file? (descriptionPath (Path.ofString "/p") Path.empty) =
      some (["p".toList, "CMakeLists.txt".toList], Text.encode "add_subdirectory(lib/../src)".toList) := by cbv
  have hsrc : winding.file? (descriptionPath (Path.ofString "/p") (Path.ofString "src")) =
      some (["p".toList, "src".toList, "CMakeLists.txt".toList], Text.encode "add_subdirectory(../../q/.)".toList) := by
    cbv
  have hq : winding.file? (descriptionPath (Path.ofString "/p") (Path.ofString "../q")) =
      some (["q".toList, "CMakeLists.txt".toList], Text.encode "add_library(a)".toList) := by cbv
  have hsub : (Command.scan "add_subdirectory(lib/../src)").map (pendingOf Path.empty) =
      [.enter (Path.ofString "src")] := by decide +kernel
  have hsub' : (Command.scan "add_subdirectory(../../q/.)").map (pendingOf (Path.ofString "src")) =
      [.enter (Path.ofString "../q")] := by decide +kernel
  have hsub'' : (Command.scan "add_library(a)").map (pendingOf (Path.ofString "../q")) =
      [.command (Path.ofString "../q") (.addLibrary "a")] := by decide +kernel
  rw [loadInto_eq, hroot, trace, walk_enter_of_read htop List.not_mem_nil (Text.decode?_encode _),
    String.ofList_toList, hsub, List.append_nil, walk_enter_of_read hsrc (by decide) (Text.decode?_encode _),
    String.ofList_toList, hsub', List.append_nil, walk_enter_of_read hq (by decide) (Text.decode?_encode _),
    String.ofList_toList, hsub'', List.append_nil, walk, walk]
  rfl

theorem winding_arguments_compose :
    let p := windingProject
    let q := p.loadInto winding Path.empty
    let args := ["lib/../src", "../../q/."]
    let file := Path.ofString "/q/CMakeLists.txt"
    winding.LinkFree ∧ p.rootDir.isAbsolute = true ∧ Nests winding p.rootDir Path.empty args ∧
      joinedFile p.rootDir Path.empty args = file ∧ descriptionPath p.rootDir (nestedDir Path.empty args) = file ∧
      winding.readText file = .ok "add_library(a)" ∧ q.watches file = true ∧
      (file ∈ q.files ∧ ∃ args, Nests winding p.rootDir Path.empty args ∧ file = joinedFile p.rootDir Path.empty args) ∧
      ∃ t ∈ q.targets, t.key = ⟨"a", .build⟩ ∧
        ∃ args, Nests winding p.rootDir Path.empty args ∧ t.subdir = nestedDir Path.empty args := by
  intro p q args file
  have hroot : p.rootDir = Path.ofString "/p" := by decide +kernel
  have hfree : winding.LinkFree := by
    intro l target hm
    simp [winding] at hm
  have htop : winding.readText (joinedFile p.rootDir Path.empty []) = .ok "add_subdirectory(lib/../src)" := by
    rw [hroot]
    cbv
  have hsrc : winding.readText (joinedFile p.rootDir Path.empty ["lib/../src"]) = .ok "add_subdirectory(../../q/.)" := by
    rw [hroot]
    cbv
  have hfile : joinedFile p.rootDir Path.empty args = file := by
    rw [hroot]
    decide +kernel
  have hread : winding.readText file = .ok "add_library(a)" :=
    (by cbv : winding.readText (Path.ofString "/q/CMakeLists.txt") = .ok "add_library(a)")
  have hnests : Nests winding p.rootDir Path.empty args :=
    (Nests.nil.concat htop (by decide +kernel)).concat hsrc (by decide +kernel)
  have hq : q = _ := load_winding
  obtain ⟨hrecorded, t, ht, hkey⟩ : file ∈ q.files ∧ ∃ t ∈ q.targets, t.key = ⟨"a", .build⟩ := by
    rw [hq]
    decide +kernel
  have hnofiles : file ∉ p.files := List.not_mem_nil
  have hnew : t.key ∉ p.keys := by
    rw [hkey]
    decide +kernel
  obtain ⟨-, hpath, hfiles, htargets, hwatched⟩ :=
    normal_forms_compose (Path.ofString "x/./../../y/") (Path.ofString "../../z") winding p Path.empty
  refine ⟨hfree, by rw [hroot]; decide, hnests, hfile, (hpath args).trans hfile, hread, ?_,
    ⟨hrecorded, (hfiles file hrecorded).resolve_left hnofiles⟩,
    t, ht, hkey, (htargets t ht).resolve_left hnew⟩
  rw [← hfile]
  exact hwatched hfree (by rw [hroot]; decide) args hnests _ (hfile ▸ hread)

end CMakeHelm.Project
