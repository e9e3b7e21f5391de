import CMakeHelm.Proofs.FileSystem
import CMakeHelm.Proofs.Project.Trace
import Mathlib

namespace CMakeHelm.Project

variable {fs : FileSystem} {root root' d d' : Path} {seen : List Location} {l : Location} {content : Text.Bytes}
variable {pending : List Pending} {path path' : Path} {text : List Char}

theorem stack_descriptionPath (root d : Path) :
    (descriptionPath root d).stack = .name descriptionFile.chars :: (root.join d).stack := by
  have ha : descriptionFile.isAbsolute = false := by decide
  have hi : descriptionFile.inner = [.name descriptionFile.chars] := by decide
  rw [descriptionPath, Path.stack_normalize, Path.stack_join, ha, hi]
  exact Path.resolve_name ..

theorem normalize_descriptionPath (root d : Path) : (descriptionPath root d).normalize = descriptionPath root d :=
  Path.normalize_normalize

theorem descriptionPath_eq_iff :
    descriptionPath root d = descriptionPath root' d' ↔ (root.join d).stack = (root'.join d').stack := by
  constructor
  · intro h
    have hs := congrArg Path.stack h
    rw [stack_descriptionPath, stack_descriptionPath] at hs
    exact (List.cons.inj hs).2
  · intro h
    rw [← normalize_descriptionPath root, ← normalize_descriptionPath root']
    apply Path.normalize_eq_of_stack_eq
    rw [stack_descriptionPath, stack_descriptionPath, h]

theorem isAbsolute_descriptionPath (hr : root.isAbsolute = true) (d : Path) :
    (descriptionPath root d).isAbsolute = true := by
  rw [descriptionPath, Path.isAbsolute_normalize, Path.isAbsolute_join, Path.isAbsolute_join, hr]
  simp

theorem descriptionPath_subdirectory (h : descriptionPath root d = descriptionPath root d') (x : Path) :
    descriptionPath root (d.join x).normalize = descriptionPath root (d'.join x).normalize := by
  rw [descriptionPath_eq_iff] at h ⊢
  rw [Path.stack_join_normalize, Path.stack_join_normalize, Path.stack_join_join, Path.stack_join_join,
    Path.stack_join_congr h]

theorem descriptionPath_absolute (hr : root.isAbsolute = true) (workDir d : Path) :
    descriptionPath (root.absolute workDir) d = descriptionPath root d := by
  obtain ⟨-, hs⟩ := Path.absolute_of_isAbsolute hr workDir
  exact descriptionPath_eq_iff.2 (Path.stack_join_congr hs d)

theorem descriptionPath_empty (root : Path) :
    descriptionPath root Path.empty = (root.join descriptionFile).normalize :=
  Path.normalize_eq_of_stack_eq (Path.stack_join_congr (Path.stack_join_empty root) descriptionFile)

theorem files_declare (p : Project) (t : Target) : (p.declare t).files = p.files := by
  unfold declare
  split <;> rfl

theorem files_perform (p : Project) (subdir : Path) (c : Command) : (p.perform subdir c).files = p.files := by
  cases c <;> simp [perform, files_declare, assignAll]

theorem mem_addFile {p : Project} (hp : ∀ file ∈ p.files, file.normalize = file) (hn : path'.normalize = path') :
    path ∈ (p.addFile path').files ↔ path ∈ p.files ∨ path = path' := by
  unfold addFile
  split
  · next hs =>
    obtain ⟨file, hfile, hsame⟩ := List.any_eq_true.1 hs
    obtain rfl : file = path' := (Path.same_iff_eq (hp file hfile) hn).1 hsame
    constructor
    · exact .inl
    · rintro (h | rfl)
      · exact h
      · exact hfile
  · have hparts : path ∈ p.files ↔
        path ∈ p.files.takeWhile (·.before path') ∨ path ∈ p.files.dropWhile (·.before path') := by
      rw [← List.mem_append, List.takeWhile_append_dropWhile]
    simp only [List.mem_append, List.mem_cons, hparts]
    rw [or_right_comm, or_assoc]

theorem mem_files_foldl_meet {p : Project} {mets : List Met} (hp : ∀ file ∈ p.files, file.normalize = file)
    (hn : ∀ file, .file file ∈ mets → file.normalize = file) :
    path ∈ (mets.foldl meet p).files ↔ path ∈ p.files ∨ .file path ∈ mets := by
  induction mets generalizing p with
  | nil => simp
  | cons m mets ih =>
      have hrest : ∀ file, .file file ∈ mets → file.normalize = file := fun file hm =>
        hn file (List.mem_cons_of_mem m hm)
      cases m with
      | file file =>
          have hfile : file.normalize = file := hn file List.mem_cons_self
          have hadd : ∀ other ∈ (p.addFile file).files, other.normalize = other := by
            intro other hm
            rcases (mem_addFile hp hfile).1 hm with hm | rfl
            · exact hp other hm
            · exact hfile
          rw [List.foldl_cons, meet, ih hadd hrest, mem_addFile hp hfile, or_assoc]
          simp
      | command subdir c =>
          have hsame : (p.perform subdir c).files = p.files := files_perform p subdir c
          rw [List.foldl_cons, meet, ih (hsame ▸ hp) hrest, hsame]
          simp

/-- A set of normal paths that, as far as these hold texts, has the description file of the root and, with that of a
directory, those of the subdirectories it names. -/
structure Closed (fs : FileSystem) (root : Path) (S : Set Path) : Prop where
  normal : ∀ path ∈ S, path.normalize = path
  root_mem : (∃ text, fs.readText (root.join descriptionFile).normalize = .ok text) →
    (root.join descriptionFile).normalize ∈ S
  subdirectory_mem : ∀ (d : Path) (text dir : String), descriptionPath root d ∈ S →
    fs.readText (descriptionPath root d) = .ok text → .addSubdirectory dir ∈ Command.scan text →
    (∃ text', fs.readText (descriptionPath root (d.join (Path.ofString dir)).normalize) = .ok text') →
    descriptionPath root (d.join (Path.ofString dir)).normalize ∈ S

theorem enter_mem_map_pendingOf {commands : List Command} {sub : Path} :
    .enter sub ∈ commands.map (pendingOf d) ↔
      ∃ dir, .addSubdirectory dir ∈ commands ∧ sub = (d.join (Path.ofString dir)).normalize := by
  rw [List.mem_map]
  constructor
  · rintro ⟨c, hc, he⟩
    cases c <;> cases he
    next dir => exact ⟨dir, hc, rfl⟩
  · rintro ⟨dir, hc, rfl⟩
    exact ⟨_, hc, rfl⟩

theorem Closed.mem_of_met {S : Set Path} (h : Closed fs root S)
    (hp : ∀ d, .enter d ∈ pending → (∃ text, fs.readText (descriptionPath root d) = .ok text) →
      descriptionPath root d ∈ S)
    (hm : .file path ∈ walk fs root seen pending) : path ∈ S := by
  fun_induction walk fs root seen pending with
  | case1 => cases hm
  | case2 seen sub c rest ih =>
      rcases List.mem_cons.1 hm with he | hm
      · cases he
      · exact ih (fun d hd => hp d (List.mem_cons_of_mem _ hd)) hm
  | case3 seen sub rest hf ih => exact ih (fun d hd => hp d (List.mem_cons_of_mem _ hd)) hm
  | case4 seen sub rest l content hf hl ih => exact ih (fun d hd => hp d (List.mem_cons_of_mem _ hd)) hm
  | case5 seen sub rest l content hf hl hd ih => exact ih (fun d hd => hp d (List.mem_cons_of_mem _ hd)) hm
  | case6 seen sub rest l content hf hl text hd ih =>
      have htext : fs.readText (descriptionPath root sub) = .ok (String.ofList text) :=
        FileSystem.readText_eq_ok_iff.2 ⟨l, content, text, hf, hd, rfl⟩
      have hsub : descriptionPath root sub ∈ S := hp sub List.mem_cons_self ⟨_, htext⟩
      rcases List.mem_cons.1 hm with he | hm
      · cases he
        exact hsub
      · refine ih (fun d hd hread => ?_) hm
        rcases List.mem_append.1 hd with hd | hd
        · obtain ⟨dir, hdir, rfl⟩ := enter_mem_map_pendingOf.1 hd
          exact h.subdirectory_mem sub _ dir hsub htext hdir hread
        · exact hp d (List.mem_cons_of_mem _ hd) hread

theorem closed_setOf_normal (fs : FileSystem) (root : Path) : Closed fs root {path | path.normalize = path} where
  normal _ h := h
  root_mem _ := Path.normalize_normalize
  subdirectory_mem _ _ _ _ _ _ _ := Path.normalize_normalize

theorem normalize_of_met (hm : .file path ∈ walk fs root seen pending) : path.normalize = path :=
  (closed_setOf_normal fs root).mem_of_met (fun _ _ _ => Path.normalize_normalize) hm

theorem exists_readText_of_met (hm : .file path ∈ walk fs root seen pending) :
    ∃ d text, path = descriptionPath root d ∧ fs.readText path = .ok text := by
  have hclosed : Closed fs root {path | ∃ d text, path = descriptionPath root d ∧ fs.readText path = .ok text} := {
    normal := by
      rintro _ ⟨d, _, rfl, -⟩
      exact normalize_descriptionPath root d
    root_mem := by
      rw [← descriptionPath_empty]
      exact fun ⟨text, htext⟩ => ⟨_, text, rfl, htext⟩
    subdirectory_mem := fun _ _ _ _ _ _ ⟨text, htext⟩ => ⟨_, text, rfl, htext⟩ }
  exact hclosed.mem_of_met (fun d _ ⟨text, htext⟩ => ⟨d, text, rfl, htext⟩) hm

theorem mem_files_load_iff (fs : FileSystem) (root build : Path) (platform : Platform) :
    path ∈ (load fs root build platform).files ↔
      .file path ∈ trace fs (root.absolute fs.workPath) Path.empty := by
  have hnew : ∀ file ∈ (new fs.workPath root build platform).files, file.normalize = file := by
    intro file hm
    cases hm
  have hmets : ∀ file, .file file ∈ trace fs (root.absolute fs.workPath) Path.empty → file.normalize = file :=
    fun file hm => normalize_of_met hm
  rw [load, loadInto_eq]
  refine (mem_files_foldl_meet hnew hmets).trans ?_
  constructor
  · rintro (hm | hm)
    · cases hm
    · exact hm
  · exact .inr

/-- The file is met, or its place was reached before, if it can be read at all. -/
def Covered (fs : FileSystem) (seen : List Location) (mets : List Met) (path : Path) : Prop :=
  ∀ l content text, fs.file? path = some (l, content) → Text.decode? content = some text →
    l ∈ seen ∨ .file path ∈ mets

theorem Covered.mono {mets mets' : List Met} (h : Covered fs seen mets path) (hs : mets ⊆ mets') :
    Covered fs seen mets' path :=
  fun l content text hf hd => (h l content text hf hd).imp_right fun hm => hs hm

theorem Covered.met {mets : List Met} {text : String} (h : Covered fs [] mets path)
    (ht : fs.readText path = .ok text) : .file path ∈ mets := by
  obtain ⟨l, content, chars, hf, hd, -⟩ := FileSystem.readText_eq_ok_iff.1 ht
  exact (h l content chars hf hd).resolve_left (by simp)

theorem covered_of_unreadable {mets : List Met} (hf : fs.file? path = some (l, content))
    (hnone : Text.decode? content = none) : Covered fs seen mets path := by
  intro l' content' text hf' hd
  rw [hf] at hf'
  cases hf'
  simp [hnone] at hd

section
variable (hfree : fs.LinkFree) (hroot : root.isAbsolute = true)
include hfree hroot

theorem Covered.of_reached {mets : List Met} (h : Covered fs (l :: seen) mets (descriptionPath root d))
    (hf : fs.file? (descriptionPath root d') = some (l, content))
    (h' : Covered fs seen mets (descriptionPath root d')) : Covered fs seen mets (descriptionPath root d) := by
  intro l' content' text hf' hd
  rcases h l' content' text hf' hd with hl | hm
  · rcases List.mem_cons.1 hl with rfl | hl
    · have he : descriptionPath root d = descriptionPath root d' :=
        hfree.eq_of_file? (isAbsolute_descriptionPath hroot d) (normalize_descriptionPath root d)
          (isAbsolute_descriptionPath hroot d') (normalize_descriptionPath root d') hf' hf
      rw [he] at hf' ⊢
      exact h' l' content' text hf' hd
    · exact .inl hl
  · exact .inr hm

theorem Covered.of_read {mets : List Met} (h : Covered fs (l :: seen) mets (descriptionPath root d))
    (hf : fs.file? (descriptionPath root d') = some (l, content)) :
    Covered fs seen (.file (descriptionPath root d') :: mets) (descriptionPath root d) := by
  have hread : Covered fs seen (.file (descriptionPath root d') :: mets) (descriptionPath root d') :=
    fun _ _ _ _ _ => .inr List.mem_cons_self
  exact (h.mono (List.subset_cons_self _ _)).of_reached hfree hroot hf hread

theorem covered_of_pending (hd : .enter d ∈ pending) :
    Covered fs seen (walk fs root seen pending) (descriptionPath root d) := by
  fun_induction walk fs root seen pending with
  | case1 => cases hd
  | case2 seen sub c rest ih =>
      rcases List.mem_cons.1 hd with he | hd
      · cases he
      · exact (ih hd).mono (List.subset_cons_self _ _)
  | case3 seen sub rest hf ih =>
      rcases List.mem_cons.1 hd with he | hd
      · cases he
        intro l content text hf'
        simp [hf] at hf'
      · exact ih hd
  | case4 seen sub rest l content hf hl ih =>
      rcases List.mem_cons.1 hd with he | hd
      · cases he
        intro l' content' text hf' _
        rw [hf] at hf'
        cases hf'
        exact .inl hl
      · exact ih hd
  | case5 seen sub rest l content hf hl hnone ih =>
      have hsub : Covered fs seen (walk fs root (l :: seen) rest) (descriptionPath root sub) :=
        covered_of_unreadable hf hnone
      rcases List.mem_cons.1 hd with he | hd
      · cases he
        exact hsub
      · exact (ih hd).of_reached hfree hroot hf hsub
  | case6 seen sub rest l content hf hl text htext ih =>
      rcases List.mem_cons.1 hd with he | hd
      · cases he
        exact fun _ _ _ _ _ => .inr List.mem_cons_self
      · exact (ih (List.mem_append_right _ hd)).of_read hfree hroot hf

theorem covered_of_met (hm : .file path ∈ walk fs root seen pending) :
    ∃ d text, path = descriptionPath root d ∧ fs.readText path = .ok text ∧
      ∀ dir, .addSubdirectory dir ∈ Command.scan text →
        Covered fs seen (walk fs root seen pending) (descriptionPath root (d.join (Path.ofString dir)).normalize) := by
  fun_induction walk fs root seen pending with
  | case1 => cases hm
  | case2 seen sub c rest ih =>
      rcases List.mem_cons.1 hm with he | hm
      · cases he
      · obtain ⟨d, text, hpath, htext, hdirs⟩ := ih hm
        exact ⟨d, text, hpath, htext, fun dir hdir => (hdirs dir hdir).mono (List.subset_cons_self _ _)⟩
  | case3 seen sub rest hf ih => exact ih hm
  | case4 seen sub rest l content hf hl ih => exact ih hm
  | case5 seen sub rest l content hf hl hnone ih =>
      have hsub : Covered fs seen (walk fs root (l :: seen) rest) (descriptionPath root sub) :=
        covered_of_unreadable hf hnone
      obtain ⟨d, text, hpath, htext, hdirs⟩ := ih hm
      exact ⟨d, text, hpath, htext, fun dir hdir => (hdirs dir hdir).of_reached hfree hroot hf hsub⟩
  | case6 seen sub rest l content hf hl text hd ih =>
      rcases List.mem_cons.1 hm with he | hm
      · cases he
        refine ⟨sub, _, rfl, FileSystem.readText_eq_ok_iff.2 ⟨l, content, text, hf, hd, rfl⟩, fun dir hdir => ?_⟩
        have hpending : .enter (sub.join (Path.ofString dir)).normalize ∈
            (Command.scan (String.ofList text)).map (pendingOf sub) := enter_mem_map_pendingOf.2 ⟨dir, hdir, rfl⟩
        exact (covered_of_pending hfree hroot (List.mem_append_left rest hpending)).of_read hfree hroot hf
      · obtain ⟨d, text', hpath, htext, hdirs⟩ := ih hm
        exact ⟨d, text', hpath, htext, fun dir hdir => (hdirs dir hdir).of_read hfree hroot hf⟩

theorem closed_trace : Closed fs root {path | .file path ∈ trace fs root Path.empty} where
  normal path hm := by
    obtain ⟨d, _, rfl, -⟩ := covered_of_met hfree hroot hm
    exact normalize_descriptionPath root d
  root_mem := by
    rintro ⟨text, ht⟩
    rw [← descriptionPath_empty] at ht ⊢
    exact (covered_of_pending hfree hroot List.mem_cons_self).met ht
  subdirectory_mem := by
    rintro d text dir hm ht hdir ⟨text', ht'⟩
    obtain ⟨d', text'', hpath, ht'', hdirs⟩ := covered_of_met hfree hroot hm
    obtain rfl : text = text'' := Except.ok.inj (ht.symm.trans ht'')
    have hsame := descriptionPath_subdirectory hpath (Path.ofString dir)
    rw [hsame] at ht' ⊢
    exact (hdirs dir hdir).met ht'

theorem isLeast_trace : IsLeast {S | Closed fs root S} {path | .file path ∈ trace fs root Path.empty} := by
  refine ⟨closed_trace hfree hroot, fun S hS path hm => ?_⟩
  refine Closed.mem_of_met hS (fun d hd => ?_) hm
  cases List.mem_singleton.1 hd
  rw [descriptionPath_empty]
  exact hS.root_mem

end

theorem Closed.of_eq {S : Set Path} (h : Closed fs root S)
    (he : ∀ d, descriptionPath root' d = descriptionPath root d) : Closed fs root' S where
  normal := h.normal
  root_mem := by
    rw [← descriptionPath_empty, he, descriptionPath_empty]
    exact h.root_mem
  subdirectory_mem d text dir := by
    rw [he, he]
    exact h.subdirectory_mem d text dir

/-- Without links and with an absolute root, the files of a loaded project are the least set of normal paths that has
the description file of the root and, with that of a directory, those of the subdirectories that it names. -/
theorem files_load_isLeast (hfree : fs.LinkFree) (hroot : root.isAbsolute = true) (build : Path) (platform : Platform) :
    IsLeast {S | Closed fs root S} {path | path ∈ (load fs root build platform).files} := by
  have hpaths := descriptionPath_absolute hroot fs.workPath
  have habsolute := (Path.absolute_of_isAbsolute hroot fs.workPath).1
  obtain ⟨hclosed, hleast⟩ := isLeast_trace hfree habsolute
  simp only [mem_files_load_iff]
  exact ⟨hclosed.of_eq fun d => (hpaths d).symm, fun S hS => hleast (Closed.of_eq hS hpaths)⟩

def looped : FileSystem where
  workDir := []
  entries :=
    [(["p".toList], .directory),
      (["p".toList, "CMakeLists.txt".toList],
        .file (Text.encode "add_subdirectory(lib)\nadd_subdirectory(none)".toList) false),
      (["p".toList, "lib".toList], .directory),
      (["p".toList, "lib".toList, "CMakeLists.txt".toList],
        .file (Text.encode "add_subdirectory(../lib)\nadd_subdirectory(..)".toList) false)]

theorem files_looped_isLeast :
    looped.LinkFree ∧ (Path.ofString "/p").isAbsolute = true ∧
      IsLeast {S | Closed looped (Path.ofString "/p") S}
        {path | path ∈ (load looped (Path.ofString "/p") (Path.ofString "/p/build") .unix).files} ∧
      Path.ofString "/p/lib/CMakeLists.txt" ∈
        (load looped (Path.ofString "/p") (Path.ofString "/p/build") .unix).files := by
  have hfree : looped.LinkFree := by
    intro l target hm
    simp [looped] at hm
  have hroot : (Path.ofString "/p").isAbsolute = true := by decide
  have hleast := files_load_isLeast hfree hroot (Path.ofString "/p/build") .unix
  have htop : looped.readText (descriptionPath (Path.ofString "/p") Path.empty) =
      .ok "add_subdirectory(lib)\nadd_subdirectory(none)" := by cbv
  have hlib : looped.readText (Path.ofString "/p/lib/CMakeLists.txt") =
      .ok "add_subdirectory(../lib)\nadd_subdirectory(..)" := by cbv
  have hnames : .addSubdirectory "lib" ∈ Command.scan "add_subdirectory(lib)\nadd_subdirectory(none)" := by
    decide +kernel
  exact ⟨hfree, hroot, hleast,
    hleast.1.subdirectory_mem Path.empty _ "lib" (hleast.1.root_mem ⟨_, htop⟩) htop hnames ⟨_, hlib⟩⟩

end CMakeHelm.Project
