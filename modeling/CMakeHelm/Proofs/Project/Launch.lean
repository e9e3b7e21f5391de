import CMakeHelm.Project.Plan
import CMakeHelm.Proofs.Project.Settings
import CMakeHelm.Proofs.Text.Utf8
import Mathlib

namespace CMakeHelm

/-- All that the path of an executable is made of is there. -/
def Target.IsPlaced (t : Target) : Prop := (∀ c, (t.outputDir c).isSome) ∧ t.outputName.isSome

namespace Project

variable {p : Project} {t : Target} {c : Configuration} {mets : List Met}

theorem artifact_eq_ok_iff :
    (∃ path, p.artifact t c = .ok path) ↔ (t.outputDir c).isSome ∧ t.outputName.isSome := by
  unfold artifact
  cases t.outputDir c <;> cases t.outputName <;> simp

theorem run_eq_ok_iff (debugger : String) :
    (∃ launch, p.run t c debugger = .ok launch) ↔ ∃ path, p.artifact t c = .ok path := by
  unfold run
  cases p.artifact t c with
  | error e => simp [bind, Except.bind]
  | ok path => cases c <;> simp [bind, Except.bind]

/-- Targets are told apart by their keys, the implicit ones come first, what runs can also be built, and what runs has
an executable. -/
structure Consistent (p : Project) : Prop where
  distinct : p.keys.Nodup
  implicit : implicitTargets.map (·.key) <+: p.keys
  buildable : ∀ name, ⟨name, .run⟩ ∈ p.keys → ⟨name, .build⟩ ∈ p.keys
  placed : ∀ t ∈ p.targets, t.key.kind = .run → t.IsPlaced

theorem keys_declare_eq (t : Target) :
    (p.declare t).keys = if t.key ∈ p.keys then p.keys else p.keys ++ [t.key] := by
  have hmem : p.targets.any (·.key = t.key) = true ↔ t.key ∈ p.keys := by simp [keys]
  unfold declare
  simp only [hmem]
  split
  · rfl
  · simp [keys]

theorem Consistent.declare (hp : p.Consistent) (hbuild : t.key.kind = .run → ⟨t.key.name, .build⟩ ∈ p.keys)
    (hplaced : t.key.kind = .run → t.IsPlaced) : (p.declare t).Consistent where
  distinct := by
    rw [keys_declare_eq]
    split
    · exact hp.distinct
    · next hnot =>
      have hapart : ∀ k ∈ p.keys, ∀ k' ∈ [t.key], k ≠ k' := by
        rintro k hk _ hmem rfl
        exact hnot (List.mem_singleton.1 hmem ▸ hk)
      exact List.nodup_append.2 ⟨hp.distinct, by simp, hapart⟩
  implicit := by
    rw [keys_declare_eq]
    split
    · exact hp.implicit
    · exact hp.implicit.trans (List.prefix_append _ _)
  buildable name hrun := by
    rcases (mem_keys_declare t).1 hrun with hrun | he
    · exact (mem_keys_declare t).2 (.inl (hp.buildable name hrun))
    · have hkind : t.key.kind = .run := he ▸ rfl
      have hname : t.key.name = name := he ▸ rfl
      exact (mem_keys_declare t).2 (.inl (hname ▸ hbuild hkind))
  placed u hu := by
    rcases (mem_targets_declare t).1 hu with hu | ⟨rfl, -⟩
    · exact hp.placed u hu
    · exact hplaced

theorem Consistent.declare_build (hp : p.Consistent) (name : String) (subdir : Path) :
    (p.declare ((Target.build name).declaredIn subdir)).Consistent :=
  hp.declare nofun nofun

theorem outputDir_foldl_assign (t : Target) (properties : List Property) (c : Configuration) :
    (properties.foldl assign t).outputDir c =
      ((properties.filterMap (Property.dir? t.key.kind c)).getLast?).or (t.outputDir c) := by
  refine foldl_assign_eq_last (·.outputDir c) (fun u property hu => ?_) rfl properties
  rw [outputDir_assign, hu]

theorem outputName_foldl_assign (t : Target) (properties : List Property) :
    (properties.foldl assign t).outputName =
      ((properties.filterMap Property.name?).getLast?).or t.outputName :=
  foldl_assign_eq_last (·.outputName) (fun u property _ => outputName_assign u property) rfl properties

theorem isPlaced_foldl_assign (ht : t.IsPlaced) (properties : List Property) :
    (properties.foldl assign t).IsPlaced := by
  obtain ⟨hdir, hname⟩ := ht
  refine ⟨fun c => ?_, ?_⟩
  · rw [outputDir_foldl_assign, Option.isSome_or, hdir c, Bool.or_true]
  · rw [outputName_foldl_assign, Option.isSome_or, hname, Bool.or_true]

theorem Consistent.assignAll (hp : p.Consistent) (names : List String) (properties : List Property) :
    (p.assignAll names properties).Consistent where
  distinct := by rw [keys_assignAll]; exact hp.distinct
  implicit := by rw [keys_assignAll]; exact hp.implicit
  buildable := by rw [keys_assignAll]; exact hp.buildable
  placed t ht hrun := by
    obtain ⟨u, hu, rfl⟩ := (mem_targets_assignAll names properties).1 ht
    rw [key_foldl_assign] at hrun
    exact isPlaced_foldl_assign (hp.placed u hu hrun) _

theorem Consistent.addFile (hp : p.Consistent) (file : Path) : (p.addFile file).Consistent := by
  unfold Project.addFile
  split
  · exact hp
  · exact ⟨hp.distinct, hp.implicit, hp.buildable, hp.placed⟩

theorem Consistent.perform (hp : p.Consistent) (subdir : Path) (c : Command) : (p.perform subdir c).Consistent := by
  cases c with
  | addExecutable name =>
      have hbuild : ⟨name, .build⟩ ∈ (p.declare ((Target.build name).declaredIn subdir)).keys :=
        (mem_keys_declare _).2 (.inr rfl)
      have hplaced : ((Target.run name (p.binaryDir subdir).toString).declaredIn subdir).IsPlaced :=
        ⟨fun c => by cases c <;> rfl, rfl⟩
      exact (hp.declare_build name subdir).declare (fun _ => hbuild) fun _ => hplaced
  | addLibrary name => exact hp.declare_build name subdir
  | addCustomTarget name => exact hp.declare_build name subdir
  | enableTesting => exact hp.declare_build "test" subdir
  | setTargetProperties names properties => exact hp.assignAll names properties
  | addSubdirectory dir => exact hp
  | unrecognized => exact hp

theorem Consistent.meet (hp : p.Consistent) (m : Met) : (p.meet m).Consistent := by
  cases m with
  | file path => exact hp.addFile path
  | command subdir c => exact hp.perform subdir c

theorem Consistent.foldl_meet (hp : p.Consistent) (mets : List Met) : (mets.foldl Project.meet p).Consistent := by
  induction mets generalizing p with
  | nil => exact hp
  | cons m mets ih => exact ih (hp.meet m)

theorem Consistent.loadInto (hp : p.Consistent) (fs : FileSystem) (subdir : Path) :
    (p.loadInto fs subdir).Consistent := by
  rw [loadInto_eq]
  exact hp.foldl_meet _

theorem consistent_new (workDir root build : Path) (platform : Platform) :
    (new workDir root build platform).Consistent where
  distinct := (by decide : (implicitTargets.map (·.key)).Nodup)
  implicit := List.prefix_refl _
  buildable name hrun := by simp [new, keys, implicitTargets, Target.build] at hrun
  placed t ht hrun := by
    simp only [new, implicitTargets, List.mem_cons, List.not_mem_nil, or_false] at ht
    rcases ht with rfl | rfl <;> cases hrun

/-- Take in the description files from each of these directories on, on the file system that there is then. -/
def loadAll (p : Project) (loads : List (FileSystem × Path)) : Project :=
  loads.foldl (fun p load => p.loadInto load.1 load.2) p

def traceAll (root : Path) (loads : List (FileSystem × Path)) : List Met :=
  loads.flatMap fun load => trace load.1 root load.2

theorem loadAll_eq (p : Project) (loads : List (FileSystem × Path)) :
    p.loadAll loads = (traceAll p.rootDir loads).foldl meet p := by
  unfold loadAll traceAll
  induction loads generalizing p with
  | nil => rfl
  | cons load loads ih =>
      rw [List.foldl_cons, ih, loadInto_eq, (sameSetting_foldl_meet _ _).rootDir_eq, List.flatMap_cons,
        List.foldl_append]

theorem Consistent.loadAll (hp : p.Consistent) (loads : List (FileSystem × Path)) : (p.loadAll loads).Consistent := by
  induction loads generalizing p with
  | nil => exact hp
  | cons load loads ih => exact ih (hp.loadInto load.1 load.2)

theorem isSome_getLast?_filterMap_iff {α β : Type} {f : α → Option β} {l : List α} :
    (l.filterMap f).getLast?.isSome ↔ ∃ a ∈ l, (f a).isSome := by
  rw [List.getLast?_isSome, ne_eq, List.filterMap_eq_nil_iff]
  simp [Option.isSome_iff_ne_none]

theorem isSome_lastDir?_iff {k : Key} (hk : k.kind = .build) :
    (lastDir? k c mets).isSome ↔ ∃ dir, .libraryDir c dir ∈ mets.flatMap (Met.assigns k.name) := by
  rw [lastDir?, hk, isSome_getLast?_filterMap_iff]
  constructor
  · rintro ⟨property, hmem, hsome⟩
    cases property with
    | libraryDir d dir =>
        have hd : d = c := by simpa [Property.dir?] using hsome
        exact ⟨dir, hd ▸ hmem⟩
    | runtimeDir d dir => simp [Property.dir?] at hsome
    | outputName name => simp [Property.dir?] at hsome
  · rintro ⟨dir, hmem⟩
    exact ⟨_, hmem, by simp [Property.dir?]⟩

theorem isSome_lastName?_iff {k : Key} :
    (lastName? k mets).isSome ↔ ∃ name, .outputName name ∈ mets.flatMap (Met.assigns k.name) := by
  rw [lastName?, isSome_getLast?_filterMap_iff]
  constructor
  · rintro ⟨property, hmem, hsome⟩
    cases property with
    | outputName name => exact ⟨name, hmem⟩
    | _ => simp [Property.name?] at hsome
  · rintro ⟨name, hmem⟩
    exact ⟨_, hmem, rfl⟩

/-- In a project loaded any number of times, from file systems that have nothing to do with each other, targets differ in
their keys, `all` and `clean` come first, and what runs can be built and always has an executable. What is only built has
one in a configuration if and only if, after its first declaration, it was given a library directory for the
configuration and an output name. A target can be started where it has an executable. -/
theorem loaded_targets_have_executables {workDir root build : Path} {platform : Platform}
    {loads : List (FileSystem × Path)} (hp : p = (new workDir root build platform).loadAll loads) :
    p.keys.Nodup ∧ [⟨"all", .build⟩, ⟨"clean", .build⟩] <+: p.keys ∧
      (∀ name, ⟨name, .run⟩ ∈ p.keys → ⟨name, .build⟩ ∈ p.keys) ∧
      (∀ t c debugger, (∃ launch, p.run t c debugger = .ok launch) ↔ ∃ path, p.artifact t c = .ok path) ∧
      ∀ t ∈ p.targets,
        (t.key.kind = .run →
          ∀ c, (t.outputDir c).isSome ∧ t.outputName.isSome ∧ ∃ path, p.artifact t c = .ok path) ∧
        (t.key.kind = .build → ∃ subdir after,
          DeclaredFirst (traceAll (root.absolute workDir) loads) t.key subdir after ∧
          ∀ c, (∃ path, p.artifact t c = .ok path) ↔
            (∃ dir, .libraryDir c dir ∈ after.flatMap (Met.assigns t.key.name)) ∧
              ∃ name, .outputName name ∈ after.flatMap (Met.assigns t.key.name)) := by
  have hconsistent : p.Consistent := hp ▸ (consistent_new workDir root build platform).loadAll loads
  refine ⟨hconsistent.distinct, hconsistent.implicit, hconsistent.buildable, fun _ _ debugger => run_eq_ok_iff debugger,
    fun t ht => ⟨fun hrun c => ?_, fun hbuild => ?_⟩⟩
  · obtain ⟨hdir, hname⟩ := hconsistent.placed t ht hrun
    exact ⟨hdir c, hname, artifact_eq_ok_iff.2 ⟨hdir c, hname⟩⟩
  · rw [hp, loadAll_eq] at ht
    obtain ⟨subdir, after, hfirst, ht⟩ := (mem_targets_foldl_meet rfl).1 ht
    have hsettled := settled_foldl_assign (new workDir root build platform) t.key subdir after
    rw [ht] at hsettled
    refine ⟨subdir, after, hfirst, fun c => ?_⟩
    rw [artifact_eq_ok_iff, hsettled.outputDir c, hsettled.outputName, defaultDir?, hbuild,
      ← isSome_lastDir?_iff hbuild, ← isSome_lastName?_iff]
    simp

def alone (text : String) : FileSystem where
  workDir := []
  entries :=
    [(["p".toList], .directory),
      (["p".toList, "CMakeLists.txt".toList], .file (Text.encode text.toList) false)]

def declaring : String := "add_executable(app)"

def assigning : String := "set_target_properties(app PROPERTIES OUTPUT_NAME a LIBRARY_OUTPUT_DIRECTORY_DEBUG b)"

def replacedText : List (FileSystem × Path) := [(alone declaring, Path.empty), (alone assigning, Path.empty)]

theorem trace_declaring (workDir : Location) :
    trace { alone declaring with workDir } (Path.ofString "/p") Path.empty =
      [.file (Path.ofString "/p/CMakeLists.txt"), .command Path.empty (.addExecutable "app")] := by
  have hpath : descriptionPath (Path.ofString "/p") Path.empty = Path.ofString "/p/CMakeLists.txt" := by decide +kernel
  have hfile : { alone declaring with workDir }.file? (Path.ofString "/p/CMakeLists.txt") =
      some (["p".toList, "CMakeLists.txt".toList], Text.encode declaring.toList) := by cbv
  have hscan : Command.scan declaring = [.addExecutable "app"] := by decide +kernel
  rw [← hpath] at hfile ⊢
  rw [trace_of_read hfile (by simp [hscan, pendingOf]), hscan]
  rfl

theorem load_declaring (workDir : Location) (build : Path) :
    load { alone declaring with workDir } (Path.ofString "/p") build .unix =
      ((new (FileSystem.pathOf workDir) (Path.ofString "/p") build .unix).addFile
        (Path.ofString "/p/CMakeLists.txt")).perform Path.empty (.addExecutable "app") := by
  have hroot : (Path.ofString "/p").absolute (FileSystem.pathOf workDir) = Path.ofString "/p" := rfl
  rw [load, loadInto_eq]
  change (trace _ ((Path.ofString "/p").absolute (FileSystem.pathOf workDir)) _).foldl _ _ = _
  rw [hroot, trace_declaring]
  rfl

theorem traceAll_replacedText :
    traceAll (Path.ofString "/p") replacedText =
      [.file (Path.ofString "/p/CMakeLists.txt"), .command Path.empty (.addExecutable "app"),
        .file (Path.ofString "/p/CMakeLists.txt"),
        .command Path.empty (.setTargetProperties ["app"] [.outputName "a", .libraryDir .debug "b"])] := by
  have hpath : descriptionPath (Path.ofString "/p") Path.empty = Path.ofString "/p/CMakeLists.txt" := by decide +kernel
  have hfile : (alone assigning).file? (Path.ofString "/p/CMakeLists.txt") =
      some (["p".toList, "CMakeLists.txt".toList], Text.encode assigning.toList) := by cbv
  have hscan : Command.scan assigning =
      [.setTargetProperties ["app"] [.outputName "a", .libraryDir .debug "b"]] := by decide +kernel
  rw [← hpath] at hfile
  simp only [traceAll, replacedText, List.flatMap_cons, List.flatMap_nil]
  rw [show alone declaring = { alone declaring with workDir := [] } from rfl, trace_declaring, trace_of_read hfile (by simp [hscan, pendingOf]), hscan, hpath]
  rfl

def replaced : Project :=
  (new Path.empty (Path.ofString "/p") (Path.ofString "/p/build") .unix).loadAll replacedText

theorem replaced_has_executables :
    ∃ t ∈ replaced.targets, t.key = ⟨"app", .build⟩ ∧
      (∃ path, replaced.artifact t .debug = .ok path) ∧ (¬∃ path, replaced.artifact t .release = .ok path) ∧
      ∃ u ∈ replaced.targets, u.key = ⟨"app", .run⟩ ∧ ∃ launch, replaced.run u .release "gdb" = .ok launch := by
  obtain ⟨-, -, -, hstart, htargets⟩ := loaded_targets_have_executables (p := replaced) rfl
  have hroot : (new Path.empty (Path.ofString "/p") (Path.ofString "/p/build") .unix).rootDir = Path.ofString "/p" := by
    decide +kernel
  have htrace : traceAll ((Path.ofString "/p").absolute Path.empty) replacedText = _ := hroot ▸ traceAll_replacedText
  have hreplaced : replaced = _ := (loadAll_eq _ _).trans (congrArg _ htrace)
  obtain ⟨t, ht, hkey⟩ : ∃ t ∈ replaced.targets, t.key = ⟨"app", .build⟩ := by
    rw [hreplaced]
    decide +kernel
  obtain ⟨u, hu, hkey'⟩ : ∃ u ∈ replaced.targets, u.key = ⟨"app", .run⟩ := by
    rw [hreplaced]
    decide +kernel
  obtain ⟨subdir, after, hfirst, hartifact⟩ := (htargets t ht).2 (congrArg Key.kind hkey)
  have hafter : after.flatMap (Met.assigns t.key.name) = [.outputName "a", .libraryDir .debug "b"] := by
    rw [htrace, hkey, DeclaredFirst, if_neg (by decide)] at hfirst
    obtain ⟨before, c, he, hc, -⟩ := hfirst
    rw [hkey]
    rcases before with _ | ⟨_, _ | ⟨_, _ | ⟨_, _ | _⟩⟩⟩
    · simp at he
    · simp only [List.cons_append, List.nil_append, List.cons.injEq] at he
      rw [← he.2.2]
      decide +kernel
    · simp at he
    · simp only [List.cons_append, List.nil_append, List.cons.injEq, Met.command.injEq] at he
      rw [← he.2.2.2.1.2] at hc
      simp [Command.declares] at hc
    · simp at he
  rw [hafter] at hartifact
  refine ⟨t, ht, hkey, (hartifact .debug).2 (by simp), fun h => ?_, u, hu, hkey', ?_⟩
  · simpa using (hartifact .release).1 h
  · exact (hstart u .release "gdb").2 ((htargets u hu).1 (congrArg Key.kind hkey') .release).2.2

end Project

end CMakeHelm
