import CMakeHelm.Proofs.Path.Absolute
import CMakeHelm.Proofs.Project.Launch
import Mathlib

namespace CMakeHelm.Project

variable {p : Project} {t : Target} {c : Configuration} {dir name : String} {subdir d path : Path}

theorem sameSetting_loadAll (p : Project) (loads : List (FileSystem × Path)) : SameSetting p (p.loadAll loads) := by
  rw [loadAll_eq]
  exact sameSetting_foldl_meet _ _

/-- An output directory as it is assigned, with the source directory in the place of its placeholder. -/
def filledIn (p : Project) (dir : String) : Path :=
  Path.ofText (Text.replace sourcePlaceholder.toList p.sourceDir.toText dir.toList)

def executable (p : Project) (name : String) : Path := Path.ofString (name ++ p.platform.exeSuffix)

theorem artifact_eq (hdir : t.outputDir c = some dir) (hname : t.outputName = some name) :
    p.artifact t c = .ok (((p.binaryDir t.subdir).join (p.filledIn dir)).join (p.executable name)) := by
  rw [artifact, hdir, hname]
  rfl

theorem isText_binaryDir (hbuild : p.buildDir.IsText) (hsubdir : subdir.IsText) : (p.binaryDir subdir).IsText := by
  unfold binaryDir
  split
  · exact hbuild
  · exact Path.isText_join hbuild hsubdir

theorem isText_artifact (hbuild : p.buildDir.IsText) (hsubdir : t.subdir.IsText) (h : p.artifact t c = .ok path) :
    path.IsText := by
  obtain ⟨hdir, hname⟩ := artifact_eq_ok_iff.1 ⟨path, h⟩
  obtain ⟨dir, hdir⟩ := Option.isSome_iff_exists.1 hdir
  obtain ⟨name, hname⟩ := Option.isSome_iff_exists.1 hname
  rw [artifact_eq hdir hname] at h
  rw [← Except.ok.inj h]
  have hfilled : (p.filledIn dir).IsText := ⟨String.ofList _, by rw [Path.ofString, String.toList_ofList, filledIn]⟩
  exact Path.isText_join (Path.isText_join (isText_binaryDir hbuild hsubdir) hfilled) ⟨_, rfl⟩

theorem isAbsolute_binaryDir (hp : p.buildDir.isAbsolute = true) (subdir : Path) :
    (p.binaryDir subdir).isAbsolute = true := by
  unfold binaryDir
  split
  · exact hp
  · rw [Path.isAbsolute_join, hp, Bool.or_true]

theorem isAbsolute_artifact (hp : p.buildDir.isAbsolute = true) (h : p.artifact t c = .ok path) :
    path.isAbsolute = true := by
  obtain ⟨hdir, hname⟩ := artifact_eq_ok_iff.1 ⟨path, h⟩
  obtain ⟨dir, hdir⟩ := Option.isSome_iff_exists.1 hdir
  obtain ⟨name, hname⟩ := Option.isSome_iff_exists.1 hname
  rw [artifact_eq hdir hname] at h
  rw [← Except.ok.inj h, Path.isAbsolute_join, Path.isAbsolute_join, isAbsolute_binaryDir hp, Bool.or_true, Bool.or_true]

theorem not_infix_binaryDir (hbuild : ¬ sourcePlaceholder.toList <:+: p.buildDir.chars)
    (hsubdir : ¬ sourcePlaceholder.toList <:+: subdir.chars) :
    ¬ sourcePlaceholder.toList <:+: (p.binaryDir subdir).chars := by
  have hslash : '/' ∉ sourcePlaceholder.toList := by decide
  unfold binaryDir
  split
  · exact hbuild
  · exact Path.not_infix_join hslash hbuild hsubdir

theorem filledIn_of_placeholder_free (h : ¬ sourcePlaceholder.toList <:+: dir.toList) : p.filledIn dir = Path.ofString dir := by
  rw [filledIn, Text.replace_of_not_infix h, Path.ofString]

theorem not_infix_toText (hd : d.IsText) (hnot : ¬ sourcePlaceholder.toList <:+: d.chars) :
    ¬ sourcePlaceholder.toList <:+: d.toString.toList := by
  obtain ⟨s, rfl⟩ := hd
  have hplaceholder : Text.octets sourcePlaceholder.toList = sourcePlaceholder.toList :=
    Text.octets_of_forall_lt (by simp [sourcePlaceholder])
  rw [Path.toString_ofString]
  intro hinfix
  have hoctets := Text.octets_infix hinfix
  rw [hplaceholder] at hoctets
  exact hnot hoctets

theorem artifact_of_isAbsolute (hd : d.isAbsolute = true) (htext : d.IsText)
    (hnot : ¬ sourcePlaceholder.toList <:+: d.chars) (hdir : t.outputDir c = some d.toString)
    (hname : t.outputName = some name) : p.artifact t c = .ok (d.join (p.executable name)) := by
  have hfilled : p.filledIn d.toString = d := by
    rw [filledIn_of_placeholder_free (not_infix_toText htext hnot), htext.ofString_toString]
  rw [artifact_eq hdir hname, hfilled, Path.join_of_isAbsolute hd]

theorem same_join_dot (hd : d.isAbsolute = true) (q : Path) :
    ((d.join (Path.ofString ".")).join q).same (d.join q) = true := by
  have hdot : (Path.ofString ".").isAbsolute = false ∧ (Path.ofString ".").inner = [] := by decide
  have hinner : (d.join (Path.ofString ".")).inner = d.inner := by
    rw [Path.inner_join, hdot.1, hdot.2]
    exact List.append_nil d.inner
  apply Path.same_of_inner_eq
  · rw [Path.isAbsolute_join, Path.isAbsolute_join, hd, Bool.or_true, Bool.or_true]
  · rw [Path.isAbsolute_join, hd, Bool.or_true]
  · rw [Path.inner_join, hinner, Path.inner_join]

theorem exists_executable (subdir : Path) (hnew : ⟨name, .run⟩ ∉ p.keys) :
    ∃ e ∈ (p.perform subdir (.addExecutable name)).targets, e.key = ⟨name, .run⟩ ∧ e.subdir = subdir ∧
      ∀ c, e.outputDir c = some (p.binaryDir subdir).toString := by
  refine ⟨(Target.run name (p.binaryDir subdir).toString).declaredIn subdir, ?_, rfl, rfl, fun c => by cases c <;> rfl⟩
  have hnot : ⟨name, .run⟩ ∉ (p.declare ((Target.build name).declaredIn subdir)).keys := by
    rw [mem_keys_declare]
    rintro (hmem | he)
    · exact hnew hmem
    · cases he
  exact (mem_targets_declare _).2 (.inr ⟨rfl, hnot⟩)

/-- In a project that was made for a build directory, however much was loaded into it, the path of a target's executable
is absolute. It is in the output directory if that is absolute, and else in what it leads to from the binary directory.
An executable declared in the same source directory is given the text of that directory by default. Where it is a text,
the default leads back to it, and without placeholders in it the executable is there by default, and also for `.`, but
for how that is written. -/
theorem artifacts_start_in_binary_directory {fs : FileSystem} {root build : Path} {platform : Platform}
    {loads : List (FileSystem × Path)} (hbuild : build.chars ≠ [])
    (hp : p = (new fs.workPath root build platform).loadAll loads) (t : Target) (c : Configuration) :
    (∀ path, p.artifact t c = .ok path → path.isAbsolute = true) ∧
      (∀ name, ⟨name, .run⟩ ∉ p.keys → ∃ e ∈ (p.perform t.subdir (.addExecutable name)).targets,
        e.key = ⟨name, .run⟩ ∧ e.subdir = t.subdir ∧ ∀ c, e.outputDir c = some (p.binaryDir t.subdir).toString) ∧
      (∀ dir name, t.outputDir c = some dir → t.outputName = some name →
        p.artifact t c = .ok
          ((if (p.filledIn dir).isAbsolute then p.filledIn dir
            else (p.binaryDir t.subdir).join (p.filledIn dir)).join (p.executable name))) ∧
      ((p.binaryDir t.subdir).IsText → Path.ofString (p.binaryDir t.subdir).toString = p.binaryDir t.subdir ∧
        (¬ sourcePlaceholder.toList <:+: p.buildDir.chars → ¬ sourcePlaceholder.toList <:+: t.subdir.chars →
        ∀ name, t.outputName = some name →
          p.artifact (t.setOutputDir c (p.binaryDir t.subdir).toString) c =
              .ok ((p.binaryDir t.subdir).join (p.executable name)) ∧
            ∃ path, p.artifact (t.setOutputDir c ".") c = .ok path ∧
              path.same ((p.binaryDir t.subdir).join (p.executable name)) = true)) := by
  have hsetting : SameSetting (new fs.workPath root build platform) p := hp ▸ sameSetting_loadAll _ loads
  have habsolute : p.buildDir.isAbsolute = true := by
    rw [hsetting.buildDir_eq]
    exact Path.isAbsolute_absolute hbuild rfl
  have hd := isAbsolute_binaryDir habsolute t.subdir
  refine ⟨fun path => isAbsolute_artifact habsolute, fun name => exists_executable t.subdir, fun dir name hdir hname => ?_,
    fun htext => ⟨htext.ofString_toString, fun hbuildDir hsubdir name hname => ?_⟩⟩
  · rw [artifact_eq hdir hname]
    split
    · next hfilled => rw [Path.join_of_isAbsolute hfilled]
    · rfl
  · have hset (dir : String) : (t.setOutputDir c dir).outputDir c = some dir ∧
        (t.setOutputDir c dir).outputName = some name ∧ (t.setOutputDir c dir).subdir = t.subdir := by
      rw [Target.outputDir_setOutputDir, if_pos rfl, ← hname]
      cases c <;> exact ⟨rfl, rfl, rfl⟩
    obtain ⟨hdefault, hdefaultName, -⟩ := hset (p.binaryDir t.subdir).toString
    obtain ⟨hdot, hdotName, hdotSubdir⟩ := hset "."
    refine ⟨artifact_of_isAbsolute hd htext (not_infix_binaryDir hbuildDir hsubdir) hdefault hdefaultName, _,
      artifact_eq hdot hdotName, ?_⟩
    rw [hdotSubdir, filledIn_of_placeholder_free (by decide)]
    exact same_join_dot hd _

def outside : Target :=
  (Target.run "tool" ("bin" ++ sourcePlaceholder ++ "/..")).declaredIn (Path.ofString "../lib")

theorem outside_starts_in_binary_directory :
    let p := (new (alone declaring).workPath (Path.ofString "/p") (Path.ofString "out") .windows).loadAll replacedText
    p.artifact outside .debug = .ok (Path.ofString "/out/../lib/bin/p/../tool.exe") ∧
      ∃ path, p.artifact (outside.setOutputDir .debug ".") .debug = .ok path ∧
        path.same (Path.ofString "/out/../lib/tool.exe") = true := by
  intro p
  have hsetting : SameSetting (new (alone declaring).workPath (Path.ofString "/p") (Path.ofString "out") .windows) p :=
    sameSetting_loadAll _ replacedText
  have hbuild : p.buildDir = Path.ofString "/out" := by
    rw [hsetting.buildDir_eq]
    decide +kernel
  have hroot : p.rootDir = Path.ofString "/p" := by
    rw [hsetting.rootDir_eq]
    decide +kernel
  have hplatform : p.platform = .windows := hsetting.platform_eq
  have hdir : p.binaryDir outside.subdir = Path.ofString "/out/../lib" := by
    rw [binaryDir, hbuild]
    decide +kernel
  have hname : p.executable "tool" = Path.ofString "tool.exe" := by
    rw [executable, hplatform]
    decide +kernel
  have hfilled : p.filledIn ("bin" ++ sourcePlaceholder ++ "/..") = Path.ofString "bin/p/.." := by
    rw [filledIn, sourceDir, hroot]
    decide +kernel
  have hne : (Path.ofString "out").chars ≠ [] := by decide
  obtain ⟨-, -, hjoined, hdefault⟩ := artifacts_start_in_binary_directory hne (rfl : p = _) outside .debug
  have hjoined := hjoined _ "tool" rfl rfl
  have hdefault := ((hdefault ⟨_, hdir⟩).2 (by rw [hbuild]; decide) (by decide) "tool" rfl).2
  rw [hfilled, hdir, hname] at hjoined
  rw [hdir, hname] at hdefault
  exact ⟨hjoined, hdefault⟩

/-- A build directory that is no text. -/
def nonUtf8 : Path := ⟨['/', Char.ofNat 0xFF]⟩

theorem toString_nonUtf8 : nonUtf8.toString = "/\uFFFD" := by
  simp [nonUtf8, Path.toString, Path.toText, Text.textOf, Text.bytesOf, Text.decodeLossy, Text.scalars, Text.lead?,
    Text.finish]

theorem nonUtf8_default_leads_elsewhere :
    let p := load (alone declaring) (Path.ofString "/p") nonUtf8 .unix
    nonUtf8.chars ≠ [] ∧ p.buildDir = nonUtf8 ∧ ¬ sourcePlaceholder.toList <:+: p.buildDir.chars ∧
      ∃ t ∈ p.targets, t.key = ⟨"app", .run⟩ ∧ t.subdir = Path.empty ∧
        ∃ path path', p.artifact t .debug = .ok path ∧ p.artifact (t.setOutputDir .debug ".") .debug = .ok path' ∧
          path'.same path = false := by
  intro p
  have hp : p = _ := load_declaring [] nonUtf8
  have hbuild : p.buildDir = nonUtf8 := by
    rw [hp]
    decide +kernel
  have hname : p.executable "app" = Path.ofString "app" := by
    rw [executable, hp]
    decide +kernel
  have hdir : p.binaryDir Path.empty = nonUtf8 := (if_pos rfl).trans hbuild
  let t := (Target.run "app" nonUtf8.toString).declaredIn Path.empty
  have ht : t ∈ p.targets := by
    rw [hp]
    refine (mem_targets_declare _).2 (.inr ⟨?_, by decide +kernel⟩)
    refine congrArg (fun d : Path => (Target.run "app" d.toString).declaredIn Path.empty) ?_
    decide +kernel
  have hdefault : p.artifact t .debug = .ok ((nonUtf8.join (Path.ofString "/\uFFFD")).join (Path.ofString "app")) := by
    rw [artifact_eq rfl rfl, toString_nonUtf8, filledIn_of_placeholder_free (by decide), hname]
    exact congrArg (fun d => Except.ok ((d.join (Path.ofString "/\uFFFD")).join (Path.ofString "app"))) hdir
  have hdot : p.artifact (t.setOutputDir .debug ".") .debug =
      .ok ((nonUtf8.join (Path.ofString ".")).join (Path.ofString "app")) := by
    rw [artifact_eq rfl rfl, filledIn_of_placeholder_free (by decide), hname]
    exact congrArg (fun d => Except.ok ((d.join (Path.ofString ".")).join (Path.ofString "app"))) hdir
  exact ⟨by decide, hbuild, by rw [hbuild]; decide, t, ht, rfl, rfl, _, _, hdefault, hdot, by decide +kernel⟩

end CMakeHelm.Project
