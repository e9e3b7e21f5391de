import CMakeHelm.Proofs.Helm
import CMakeHelm.Proofs.Project.Settings

namespace CMakeHelm.Helm

open Project (SameSetting DeclaredFirst Met trace)

/-- What becomes of a helm by operations one after the other, each on the files that there are then. Others may use the
session in between. -/
inductive Later {σ : Type} (H : Session.Host σ) (h : Helm σ) : Helm σ → Prop
  | refl : Later H h h
  | operate {h' : Helm σ} (hl : Later H h h') (fs : FileSystem) (o : Operation) : Later H h (h'.operate H fs o)
  | session {h' : Helm σ} (hl : Later H h h') (session : Session σ) : Later H h { h' with session }

variable {σ : Type} {H : Session.Host σ} {h h' : Helm σ} {fs fs' : FileSystem} {root build : Path}
variable {platform : Platform} {cmake : String}

theorem sameSetting_operate (ha : h.project.Anchored) (fs : FileSystem) (o : Operation) :
    SameSetting h.project (h.operate H fs o).project := by
  cases o with
  | setConfiguration c => exact .refl _
  | setArchitecture a => exact .refl _
  | select k =>
      rw [operate]
      split
      · next h' hselect =>
        rw [(select_eq_ok hselect).1]
        exact .refl _
      · exact .refl _
  | reload => exact ha.sameSetting_reload fs
  | act a =>
      rw [operate]
      split <;> exact .refl _

theorem Later.sameSetting (hl : Later H h h') (ha : h.project.Anchored) : SameSetting h.project h'.project := by
  induction hl with
  | refl => exact .refl _
  | operate _ fs o ih => exact ih.trans (sameSetting_operate (ha.of_eq ih.rootDir_eq ih.buildDir_eq) fs o)
  | session _ session ih => exact ih

/-- After any operations and changes of the files, a project that is loaded again is the project that is loaded for the
first time from the directories that were asked for. They have not moved, and its files and targets are those that are
met now, each target with what is assigned to it now. -/
theorem reload_forgets (hwork : fs.HasWorkDir)
    (hmade : SameSetting { Project.new fs.workPath root build platform with cmake } h.project) (hl : Later H h h')
    (hplace : fs'.workDir = fs.workDir) :
    (h'.reload fs').project = { Project.load fs' root build platform with cmake } ∧
      (h'.reload fs').project.rootDir = root.absolute fs.workPath ∧
      (h'.reload fs').project.buildDir = build.absolute fs.workPath ∧
      (∀ path, path ∈ (h'.reload fs').project.files ↔ .file path ∈ trace fs' (root.absolute fs.workPath) Path.empty) ∧
      ∀ t, t ∈ (h'.reload fs').project.targets ↔
        ∃ subdir after, DeclaredFirst (trace fs' (root.absolute fs.workPath) Path.empty) t.key subdir after ∧
          (after.flatMap (Met.assigns t.key.name)).foldl Project.assign
            ((Project.new fs.workPath root build platform).declared t.key subdir) = t := by
  have hpath : fs'.workPath = fs.workPath := by rw [FileSystem.workPath, FileSystem.workPath, hplace]
  have hanchored : h.project.Anchored :=
    (Project.anchored_new hwork root build platform).of_eq hmade.rootDir_eq hmade.buildDir_eq
  have hreload : (h'.reload fs').project = { Project.load fs' root build platform with cmake } :=
    Project.reload_eq_load hwork (hmade.trans (hl.sameSetting hanchored)) hpath
  have hload := Project.sameSetting_load fs' root build platform
  rw [hpath] at hload
  refine ⟨hreload, ?_, ?_, fun path => ?_, fun t => ?_⟩
  · rw [hreload]
    exact hload.rootDir_eq
  · rw [hreload]
    exact hload.buildDir_eq
  · rw [hreload, ← hpath]
    exact Project.mem_files_load_iff fs' root build platform
  · rw [hreload, ← hpath]
    exact Project.mem_targets_load_iff fs' root build platform

def wandering : Helm Session.Script where
  project :=
    Project.load (Project.nested "add_library(a)") (Path.ofString "./p/") (Path.ofString "p//../p/build/") .unix
  session := { name := "p", host := { integrates := true } }

theorem wandering_does_not_drift :
    let h := (wandering.operate Session.Script.host (Project.nested "") .reload).operate Session.Script.host
      (Project.nested "add_library(a)") (.act .generate)
    (h.reload (Project.nested "add_library(b)")).project =
        { Project.load (Project.nested "add_library(b)") (Path.ofString "./p/") (Path.ofString "p//../p/build/") .unix
          with cmake := "cmake" } ∧
      (h.reload (Project.nested "add_library(b)")).project.rootDir = Path.ofString "/p/" ∧
      (h.reload (Project.nested "add_library(b)")).project.buildDir = Path.ofString "/p/../p/build/" := by
  intro h
  have hwork : (Project.nested "add_library(a)").HasWorkDir := by simp [FileSystem.HasWorkDir, Project.nested]
  have hmade : SameSetting
      { Project.new (Project.nested "add_library(a)").workPath (Path.ofString "./p/") (Path.ofString "p//../p/build/")
          .unix with cmake := "cmake" } wandering.project :=
    Project.sameSetting_load (Project.nested "add_library(a)") (Path.ofString "./p/")
      (Path.ofString "p//../p/build/") .unix
  have hlater : Later Session.Script.host wandering h := .operate (.operate .refl _ _) _ _
  have hplace : (Project.nested "add_library(b)").workDir = (Project.nested "add_library(a)").workDir := rfl
  obtain ⟨hreload, hroot, hbuild, -, -⟩ := reload_forgets hwork hmade hlater hplace
  refine ⟨hreload, hroot.trans ?_, hbuild.trans ?_⟩
  · decide +kernel
  · decide +kernel

end CMakeHelm.Helm
