import CMakeHelm.Proofs.FileSystem
import CMakeHelm.Proofs.Project.Trace

namespace CMakeHelm.Project

variable {p q : Project} {fs fs' : FileSystem} {root build : Path} {platform : Platform} {cmake : String}

theorem sameSetting_load (fs : FileSystem) (root build : Path) (platform : Platform) :
    SameSetting (new fs.workPath root build platform) (load fs root build platform) := by
  rw [load, loadInto_eq]
  exact sameSetting_foldl_meet _ _

/-- The directories are the same from wherever they are seen. -/
def Anchored (p : Project) : Prop := ∀ w, p.rootDir.absolute w = p.rootDir ∧ p.buildDir.absolute w = p.buildDir

theorem Anchored.of_eq (h : p.Anchored) (hroot : q.rootDir = p.rootDir) (hbuild : q.buildDir = p.buildDir) :
    q.Anchored := by
  intro w
  rw [hroot, hbuild]
  exact h w

theorem anchored_new (hwork : fs.HasWorkDir) (root build : Path) (platform : Platform) :
    (new fs.workPath root build platform).Anchored := by
  intro w
  rw [new, hwork.workPath_eq]
  exact ⟨Path.absolute_absolute .one hwork root w, Path.absolute_absolute .one hwork build w⟩

theorem Anchored.new_eq (h : p.Anchored) (w : Path) :
    new w p.rootDir p.buildDir p.platform = { p with cmake := "cmake", files := [], targets := implicitTargets } := by
  rw [new, (h w).1, (h w).2]

theorem Anchored.sameSetting_reload (h : p.Anchored) (fs : FileSystem) : SameSetting p (p.reload fs) := by
  have hload := sameSetting_load fs p.rootDir p.buildDir p.platform
  rw [h.new_eq] at hload
  exact ⟨hload.rootDir_eq, hload.buildDir_eq, hload.platform_eq, rfl⟩

theorem Anchored.reload_eq (h : p.Anchored) (hp : p = { load fs root build platform with cmake })
    (htrace : trace fs' p.rootDir Path.empty = trace fs p.rootDir Path.empty) : p.reload fs' = p := by
  have hload := sameSetting_load fs root build platform
  have hroot : p.rootDir = (new fs.workPath root build platform).rootDir := by rw [hp, hload.rootDir_eq]
  have hnew : new fs'.workPath p.rootDir p.buildDir p.platform = new fs.workPath root build platform := by
    rw [h.new_eq, hp, hload.rootDir_eq, hload.buildDir_eq, hload.platform_eq]
    rfl
  have hagain : load fs' p.rootDir p.buildDir p.platform = load fs root build platform := by
    rw [load, load, loadInto_eq, loadInto_eq, hnew, ← hroot, htrace]
  rw [reload, hagain, hp]

theorem reload_eq_load (hwork : fs.HasWorkDir) (hmade : SameSetting { new fs.workPath root build platform with cmake } p)
    (hplace : fs'.workPath = fs.workPath) : p.reload fs' = { load fs' root build platform with cmake } := by
  have hnew : new fs'.workPath p.rootDir p.buildDir p.platform = new fs'.workPath root build platform := by
    have hanchored := anchored_new hwork root build platform fs.workPath
    rw [hmade.rootDir_eq, hmade.buildDir_eq, hmade.platform_eq, hplace, new, hanchored.1, hanchored.2]
    rfl
  rw [reload, hmade.cmake_eq, load, load, hnew]

end CMakeHelm.Project
