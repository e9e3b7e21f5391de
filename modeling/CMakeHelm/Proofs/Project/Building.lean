import CMakeHelm.Project.Plan
import CMakeHelm.Proofs.FileSystem.Removal
import Mathlib

namespace CMakeHelm.Project

variable {p : Project} {fs after : FileSystem} {c : Configuration} {a : Architecture} {target : String}
variable {result : Except RemovalError (List String)}

theorem configureLine_ne_buildLine (p : Project) (c : Configuration) (a : Architecture) (target : String) :
    (p.configureLine c a).render ≠ (p.buildLine target c).render := by
  have hsource : CommandLine.quoteChars "-S".toList = ['-', 'S'] := by decide
  have hbuild : CommandLine.quoteChars "--build".toList = ['-', '-', 'b', 'u', 'i', 'l', 'd'] := by decide
  intro h
  have hchars := String.ofList_injective h
  simp only [configureLine, buildLine, CommandLine.words, List.cons_append, List.map_cons, Text.join, hsource, hbuild] at hchars
  have hrest := (List.cons.inj (List.append_cancel_left hchars)).2
  simp at hrest

/-- All that building comes to. -/
inductive Builds (p : Project) (fs : FileSystem) (target : String) (c : Configuration) (a : Architecture) :
    FileSystem → Except RemovalError (List String) → Prop
  | kept (h : fs.isDirectory p.buildDir = true) : Builds p fs target c a fs (.ok [(p.buildLine target c).render])
  | absent (h : fs.isDirectory p.buildDir = false) (hnone : fs.exists? p.buildDir = false) :
      Builds p fs target c a fs (.ok [(p.configureLine c a).render, (p.buildLine target c).render])
  | unlinked (l : Location) (dest : Path) (h : fs.isDirectory p.buildDir = false)
      (hlink : fs.find false p.buildDir = .ok (.entry l (.link dest))) :
      Builds p fs target c a (fs.cutOff l) (.ok [(p.configureLine c a).render, (p.buildLine target c).render])
  | refused (l : Location) (content : Text.Bytes) (executable : Bool) (h : fs.isFile p.buildDir = true)
      (hfile : fs.find false p.buildDir = .ok (.entry l (.file content executable))) :
      Builds p fs target c a fs (.error ⟨p.buildDir, .notDirectory⟩)

theorem builds (h : p.build fs target c a = (after, result)) : Builds p fs target c a after result := by
  cases hdir : fs.isDirectory p.buildDir with
  | true =>
      rw [build, isGenerated, hdir] at h
      cases h
      exact .kept hdir
  | false =>
      rw [build, isGenerated, hdir, generate] at h
      rcases FileSystem.removeTree_of_not_isDirectory hdir with ⟨hnone, hremoved⟩ | ⟨l, dest, hlink, hremoved⟩ |
        ⟨hisFile, ⟨l, content, executable, hfile⟩, hremoved⟩
      · rw [hremoved] at h
        cases h
        exact .absent hdir hnone
      · rw [hremoved] at h
        cases h
        exact .unlinked l dest hdir hlink
      · rw [hremoved] at h
        cases h
        exact .refused l content executable hisFile hfile

namespace Builds

theorem commands_eq {commands : List String} (h : Builds p fs target c a after result) (hok : result = .ok commands) :
    commands = (if fs.isDirectory p.buildDir then [] else [(p.configureLine c a).render]) ++
      [(p.buildLine target c).render] := by
  cases h with
  | kept h =>
      cases hok
      rw [h]
      rfl
  | absent h | unlinked _ _ h =>
      cases hok
      rw [h]
      rfl
  | refused => cases hok

theorem get?_eq (h : Builds p fs target c a after result) (hfs : fs.IsTree) (m : Location) :
    after.get? m = fs.get? m ∨
      after.get? m = none ∧ ∃ dest, fs.find false p.buildDir = .ok (.entry m (.link dest)) := by
  cases h with
  | kept | absent | refused => exact .inl rfl
  | unlinked l dest _ hlink =>
      have hl : fs.get? l ≠ some .directory := by simp [FileSystem.get?_of_find hlink]
      rw [hfs.get?_cutOff hl]
      split
      · next hm => exact .inr ⟨rfl, dest, hm ▸ hlink⟩
      · exact .inl rfl

theorem isTree (h : Builds p fs target c a after result) (hfs : fs.IsTree) : after.IsTree := by
  cases h with
  | kept | absent | refused => exact hfs
  | unlinked l dest _ hlink => exact hfs.cutOff (by simp [FileSystem.get?_of_find hlink])

theorem error_iff (h : Builds p fs target c a after result) :
    (∃ e, result = .error e) ↔
      fs.isFile p.buildDir = true ∧ ¬∃ l dest, fs.find false p.buildDir = .ok (.entry l (.link dest)) := by
  cases h with
  | kept h => simp [FileSystem.not_isFile_of_isDirectory h]
  | absent h hnone => simp [FileSystem.not_isFile_of_not_exists hnone]
  | unlinked l dest h hlink => simp [hlink]
  | refused l content executable h hfile => simp [h, hfile]

end Builds

/-- Building plans the build command, and the one that configures in front of it if and only if the build directory is
no directory, links followed. No directory and no file is gone afterwards: all is as it was, but for a link at the build
directory itself, which may be gone. It fails if and only if a file is there that is not reached by such a link, and
then nothing has changed. -/
theorem building_removes_at_most_a_link (hfs : fs.IsTree) (h : p.build fs target c a = (after, result)) :
    (∀ commands, result = .ok commands →
      commands = (if fs.isDirectory p.buildDir then [] else [(p.configureLine c a).render]) ++
          [(p.buildLine target c).render] ∧
        (commands.head? = some (p.configureLine c a).render ↔ fs.isDirectory p.buildDir = false)) ∧
      (∀ m e, fs.get? m = some e → (∀ dest, e ≠ .link dest) → after.get? m = some e) ∧
      (∀ m, after.get? m = fs.get? m ∨
        after.get? m = none ∧ ∃ dest, fs.find false p.buildDir = .ok (.entry m (.link dest))) ∧
      after.workDir = fs.workDir ∧ after.IsTree ∧
      ((∃ e, result = .error e) ↔
        fs.isFile p.buildDir = true ∧ ¬∃ l dest, fs.find false p.buildDir = .ok (.entry l (.link dest))) ∧
      ∀ e, result = .error e → e = ⟨p.buildDir, .notDirectory⟩ ∧ after = fs := by
  have hbuilds := builds h
  refine ⟨fun commands hok => ?_, fun m e he hlink => ?_, hbuilds.get?_eq hfs, ?_, hbuilds.isTree hfs, hbuilds.error_iff,
    fun e he => ?_⟩
  · have hcommands := hbuilds.commands_eq hok
    refine ⟨hcommands, ?_⟩
    rw [hcommands]
    cases fs.isDirectory p.buildDir <;> simp [(configureLine_ne_buildLine p c a target).symm]
  · rcases hbuilds.get?_eq hfs m with hsame | ⟨-, dest, hfind⟩
    · rw [hsame, he]
    · exact absurd (Option.some.inj (he.symm.trans (FileSystem.get?_of_find hfind))) (hlink dest)
  · cases hbuilds <;> rfl
  · cases hbuilds with
    | kept | absent | unlinked => cases he
    | refused => exact ⟨(Except.error.inj he).symm, rfl⟩

def misled : FileSystem where
  workDir := []
  entries :=
    [(["p".toList], .directory),
      (["p".toList, "notes".toList], .file (Text.encode "keep".toList) false),
      (["p".toList, "build".toList], .link (Path.ofString "notes"))]

theorem misled_build_removes_link :
    let p := new (Path.ofString "/") (Path.ofString "/p") (Path.ofString "/p/build") .unix
    ∃ after first last, p.build misled "all" .debug .x64 = (after, .ok [first, last]) ∧
      first = (p.configureLine .debug .x64).render ∧ last = (p.buildLine "all" .debug).render ∧
      after.get? ["p".toList, "build".toList] = none ∧
      after.get? ["p".toList, "notes".toList] = some (.file (Text.encode "keep".toList) false) := by
  intro p
  have hfs : misled.IsTree := by decide +kernel
  have hbuildDir : p.buildDir = Path.ofString "/p/build" := by decide +kernel
  have hdir : misled.isDirectory p.buildDir = false := by
    rw [hbuildDir]
    cbv
  have hthere : misled.exists? p.buildDir = true := by
    rw [hbuildDir]
    cbv
  have hlink : misled.find false p.buildDir = .ok (.entry ["p".toList, "build".toList] (.link (Path.ofString "notes"))) := by
    rw [hbuildDir]
    cbv
  rcases hbuild : p.build misled "all" .debug .x64 with ⟨after, result⟩
  obtain ⟨hcommands, hkept, hgone, -, -, herror, -⟩ := building_removes_at_most_a_link hfs hbuild
  cases result with
  | error e => exact absurd ⟨_, _, hlink⟩ (herror.1 ⟨e, rfl⟩).2
  | ok commands =>
      have hplan := (hcommands commands rfl).1
      rw [hdir] at hplan
      have hcut : after.get? ["p".toList, "build".toList] = none := by
        cases builds hbuild with
        | kept h => cases hdir.symm.trans h
        | absent _ hnone => cases hthere.symm.trans hnone
        | unlinked l dest _ hfind =>
            cases hlink.symm.trans hfind
            decide +kernel
      have hnotes := hkept ["p".toList, "notes".toList] _ rfl (fun dest he => by cases he)
      exact ⟨after, _, _, by rw [hplan]; rfl, rfl, rfl, hcut, hnotes⟩

end CMakeHelm.Project
