import CMakeHelm.FileSystem
import CMakeHelm.Project

namespace CMakeHelm

/-- A project being loaded, with the files that were reached, the last one first. -/
structure Loading where
  project : Project
  seen : List Location

namespace Loading

abbrev Later (s : Loading) : Type := { r : Loading // s.seen <:+ r.seen }

mutual

/-- Take in the description file of `subdir`. A file counts the first time it is reached, under any
name; one that is missing, or is no text, contributes nothing. -/
def enter (fs : FileSystem) (s : Loading) (subdir : Path) : s.Later :=
  match _hf : fs.file? (Project.descriptionPath s.project.rootDir subdir) with
  | none => ⟨s, List.suffix_refl _⟩
  | some (l, content) =>
    if _hl : l ∈ s.seen then ⟨s, List.suffix_refl _⟩
    else
      match Text.decode? content with
      | none => ⟨{ s with seen := l :: s.seen }, List.suffix_cons l _⟩
      | some text =>
        let file := Project.descriptionPath s.project.rootDir subdir
        let r := follow fs ⟨s.project.addFile file, l :: s.seen⟩ subdir (Command.scan (String.ofList text))
        ⟨r.1, (List.suffix_cons l _).trans r.2⟩
termination_by (fs.unseen s.seen, 0)
decreasing_by exact Prod.Lex.left _ _ (fs.unseen_cons_lt _hl (fs.mem_of_file? _hf))

def follow (fs : FileSystem) (s : Loading) (subdir : Path) : List Command → s.Later
  | [] => ⟨s, List.suffix_refl _⟩
  | .addSubdirectory dir :: rest =>
    let r := enter fs s (subdir.join (Path.ofString dir)).normalize
    let t := follow fs r.1 subdir rest
    ⟨t.1, r.2.trans t.2⟩
  | c :: rest => follow fs { s with project := s.project.perform subdir c } subdir rest
termination_by commands => (fs.unseen s.seen, commands.length)
decreasing_by
  · exact Prod.Lex.right _ (Nat.succ_pos _)
  · exact Prod.Lex.right' _ (fs.unseen_le r.2.subset) (Nat.lt_succ_self _)
  · exact Prod.Lex.right _ (Nat.lt_succ_self _)

end

theorem val_enter (fs : FileSystem) (s : Loading) (subdir : Path) :
    (enter fs s subdir).1 =
      match fs.file? (Project.descriptionPath s.project.rootDir subdir) with
      | none => s
      | some (l, content) =>
        if l ∈ s.seen then s
        else
          match Text.decode? content with
          | none => { s with seen := l :: s.seen }
          | some text =>
            (follow fs ⟨s.project.addFile (Project.descriptionPath s.project.rootDir subdir), l :: s.seen⟩ subdir
              (Command.scan (String.ofList text))).1 := by
  rw [enter]
  split
  · next hf => simp only [hf]
  · next l content hf =>
    simp only [hf]
    split
    · rfl
    · split <;> simp_all

theorem val_follow_addSubdirectory (fs : FileSystem) (s : Loading) (subdir : Path) (dir : String)
    (rest : List Command) :
    (follow fs s subdir (.addSubdirectory dir :: rest)).1 =
      (follow fs (enter fs s (subdir.join (Path.ofString dir)).normalize).1 subdir rest).1 := by
  rw [follow]

theorem val_follow_cons (fs : FileSystem) (s : Loading) (subdir : Path) {c : Command}
    (hc : ∀ dir : String, c ≠ .addSubdirectory dir) (rest : List Command) :
    (follow fs s subdir (c :: rest)).1 =
      (follow fs { s with project := s.project.perform subdir c } subdir rest).1 := by
  rw [follow]
  exact hc

end Loading

namespace Project

variable (p : Project)

/-- Take in the description files from `subdir` on, keeping what was there. -/
def loadInto (fs : FileSystem) (subdir : Path) : Project := (Loading.enter fs ⟨p, []⟩ subdir).1.project

def load (fs : FileSystem) (root build : Path) (platform : Platform) : Project :=
  (new fs.workPath root build platform).loadInto fs Path.empty

def reload (fs : FileSystem) : Project := { load fs p.rootDir p.buildDir p.platform with cmake := p.cmake }

end Project

end CMakeHelm
