import CMakeHelm.FileSystem
import CMakeHelm.Proofs.Path.Absolute

namespace CMakeHelm.FileSystem

def LinkFree (fs : FileSystem) : Prop := ∀ l target, (l, Entry.link target) ∉ fs.entries

variable {fs : FileSystem} {follow : Bool} {links : Nat} {here l : Location} {pieces : List (List Char)}
variable {p q : Path} {content : Text.Bytes} {e : Entry}

theorem LinkFree.get?_ne (h : fs.LinkFree) (target : Path) : fs.get? l ≠ some (.link target) := by
  intro hg
  cases l with
  | nil => simp [get?] at hg
  | cons name l => exact h _ _ (fs.mem_of_get? hg (by simp))

theorem LinkFree.names_of_walk (h : fs.LinkFree) (hup : ['.', '.'] ∉ pieces)
    (hw : fs.walk follow links here pieces = .ok (.entry l e)) :
    l.map Path.Component.name = here.map .name ++ pieces.filterMap Path.component? := by
  induction pieces generalizing here with
  | nil =>
      rw [walk] at hw
      split at hw
      · cases hw
        simp
      · cases hw
  | cons piece rest ih =>
      have hrest : ['.', '.'] ∉ rest := fun hm => hup (List.mem_cons_of_mem piece hm)
      have hpiece : piece ≠ ['.', '.'] := fun he => hup (he ▸ List.mem_cons_self)
      rw [walk] at hw
      split at hw
      · cases hw
      split at hw
      · next hskip => rw [List.filterMap_cons_none (Path.component?_eq_none.2 hskip), ih hrest hw]
      next hskip =>
      split at hw
      · cases hw
      have hname : Path.component? piece = some (.name piece) := Path.component?_eq_name hskip hpiece
      have hdown (hw : fs.walk follow links (here ++ [piece]) rest = .ok (.entry l e)) :
          l.map Path.Component.name = here.map .name ++ (piece :: rest).filterMap Path.component? := by
        rw [List.filterMap_cons_some hname, ih hrest hw]
        simp
      cases hg : fs.get? (here ++ [piece]) with
      | none =>
          simp only [hg] at hw
          split at hw <;> cases hw
      | some entry =>
          cases entry with
          | link target => exact absurd hg (h.get?_ne target)
          | directory => exact hdown (by simpa only [hg] using hw)
          | file content executable => exact hdown (by simpa only [hg] using hw)

theorem readText_eq_ok_iff {text : String} : fs.readText p = .ok text ↔
    ∃ l content chars, fs.file? p = some (l, content) ∧ Text.decode? content = some chars ∧
      String.ofList chars = text := by
  unfold readText read file?
  cases hl : fs.locate p with
  | error fault => simp [bind, Except.bind]
  | ok found =>
      obtain ⟨l, e⟩ := found
      cases e with
      | file content executable => cases hd : Text.decode? content <;> simp [bind, Except.bind, hd]
      | directory => simp [bind, Except.bind]
      | link target => simp [bind, Except.bind]

theorem LinkFree.names_of_file? (h : fs.LinkFree) (ha : p.isAbsolute = true) (hn : p.normalize = p)
    (hf : fs.file? p = some (l, content)) : l.map Path.Component.name = p.inner := by
  obtain ⟨executable, hlocate⟩ := fs.locate_of_file? hf
  have hup : ['.', '.'] ∉ Text.split (· == '/') p.chars := by
    intro hm
    obtain ⟨pieces, hi⟩ := Path.exists_inner_normalize_of_isAbsolute ha
    have hmem : Path.Component.up ∈ pieces.map .name := by
      rw [← hi, hn]
      exact List.mem_filterMap.2 ⟨_, hm, rfl⟩
    simp at hmem
  rw [h.names_of_walk hup (fs.walk_of_locate hlocate), if_pos ha]
  rfl

theorem pathOf_eq_joinAll (hl : ∀ c ∈ l.map Path.Component.name, c.IsInner) :
    pathOf l = Path.joinAll ⟨['/']⟩ (l.map .name) := by
  have hnames : (l.map Path.Component.name).map Path.Component.chars = l := by
    rw [List.map_map]
    exact List.map_id l
  have hchars := (Path.chars_joinAll .one hl).1
  rw [hnames] at hchars
  exact congrArg Path.mk hchars.symm

/-- The working directory is a place that there can be: its names are no dots and have no slash in them. -/
def HasWorkDir (fs : FileSystem) : Prop := ∀ c ∈ fs.workDir.map Path.Component.name, c.IsInner

theorem HasWorkDir.workPath_eq (h : fs.HasWorkDir) : fs.workPath = Path.joinAll ⟨['/']⟩ (fs.workDir.map .name) :=
  pathOf_eq_joinAll h

theorem LinkFree.same_pathOf (h : fs.LinkFree) (ha : p.isAbsolute = true) (hn : p.normalize = p)
    (hf : fs.file? p = some (l, content)) : p.same (pathOf l) = true := by
  have hinner := h.names_of_file? ha hn hf
  have hl : ∀ c ∈ l.map Path.Component.name, c.IsInner := hinner ▸ fun c => Path.isInner_of_mem_inner
  have hpath : (pathOf l).inner = p.inner ∧ (pathOf l).isAbsolute = true := by
    rw [pathOf_eq_joinAll hl, Path.inner_joinAll hl, Path.isAbsolute_joinAll hl, hinner]
    exact ⟨rfl, rfl⟩
  exact Path.same_of_inner_eq ha hpath.2 hpath.1.symm

theorem LinkFree.eq_of_file? (h : fs.LinkFree) (hpa : p.isAbsolute = true) (hpn : p.normalize = p)
    (hqa : q.isAbsolute = true) (hqn : q.normalize = q) {content' : Text.Bytes}
    (hp : fs.file? p = some (l, content)) (hq : fs.file? q = some (l, content')) : p = q := by
  have hinner : p.inner = q.inner := (h.names_of_file? hpa hpn hp).symm.trans (h.names_of_file? hqa hqn hq)
  have hstack : p.stack = q.stack := by
    rw [Path.stack_eq, Path.stack_eq, hinner, Path.base, Path.base, hpa, hqa]
  rw [← hpn, ← hqn, Path.normalize_eq_of_stack_eq hstack]

end CMakeHelm.FileSystem
