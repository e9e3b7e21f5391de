import CMakeHelm.Proofs.FileSystem.Difference

namespace CMakeHelm.FileSystem

variable {fs : FileSystem} {links : Nat} {here l m : Location} {pieces : List (List Char)} {trail : List Location}
variable {e : Entry} {follow : Bool} {p tree : Path}

theorem lookup_filter (keep : Location → Bool) (m : Location) (entries : List (Location × Entry)) :
    (entries.filter fun entry => keep entry.1).lookup m = if keep m then entries.lookup m else none := by
  induction entries with
  | nil => simp
  | cons entry rest ih =>
      obtain ⟨l, e⟩ := entry
      by_cases heq : m = l
      · subst heq
        cases hkeep : keep m with
        | true => simp [hkeep]
        | false => simpa [hkeep] using ih
      · rw [List.filter_cons, apply_ite (List.lookup m), List.lookup_cons, List.lookup_cons, beq_false_of_ne heq, ih]
        exact ite_self _

theorem get?_filter (fs : FileSystem) (keep : Location → Bool) (m : Location) :
    { fs with entries := fs.entries.filter fun entry => keep entry.1 }.get? m =
      if m = [] ∨ keep m then fs.get? m else none := by
  cases m with
  | nil => rfl
  | cons name names => simpa [get?] using lookup_filter keep (name :: names) fs.entries

theorem get?_cutOff (fs : FileSystem) (top m : Location) :
    (fs.cutOff top).get? m = if m = [] ∨ ¬top <+: m then fs.get? m else none := by
  refine (get?_filter fs (fun l => !top.isPrefixOf l) m).trans ?_
  simp only [Bool.not_eq_true', Bool.eq_false_iff, ne_eq, List.isPrefixOf_iff_prefix]

theorem get?_clear (fs : FileSystem) (top m : Location) :
    (fs.clear top).get? m = if m = [] ∨ m = top ∨ ¬top <+: m then fs.get? m else none := by
  refine (get?_filter fs (fun l => l = top ∨ !top.isPrefixOf l) m).trans ?_
  simp only [decide_eq_true_eq, Bool.not_eq_true', Bool.eq_false_iff, ne_eq, List.isPrefixOf_iff_prefix]

theorem removeTree_cases (fs : FileSystem) (tree : Path) :
    (fs.removeTree tree).1 = fs ∨
      ∃ top e, fs.find false tree = .ok (.entry top e) ∧
        ((fs.removeTree tree).1 = fs.cutOff top ∨ (fs.removeTree tree).1 = fs.clear top) := by
  unfold removeTree
  split
  · exact .inl rfl
  split
  · next top target hfind => exact .inr ⟨top, _, hfind, .inl rfl⟩
  · next top hfind =>
    refine .inr ⟨top, _, hfind, ?_⟩
    split_ifs
    · exact .inr rfl
    · exact .inr rfl
    · exact .inr rfl
    · exact .inr rfl
    · exact .inl rfl
  · exact .inl rfl
  · exact .inl rfl
  · exact .inl rfl

theorem get?_removeTree (fs : FileSystem) (tree : Path) (m : Location) :
    (fs.removeTree tree).1.get? m = fs.get? m ∨
      (fs.removeTree tree).1.get? m = none ∧ ∃ top e, fs.find false tree = .ok (.entry top e) ∧ top <+: m := by
  rcases removeTree_cases fs tree with h | ⟨top, e, hfind, h | h⟩
  · exact .inl (by rw [h])
  · rw [h, get?_cutOff]
    split
    · exact .inl rfl
    · next hgone => exact .inr ⟨rfl, top, e, hfind, by tauto⟩
  · rw [h, get?_clear]
    split
    · exact .inl rfl
    · next hgone => exact .inr ⟨rfl, top, e, hfind, by tauto⟩

theorem workDir_removeTree (fs : FileSystem) (tree : Path) : (fs.removeTree tree).1.workDir = fs.workDir := by
  rcases removeTree_cases fs tree with h | ⟨top, e, -, h | h⟩ <;> rw [h] <;> rfl

theorem partOf_removeTree (fs : FileSystem) (tree : Path) : (fs.removeTree tree).1.PartOf fs where
  workDir_eq := workDir_removeTree fs tree
  kept l e he := by
    rcases get?_removeTree fs tree l with h | ⟨h, -⟩
    · exact h ▸ he
    · rw [h] at he
      cases he

/-- The path leads past what is at `tree`: no place that it leads through lies there or below. -/
def LeadsPast (fs : FileSystem) (p tree : Path) : Prop :=
  ∀ trail l e, fs.LeadsTo p trail l e → ∀ top e', fs.find false tree = .ok (.entry top e') → ∀ m ∈ trail, ¬top <+: m

theorem LeadsPast.file?_removeTree (h : fs.LeadsPast p tree) (hp : (fs.file? p).isSome) :
    (fs.removeTree tree).1.file? p = fs.file? p := by
  obtain ⟨⟨l, content⟩, hf⟩ := Option.isSome_iff_exists.1 hp
  obtain ⟨trail, executable, hleads⟩ := exists_leadsTo_of_file? hf
  rw [(partOf_removeTree fs tree).file?_eq hleads, hf, if_pos]
  intro m hm
  rcases get?_removeTree fs tree m with hkept | ⟨-, top, e, hfind, hbelow⟩
  · rw [hkept]
    exact hleads.isSome_of_mem hm
  · exact absurd hbelow (h trail l _ hleads top e hfind m hm)

/-- Every entry lies in a directory, as it does on every disk. -/
def IsTree (fs : FileSystem) : Prop := ∀ entry ∈ fs.entries, fs.get? entry.1.dropLast = some .directory

instance (fs : FileSystem) : Decidable fs.IsTree := inferInstanceAs (Decidable (∀ entry ∈ fs.entries, _))

theorem IsTree.get?_eq_none (h : fs.IsTree) (hl : fs.get? l ≠ some .directory) (hm : l <+: m) (hne : m ≠ l) :
    fs.get? m = none := by
  obtain ⟨below, rfl⟩ := hm
  induction below using List.reverseRecOn with
  | nil => exact absurd (List.append_nil l) hne
  | append_singleton below name ih =>
      rw [← List.append_assoc] at hne ⊢
      by_contra hsome
      obtain ⟨e, he⟩ := Option.ne_none_iff_exists'.1 hsome
      have hparent := h _ (fs.mem_of_get? he (by simp))
      rw [List.dropLast_concat] at hparent
      by_cases hbelow : below = []
      · exact hl (by rw [← hparent, hbelow, List.append_nil])
      · rw [ih (by simpa using hbelow)] at hparent
        cases hparent

theorem IsTree.get?_cutOff (h : fs.IsTree) (hl : fs.get? l ≠ some .directory) (m : Location) :
    (fs.cutOff l).get? m = if m = l then none else fs.get? m := by
  rw [FileSystem.get?_cutOff]
  by_cases hm : m = l
  · subst hm
    have hne : m ≠ [] := by
      rintro rfl
      exact hl rfl
    rw [if_pos rfl, if_neg (by simp [hne])]
  · rw [if_neg hm]
    split
    · rfl
    · next hbelow =>
      obtain ⟨-, hbelow⟩ := not_or.1 hbelow
      exact (h.get?_eq_none hl (not_not.1 hbelow) hm).symm

theorem IsTree.cutOff (h : fs.IsTree) (hl : fs.get? l ≠ some .directory) : (fs.cutOff l).IsTree := by
  intro entry hentry
  obtain ⟨hmem, -⟩ := List.mem_filter.1 hentry
  have hparent := h entry hmem
  have hne : entry.1.dropLast ≠ l := fun he => hl (he ▸ hparent)
  rw [h.get?_cutOff hl, if_neg hne, hparent]

theorem get?_of_find (h : fs.find follow p = .ok (.entry l e)) : fs.get? l = some e := by
  unfold find at h
  split at h
  · cases h
  split at h
  · cases h
  exact fs.get?_of_walk h

theorem not_isFile_of_isDirectory (h : fs.isDirectory p = true) : ¬ fs.isFile p = true := by
  unfold isDirectory at h
  unfold isFile file?
  split at h
  · next l hlocate => simp [hlocate]
  · cases h

theorem not_isFile_of_not_exists (h : fs.exists? p = false) : ¬ fs.isFile p = true := by
  unfold exists? at h
  unfold isFile file?
  cases hlocate : fs.locate p with
  | error fault => simp
  | ok found =>
      rw [hlocate] at h
      cases h

theorem Leads.walk_false (h : Leads fs links here pieces trail l e) :
    fs.walk false links here pieces = .ok (.entry l e) ∨
      ∃ l' target, fs.walk false links here pieces = .ok (.entry l' (.link target)) := by
  induction h with
  | stop he => exact .inl (by simp [walk, he])
  | stay hhere hpiece hrest ih => simpa [walk, hhere, hpiece] using ih
  | up hhere hrest ih => simpa [walk, hhere] using ih
  | @down links here piece rest trail l e hhere hpiece hup hlength hlink hrest ih =>
      rw [walk, if_neg (not_not.2 hhere), if_neg hpiece, if_neg hup, if_neg (not_lt.2 hlength)]
      obtain ⟨entry, hg⟩ := Option.isSome_iff_exists.1 (hrest.isSome_of_mem hrest.head_mem)
      cases entry with
      | link target => exact absurd hg (hlink target)
      | _ => simpa only [hg] using ih
  | @across links here piece rest trail l e target hhere hpiece hup hlength hlink htarget hrest ih =>
      rw [walk, if_neg (not_not.2 hhere), if_neg hpiece, if_neg hup, if_neg (not_lt.2 hlength)]
      by_cases hlast : rest = []
      · exact .inr ⟨here ++ [piece], target, by simp [hlink, hlast]⟩
      · simpa [hlink, htarget, hlast] using ih

theorem find_false_of_locate (h : fs.locate p = .ok (l, e)) :
    fs.find false p = .ok (.entry l e) ∨ ∃ l' target, fs.find false p = .ok (.entry l' (.link target)) := by
  obtain ⟨trail, hempty, hzero, hleads⟩ := locate_eq_ok_iff.1 h
  rw [find, if_neg hempty, if_neg hzero]
  exact hleads.walk_false

theorem exists?_of_locate (h : fs.locate p = .ok (l, e)) : fs.exists? p = true := by
  rw [exists?, h]
  rfl

theorem removeTree_of_not_exists (h : fs.exists? tree = false) : fs.removeTree tree = (fs, .ok ()) := by
  rw [removeTree, h]
  rfl

theorem removeTree_of_link {target : Path} (hexists : fs.exists? tree = true)
    (hfind : fs.find false tree = .ok (.entry l (.link target))) : fs.removeTree tree = (fs.cutOff l, .ok ()) := by
  simp [removeTree, hexists, hfind]

theorem removeTree_of_file {content : Text.Bytes} {executable : Bool} (hexists : fs.exists? tree = true)
    (hfind : fs.find false tree = .ok (.entry l (.file content executable))) :
    fs.removeTree tree = (fs, .error .notDirectory) := by
  simp [removeTree, hexists, hfind]

theorem removeTree_of_not_isDirectory (h : fs.isDirectory tree = false) :
    (fs.exists? tree = false ∧ fs.removeTree tree = (fs, .ok ())) ∨
      (∃ l target, fs.find false tree = .ok (.entry l (.link target)) ∧ fs.removeTree tree = (fs.cutOff l, .ok ())) ∨
      fs.isFile tree = true ∧ (∃ l content executable, fs.find false tree = .ok (.entry l (.file content executable))) ∧
        fs.removeTree tree = (fs, .error .notDirectory) := by
  cases hlocate : fs.locate tree with
  | error fault =>
      have hnone : fs.exists? tree = false := by
        rw [exists?, hlocate]
        rfl
      exact .inl ⟨hnone, removeTree_of_not_exists hnone⟩
  | ok found =>
      obtain ⟨l, e⟩ := found
      have hexists := exists?_of_locate hlocate
      rcases find_false_of_locate hlocate with hfind | ⟨l', target, hfind⟩
      · cases e with
        | directory => simp [isDirectory, hlocate] at h
        | link target => exact .inr (.inl ⟨l, target, hfind, removeTree_of_link hexists hfind⟩)
        | file content executable =>
            have hfile : fs.isFile tree = true := by
              rw [isFile, file?_eq_some_iff.2 ⟨executable, hlocate⟩]
              rfl
            exact .inr (.inr ⟨hfile, ⟨l, content, executable, hfind⟩, removeTree_of_file hexists hfind⟩)
      · exact .inr (.inl ⟨l', target, hfind, removeTree_of_link hexists hfind⟩)

end CMakeHelm.FileSystem
