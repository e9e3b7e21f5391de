import CMakeHelm.FileSystem.Change
import CMakeHelm.Proofs.FileSystem

namespace CMakeHelm.FileSystem

/-- From `here` the pieces lead to the entry `e` at `l`, past the places in `trail`. -/
inductive Leads (fs : FileSystem) : Nat → Location → List (List Char) → List Location → Location → Entry → Prop
  | stop {links here e} (he : fs.get? here = some e) : Leads fs links here [] [here] here e
  | stay {links here piece rest trail l e} (hhere : fs.get? here = some .directory)
      (hpiece : piece = [] ∨ piece = ['.']) (hrest : Leads fs links here rest trail l e) :
      Leads fs links here (piece :: rest) (here :: trail) l e
  | up {links here rest trail l e} (hhere : fs.get? here = some .directory)
      (hrest : Leads fs links here.dropLast rest trail l e) :
      Leads fs links here (['.', '.'] :: rest) (here :: trail) l e
  | down {links here piece rest trail l e} (hhere : fs.get? here = some .directory)
      (hpiece : ¬(piece = [] ∨ piece = ['.'])) (hup : piece ≠ ['.', '.'])
      (hlength : piece.length ≤ maxName)
      (hlink : ∀ target, fs.get? (here ++ [piece]) ≠ some (.link target))
      (hrest : Leads fs links (here ++ [piece]) rest trail l e) : Leads fs links here (piece :: rest) (here :: trail) l e
  | across {links here piece rest trail l e target} (hhere : fs.get? here = some .directory)
      (hpiece : ¬(piece = [] ∨ piece = ['.'])) (hup : piece ≠ ['.', '.'])
      (hlength : piece.length ≤ maxName) (hlink : fs.get? (here ++ [piece]) = some (.link target))
      (htarget : target.chars ≠ [])
      (hrest : Leads fs links (if target.isAbsolute then [] else here)
        (Text.split (· == '/') target.chars ++ rest) trail l e) :
      Leads fs (links + 1) here (piece :: rest) (here :: (here ++ [piece]) :: trail) l e

variable {fs fs' part : FileSystem} {l l' m : Location} {old new content : Text.Bytes} {p : Path} {e e' : Entry}
variable {links : Nat} {here : Location} {pieces : List (List Char)} {trail trail' : List Location}
variable {executable : Bool}

theorem exists_leads_of_walk (hw : fs.walk true links here pieces = .ok (.entry l e)) :
    ∃ trail, Leads fs links here pieces trail l e := by
  fun_induction walk fs true links here pieces with
  | case1 links here e he =>
      cases hw
      exact ⟨_, .stop he⟩
  | case2 => cases hw
  | case3 => cases hw
  | case4 links here piece rest hhere hpiece ih =>
      obtain ⟨trail, h⟩ := ih hw
      exact ⟨_, .stay (not_not.1 hhere) hpiece h⟩
  | case5 links here rest hhere hpiece ih =>
      obtain ⟨trail, h⟩ := ih hw
      exact ⟨_, .up (not_not.1 hhere) h⟩
  | case6 => cases hw
  | case7 => cases hw
  | case8 => cases hw
  | case9 links here piece rest hhere hpiece hup hlength l target hl hstop => simp at hstop
  | case10 => cases hw
  | case11 => cases hw
  | case12 here piece rest hhere hpiece hup hlength l target hl hstop htarget links ih =>
      obtain ⟨trail, h⟩ := ih hw
      exact ⟨_, .across (not_not.1 hhere) hpiece hup (not_lt.1 hlength) hl htarget h⟩
  | case13 links here piece rest hhere hpiece hup hlength l entry hentry hl ih =>
      obtain ⟨trail, h⟩ := ih hw
      refine ⟨_, .down (not_not.1 hhere) hpiece hup (not_lt.1 hlength) (fun target ht => ?_) h⟩
      exact hentry target (Option.some.inj (hl.symm.trans ht))

theorem Leads.get?_eq (h : Leads fs links here pieces trail l e) : fs.get? l = some e := by
  induction h <;> assumption

theorem Leads.head_mem (h : Leads fs links here pieces trail l e) : here ∈ trail := by
  cases h <;> exact List.mem_cons_self

theorem Leads.isSome_of_mem (h : Leads fs links here pieces trail l e) (hm : m ∈ trail) : (fs.get? m).isSome := by
  induction h with
  | stop he =>
      rw [List.mem_singleton.1 hm, he]
      rfl
  | stay hhere _ _ ih | up hhere _ ih | down hhere _ _ _ _ _ ih =>
      rcases List.mem_cons.1 hm with rfl | hm
      · rw [hhere]
        rfl
      · exact ih hm
  | across hhere _ _ _ hlink _ _ ih =>
      rcases List.mem_cons.1 hm with rfl | hm
      · rw [hhere]
        rfl
      · rcases List.mem_cons.1 hm with rfl | hm
        · rw [hlink]
          rfl
        · exact ih hm

theorem Leads.walk_eq (h : Leads fs links here pieces trail l e) :
    fs.walk true links here pieces = .ok (.entry l e) := by
  induction h with
  | stop he => simp [walk, he]
  | stay hhere hpiece hrest ih => simp [walk, hhere, hpiece, ih]
  | up hhere hrest ih => simp [walk, hhere, ih]
  | @down links here piece rest trail l e hhere hpiece hup hlength hlink hrest ih =>
      rw [walk, if_neg (not_not.2 hhere), if_neg hpiece, if_neg hup, if_neg (not_lt.2 hlength)]
      obtain ⟨entry, hg⟩ := Option.isSome_iff_exists.1 (hrest.isSome_of_mem hrest.head_mem)
      cases entry with
      | link target => exact absurd hg (hlink target)
      | _ => simpa only [hg] using ih
  | across hhere hpiece hup hlength hlink htarget hrest ih =>
      rw [walk, if_neg (not_not.2 hhere), if_neg hpiece, if_neg hup, if_neg (not_lt.2 hlength)]
      simpa [hlink, htarget] using ih

theorem walk_eq_ok_iff : fs.walk true links here pieces = .ok (.entry l e) ↔
    ∃ trail, Leads fs links here pieces trail l e :=
  ⟨exists_leads_of_walk, fun ⟨_, h⟩ => h.walk_eq⟩

theorem Leads.trail_eq (h : Leads fs links here pieces trail l e) (h' : Leads fs links here pieces trail' l' e') :
    trail = trail' := by
  induction h generalizing trail' with
  | stop => cases h'; rfl
  | stay hhere hpiece hrest ih =>
      cases h' with
      | stay _ _ hrest' => rw [ih hrest']
      | up => simp at hpiece
      | down _ hpiece' => exact absurd hpiece hpiece'
      | across _ hpiece' => exact absurd hpiece hpiece'
  | up hhere hrest ih =>
      cases h' with
      | stay _ hpiece => simp at hpiece
      | up _ hrest' => rw [ih hrest']
      | down _ _ hup => exact absurd rfl hup
      | across _ _ hup => exact absurd rfl hup
  | down hhere hpiece hup _ hlink hrest ih =>
      cases h' with
      | stay _ hpiece' => exact absurd hpiece' hpiece
      | up => exact absurd rfl hup
      | down _ _ _ _ _ hrest' => rw [ih hrest']
      | across _ _ _ _ hlink' => exact absurd hlink' (hlink _)
  | across hhere hpiece hup _ hlink htarget hrest ih =>
      cases h' with
      | stay _ hpiece' => exact absurd hpiece' hpiece
      | up => exact absurd rfl hup
      | down _ _ _ _ hlink' => exact absurd hlink (hlink' _)
      | across _ _ _ _ hlink' _ hrest' =>
          cases Option.some.inj (hlink.symm.trans hlink')
          rw [ih hrest']

def AlikeAt (fs fs' : FileSystem) (m : Location) : Prop :=
  ∀ e, fs.get? m = some e → ∃ e', fs'.get? m = some e' ∧ Entry.becomes e e'

theorem AlikeAt.of_eq (h : fs'.get? m = fs.get? m) : AlikeAt fs fs' m := by
  intro e he
  exact ⟨e, h.trans he, by cases e <;> simp [Entry.becomes]⟩

theorem AlikeAt.directory (h : AlikeAt fs fs' m) (hg : fs.get? m = some .directory) :
    fs'.get? m = some .directory := by
  obtain ⟨e', hg', hbecomes⟩ := h _ hg
  cases e' <;> simp_all [Entry.becomes]

theorem AlikeAt.link (h : AlikeAt fs fs' m) {target : Path} (hg : fs.get? m = some (.link target)) :
    fs'.get? m = some (.link target) := by
  obtain ⟨e', hg', hbecomes⟩ := h _ hg
  cases e' <;> simp_all [Entry.becomes]

theorem AlikeAt.ne_link (h : AlikeAt fs fs' m) (hsome : (fs.get? m).isSome)
    (hlink : ∀ target, fs.get? m ≠ some (.link target)) (target : Path) : fs'.get? m ≠ some (.link target) := by
  obtain ⟨e, hg⟩ := Option.isSome_iff_exists.1 hsome
  obtain ⟨e', hg', hbecomes⟩ := h _ hg
  cases e <;> cases e' <;> simp_all [Entry.becomes]

/-- What is at the places on the way counts and nothing else, and of a file only that it is one. -/
theorem Leads.transfer (h : Leads fs links here pieces trail l e) (hsame : ∀ m ∈ trail, AlikeAt fs fs' m) :
    ∃ e', fs'.get? l = some e' ∧ Leads fs' links here pieces trail l e' := by
  induction h with
  | stop he =>
      obtain ⟨e', he', -⟩ := hsame _ List.mem_cons_self _ he
      exact ⟨e', he', .stop he'⟩
  | stay hhere hpiece hrest ih =>
      obtain ⟨hfirst, hsame⟩ := List.forall_mem_cons.1 hsame
      obtain ⟨e', he', h⟩ := ih hsame
      exact ⟨e', he', .stay (hfirst.directory hhere) hpiece h⟩
  | up hhere hrest ih =>
      obtain ⟨hfirst, hsame⟩ := List.forall_mem_cons.1 hsame
      obtain ⟨e', he', h⟩ := ih hsame
      exact ⟨e', he', .up (hfirst.directory hhere) h⟩
  | down hhere hpiece hup hlength hlink hrest ih =>
      obtain ⟨hfirst, hsame⟩ := List.forall_mem_cons.1 hsame
      obtain ⟨e', he', h⟩ := ih hsame
      have hnext := hsame _ hrest.head_mem
      exact ⟨e', he', .down (hfirst.directory hhere) hpiece hup hlength
        (hnext.ne_link (hrest.isSome_of_mem hrest.head_mem) hlink) h⟩
  | across hhere hpiece hup hlength hlink htarget hrest ih =>
      obtain ⟨hfirst, hsame⟩ := List.forall_mem_cons.1 hsame
      obtain ⟨hnext, hsame⟩ := List.forall_mem_cons.1 hsame
      obtain ⟨e', he', h⟩ := ih hsame
      exact ⟨e', he', .across (hfirst.directory hhere) hpiece hup hlength (hnext.link hlink) htarget h⟩

/-- The path leads to the entry `e` at `l`, links followed, past the places in `trail`. -/
def LeadsTo (fs : FileSystem) (p : Path) (trail : List Location) (l : Location) (e : Entry) : Prop :=
  p.chars ≠ [] ∧ '\x00' ∉ p.chars ∧
    Leads fs maxLinks (if p.isAbsolute then [] else fs.workDir) (Text.split (· == '/') p.chars) trail l e

theorem locate_eq_ok_iff : fs.locate p = .ok (l, e) ↔ ∃ trail, fs.LeadsTo p trail l e := by
  unfold locate find LeadsTo
  by_cases hempty : p.chars = []
  · simp [hempty, bind, Except.bind]
  by_cases hzero : '\x00' ∈ p.chars
  · simp [hempty, hzero, bind, Except.bind]
  simp only [hempty, hzero, if_false, ne_eq, not_false_eq_true, true_and, ← walk_eq_ok_iff]
  cases fs.walk true maxLinks (if p.isAbsolute then [] else fs.workDir) (Text.split (· == '/') p.chars) with
  | error fault => simp [bind, Except.bind]
  | ok found => cases found <;> simp [bind, Except.bind]

theorem file?_eq_some_iff : fs.file? p = some (l, content) ↔
    ∃ executable, fs.locate p = .ok (l, .file content executable) := by
  refine ⟨fs.locate_of_file?, fun ⟨executable, h⟩ => ?_⟩
  rw [file?, h]

theorem exists_leadsTo_of_file? (hf : fs.file? p = some (l, content)) :
    ∃ trail executable, fs.LeadsTo p trail l (.file content executable) := by
  obtain ⟨executable, hlocate⟩ := file?_eq_some_iff.1 hf
  obtain ⟨trail, h⟩ := locate_eq_ok_iff.1 hlocate
  exact ⟨trail, executable, h⟩

theorem LeadsTo.file?_eq (h : fs.LeadsTo p trail l (.file content executable)) : fs.file? p = some (l, content) :=
  file?_eq_some_iff.2 ⟨executable, locate_eq_ok_iff.2 ⟨trail, h⟩⟩

theorem LeadsTo.get?_eq (h : fs.LeadsTo p trail l e) : fs.get? l = some e := h.2.2.get?_eq

theorem LeadsTo.isSome_of_mem (h : fs.LeadsTo p trail l e) (hm : m ∈ trail) : (fs.get? m).isSome :=
  h.2.2.isSome_of_mem hm

theorem LeadsTo.trail_eq (h : fs.LeadsTo p trail l e) (h' : fs.LeadsTo p trail' l' e') : trail = trail' :=
  h.2.2.trail_eq h'.2.2

theorem exists_get?_of_file? (hf : fs.file? p = some (l, content)) :
    ∃ executable, fs.get? l = some (.file content executable) :=
  (fs.locate_of_file? hf).imp fun _ => fs.get?_of_locate

theorem content_eq (hf : fs.file? p = some (l, content)) (hl : fs.get? l = some (.file old executable)) :
    content = old := by
  obtain ⟨executable, hl'⟩ := exists_get?_of_file? hf
  cases hl.symm.trans hl'
  rfl

theorem LeadsTo.transfer (h : fs.LeadsTo p trail l e) (hdir : fs'.workDir = fs.workDir)
    (hsame : ∀ m ∈ trail, AlikeAt fs fs' m) : ∃ e', fs'.get? l = some e' ∧ fs'.LeadsTo p trail l e' := by
  obtain ⟨hempty, hzero, h⟩ := h
  obtain ⟨e', he', h'⟩ := h.transfer hsame
  exact ⟨e', he', hempty, hzero, hdir ▸ h'⟩

/-- At `l` there is a file that holds `old` in the one and `new` in the other; nothing else differs. -/
structure Edited (fs fs' : FileSystem) (l : Location) (old new : Text.Bytes) : Prop where
  workDir_eq : fs'.workDir = fs.workDir
  elsewhere : ∀ m ≠ l, fs'.get? m = fs.get? m
  edited : ∃ executable, fs.get? l = some (.file old executable) ∧ fs'.get? l = some (.file new executable)

theorem Edited.symm (h : Edited fs fs' l old new) : Edited fs' fs l new old where
  workDir_eq := h.workDir_eq.symm
  elsewhere m hm := (h.elsewhere m hm).symm
  edited := h.edited.imp fun _ => And.symm

theorem Edited.eq_old (h : Edited fs fs' l old new) (hf : fs.file? p = some (l, content)) : content = old := by
  obtain ⟨executable, hold, -⟩ := h.edited
  exact content_eq hf hold

theorem Edited.alikeAt (h : Edited fs fs' l old new) (m : Location) : AlikeAt fs fs' m := by
  by_cases hm : m = l
  · obtain ⟨executable, hold, hnew⟩ := h.edited
    intro e he
    rw [hm, hold] at he
    exact ⟨_, hm ▸ hnew, by cases he; rfl⟩
  · exact .of_eq (h.elsewhere m hm)

theorem Edited.file?_of_some (h : Edited fs fs' l old new) (hf : fs.file? p = some (m, content)) :
    fs'.file? p = some (m, if m = l then new else content) := by
  obtain ⟨executable, hlocate⟩ := file?_eq_some_iff.1 hf
  obtain ⟨trail, hleads⟩ := locate_eq_ok_iff.1 hlocate
  obtain ⟨e', he', hleads'⟩ := hleads.transfer h.workDir_eq fun m _ => h.alikeAt m
  have hlocate' := locate_eq_ok_iff.2 ⟨trail, hleads'⟩
  by_cases hm : m = l
  · obtain ⟨executable, -, hnew⟩ := h.edited
    rw [hm, hnew] at he'
    rw [← Option.some.inj he'] at hlocate'
    exact file?_eq_some_iff.2 ⟨executable, by rw [if_pos hm, hlocate']⟩
  · rw [h.elsewhere m hm, fs.get?_of_locate hlocate] at he'
    rw [← Option.some.inj he'] at hlocate'
    exact file?_eq_some_iff.2 ⟨executable, by rw [if_neg hm, hlocate']⟩

theorem Edited.file?_of_none (h : Edited fs fs' l old new) (hf : fs.file? p = none) : fs'.file? p = none := by
  cases hf' : fs'.file? p with
  | none => rfl
  | some found =>
      have hback := h.symm.file?_of_some hf'
      rw [hf] at hback
      cases hback

/-- What the one has the other has too, in the same place. -/
structure PartOf (part fs : FileSystem) : Prop where
  workDir_eq : part.workDir = fs.workDir
  kept : ∀ l e, part.get? l = some e → fs.get? l = some e

theorem PartOf.get?_eq (h : part.PartOf fs) (hm : (part.get? m).isSome) : part.get? m = fs.get? m := by
  obtain ⟨e, he⟩ := Option.isSome_iff_exists.1 hm
  exact he.trans (h.kept m e he).symm

theorem PartOf.leadsTo (h : part.PartOf fs) (hleads : part.LeadsTo p trail l e) : fs.LeadsTo p trail l e := by
  obtain ⟨e', he', hleads'⟩ := hleads.transfer h.workDir_eq.symm fun m hm =>
    .of_eq (h.get?_eq (hleads.isSome_of_mem hm)).symm
  rw [h.kept l e hleads.get?_eq] at he'
  exact Option.some.inj he' ▸ hleads'

theorem PartOf.file?_eq (h : part.PartOf fs) (hleads : fs.LeadsTo p trail l (.file content executable)) :
    part.file? p = if ∀ m ∈ trail, (part.get? m).isSome then some (l, content) else none := by
  split
  · next hkept =>
    obtain ⟨e', -, hleads'⟩ := hleads.transfer h.workDir_eq fun m hm => .of_eq (h.get?_eq (hkept m hm))
    have hl := (h.leadsTo hleads').get?_eq
    rw [hleads.get?_eq] at hl
    exact LeadsTo.file?_eq (Option.some.inj hl ▸ hleads')
  · next hgone =>
    cases hf : part.file? p with
    | none => rfl
    | some found =>
        obtain ⟨trail', executable, hleads'⟩ := exists_leadsTo_of_file? hf
        rw [hleads.trail_eq (h.leadsTo hleads')] at hgone
        exact absurd (fun m hm => hleads'.isSome_of_mem hm) hgone

theorem PartOf.file?_eq_none_or (h : part.PartOf fs) (p : Path) : part.file? p = none ∨ part.file? p = fs.file? p := by
  cases hf : part.file? p with
  | none => exact .inl rfl
  | some found =>
      obtain ⟨trail, executable, hleads⟩ := exists_leadsTo_of_file? hf
      exact .inr (h.leadsTo hleads).file?_eq.symm

end CMakeHelm.FileSystem
