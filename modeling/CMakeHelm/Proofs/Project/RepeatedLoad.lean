import CMakeHelm.Proofs.Project.Files
import CMakeHelm.Proofs.Project.Launch
import Mathlib

namespace CMakeHelm.Project

variable {p q : Project} {mets before after : List Met} {m : Met} {t : Target} {k : Key} {subdir : Path}

structure Known (p : Project) (mets : List Met) : Prop where
  declared : ∀ m ∈ mets, ∀ k ∈ m.declares, k ∈ p.keys
  recorded : ∀ path, .file path ∈ mets → p.files.any (·.same path) = true

theorem Known.of_eq (h : Known p mets) (hkeys : q.keys = p.keys) (hfiles : q.files = p.files) : Known q mets where
  declared := by
    rw [hkeys]
    exact h.declared
  recorded := by
    rw [hfiles]
    exact h.recorded

theorem mem_keys_meet (m : Met) : k ∈ (p.meet m).keys ↔ k ∈ p.keys ∨ k ∈ m.declares := by
  have hstay (hk : k ∈ p.keys) : k ∈ (p.meet m).keys := by
    obtain ⟨u, hu, rfl⟩ := List.mem_map.1 hk
    exact List.mem_map.2 ⟨_, (mem_targets_meet m).2 (.inl ⟨u, hu, rfl⟩), key_foldl_assign ..⟩
  constructor
  · intro hk
    obtain ⟨t, ht, rfl⟩ := List.mem_map.1 hk
    rcases (mem_targets_meet m).1 ht with ⟨u, hu, rfl⟩ | ⟨subdir, c, rfl, hc, -⟩
    · exact .inl (List.mem_map.2 ⟨u, hu, (key_foldl_assign ..).symm⟩)
    · exact .inr hc
  · rintro (hk | hk)
    · exact hstay hk
    · by_cases hold : k ∈ p.keys
      · exact hstay hold
      · cases m with
        | file path => cases hk
        | command subdir c =>
            have hkey := key_declared p k subdir
            refine List.mem_map.2 ⟨p.declared k subdir, (mem_targets_meet _).2 (.inr ?_), hkey⟩
            rw [hkey]
            exact ⟨subdir, c, rfl, hk, hold, rfl⟩

theorem any_same_addFile (file path : Path) :
    (p.addFile file).files.any (·.same path) = true ↔ p.files.any (·.same path) = true ∨ file.same path = true := by
  unfold addFile
  split
  · next hs =>
    -- A file that counts as recorded has the components of one that is.
    refine ⟨.inl, Or.rec id fun hsame => ?_⟩
    obtain ⟨other, hmem, hother⟩ := List.any_eq_true.1 hs
    have hcomponents : other.components = path.components :=
      (of_decide_eq_true hother).trans (of_decide_eq_true hsame)
    exact List.any_eq_true.2 ⟨other, hmem, decide_eq_true hcomponents⟩
  · have hparts : p.files.any (·.same path) =
        (p.files.takeWhile (·.before file) ++ p.files.dropWhile (·.before file)).any (·.same path) := by
      rw [List.takeWhile_append_dropWhile]
    rw [hparts]
    simp only [List.any_append, List.any_cons, Bool.or_eq_true]
    tauto

theorem Known.meet (h : Known p mets) (m : Met) : Known (p.meet m) (mets ++ [m]) where
  declared m' hm' k hk := by
    rw [mem_keys_meet]
    rcases List.mem_append.1 hm' with hm' | hm'
    · exact .inl (h.declared m' hm' k hk)
    · exact .inr (List.mem_singleton.1 hm' ▸ hk)
  recorded path hm := by
    cases m with
    | file file =>
        refine (any_same_addFile file path).2 ?_
        rcases List.mem_append.1 hm with hm | hm
        · exact .inl (h.recorded path hm)
        · cases List.mem_singleton.1 hm
          exact .inr (decide_eq_true rfl)
    | command subdir c =>
        have hfiles : (p.meet (.command subdir c)).files = p.files := files_perform p subdir c
        rw [hfiles]
        exact h.recorded path (by simpa using hm)

theorem known_foldl_meet (p : Project) (mets : List Met) : Known (mets.foldl Project.meet p) mets := by
  induction mets using List.reverseRecOn with
  | nil => exact ⟨nofun, nofun⟩
  | append_singleton mets m ih =>
      rw [List.foldl_append]
      exact ih.meet m

def assigned (mets : List Met) (t : Target) : Target := (mets.flatMap (Met.assigns t.key.name)).foldl assign t

theorem key_assigned (mets : List Met) (t : Target) : (assigned mets t).key = t.key := key_foldl_assign ..

theorem assigned_cons (m : Met) (mets : List Met) (t : Target) :
    assigned (m :: mets) t = assigned mets (assigned [m] t) := by
  unfold assigned
  rw [key_foldl_assign, List.flatMap_cons, List.foldl_append]
  simp

theorem outputDir_assigned (mets : List Met) (t : Target) (c : Configuration) :
    (assigned mets t).outputDir c = (lastDir? t.key c mets).or (t.outputDir c) := outputDir_foldl_assign ..

theorem outputName_assigned (mets : List Met) (t : Target) :
    (assigned mets t).outputName = (lastName? t.key mets).or t.outputName := outputName_foldl_assign ..

theorem assigned_assigned (mets : List Met) (t : Target) : assigned mets (assigned mets t) = assigned mets t := by
  refine eq_of_settings (key_assigned ..) (fun c => ?_) ?_ (subdir_foldl_assign ..)
  · rw [outputDir_assigned, outputDir_assigned, key_assigned, ← Option.or_assoc, Option.or_self]
  · rw [outputName_assigned, outputName_assigned, key_assigned, ← Option.or_assoc, Option.or_self]

theorem foldl_declare_of_mem {f : Key → Target} (hf : ∀ k, (f k).key = k) {ks : List Key} (hk : ∀ k ∈ ks, k ∈ p.keys) :
    ks.foldl (fun q k => q.declare (f k)) p = p := by
  induction ks with
  | nil => rfl
  | cons k ks ih =>
      obtain ⟨hmem, hrest⟩ := List.forall_mem_cons.1 hk
      have hany : p.targets.any (·.key = (f k).key) = true := by
        obtain ⟨t, ht, hkey⟩ := List.mem_map.1 hmem
        exact List.any_eq_true.2 ⟨t, ht, decide_eq_true (hkey.trans (hf k).symm)⟩
      rw [List.foldl_cons, declare, if_pos hany, ih hrest]

theorem Known.meet_eq (h : Known p [m]) : p.meet m = { p with targets := p.targets.map (assigned [m]) } := by
  cases m with
  | file path =>
      have hnone : assigned [.file path] = id := rfl
      rw [Project.meet, addFile, if_pos (h.recorded path List.mem_cons_self), hnone, List.map_id]
  | command subdir c =>
      by_cases hc : ∃ names properties, c = .setTargetProperties names properties
      · obtain ⟨names, properties, rfl⟩ := hc
        have hassigned (t : Target) : assigned [.command subdir (.setTargetProperties names properties)] t =
            if t.key.name ∈ names then properties.foldl assign t else t := by
          rw [assigned, List.flatMap_singleton, Met.assigns]
          split <;> rfl
        rw [Project.meet, perform, assignAll, funext hassigned]
      · have hc : ∀ names properties, c ≠ .setTargetProperties names properties := fun names properties he =>
          hc ⟨names, properties, he⟩
        have hnone : assigned [.command subdir c] = id := by
          cases c with
          | setTargetProperties names properties => exact absurd rfl (hc names properties)
          | _ => rfl
        have hdeclared : ∀ k ∈ c.declares, k ∈ p.keys := h.declared _ List.mem_cons_self
        rw [Project.meet, perform_eq_foldl_declare p subdir hc,
          foldl_declare_of_mem (fun k => key_declared p k subdir) hdeclared, hnone, List.map_id]

theorem Known.foldl_meet_eq (h : Known p mets) :
    mets.foldl Project.meet p = { p with targets := p.targets.map (assigned mets) } := by
  induction mets generalizing p with
  | nil =>
      have hnone : assigned [] = id := rfl
      rw [List.foldl_nil, hnone, List.map_id]
  | cons m mets ih =>
      have hfirst : Known p [m] := ⟨fun m' hm' => h.declared m' (List.mem_cons.2 (.inl (List.mem_singleton.1 hm'))),
        fun path hm => h.recorded path (List.mem_cons.2 (.inl (List.mem_singleton.1 hm)))⟩
      have hrest : Known p mets := ⟨fun m' hm' => h.declared m' (List.mem_cons_of_mem m hm'),
        fun path hm => h.recorded path (List.mem_cons_of_mem m hm)⟩
      have hkeys : keys { p with targets := p.targets.map (assigned [m]) } = p.keys := by
        rw [keys, List.map_map]
        exact List.map_congr_left fun t _ => key_assigned [m] t
      rw [List.foldl_cons, hfirst.meet_eq, ih (hrest.of_eq hkeys rfl), List.map_map]
      congr 2
      funext t
      exact (assigned_cons m mets t).symm

/-- Of what is met, `before` comes before the first declaration of the key, in the description file of `subdir`, and
`after` comes after it. -/
def DeclaredBetween (mets : List Met) (k : Key) (before : List Met) (subdir : Path) (after : List Met) : Prop :=
  ∃ c, mets = before ++ .command subdir c :: after ∧ k ∈ c.declares ∧ ∀ m ∈ before, k ∉ m.declares

theorem of_mem_targets_foldl_meet (ht : t ∈ (mets.foldl meet p).targets) :
    (∃ u ∈ p.targets, assigned mets u = t) ∨
      t.key ∉ p.keys ∧
        ∃ before subdir after, DeclaredBetween mets t.key before subdir after ∧
          assigned after (p.declared t.key subdir) = t := by
  induction mets generalizing p with
  | nil => exact .inl ⟨t, ht, rfl⟩
  | cons m mets ih =>
      rcases ih ht with ⟨u, hu, rfl⟩ | ⟨hnot, before, subdir, after, ⟨c, rfl, hc, hbefore⟩, hassigned⟩
      · rcases (mem_targets_meet m).1 hu with ⟨v, hv, rfl⟩ | ⟨subdir, c, rfl, hc, hnot, hu⟩
        · refine .inl ⟨v, hv, ?_⟩
          rw [assigned_cons, assigned, assigned, List.flatMap_singleton]
          rfl
        · rw [key_assigned]
          refine .inr ⟨hnot, [], subdir, mets, ⟨c, rfl, hc, by simp⟩, ?_⟩
          rw [← hu]
      · rw [mem_keys_meet, not_or] at hnot
        rw [declared_congr (sameSetting_meet p m).buildDir_eq] at hassigned
        have hfirst : ∀ m' ∈ m :: before, t.key ∉ m'.declares := List.forall_mem_cons.2 ⟨hnot.2, hbefore⟩
        exact .inr ⟨hnot.1, m :: before, subdir, after, ⟨c, rfl, hc, hfirst⟩, hassigned⟩

theorem exists_command_of_mem_targets (ht : t ∈ (mets.foldl meet p).targets) :
    t.key ∈ p.keys ∨ ∃ c, .command t.subdir c ∈ mets ∧ t.key ∈ c.declares := by
  rcases of_mem_targets_foldl_meet ht with ⟨u, hu, rfl⟩ | ⟨-, before, subdir, after, ⟨c, hmets, hc, -⟩, hassigned⟩
  · exact .inl (key_assigned mets u ▸ List.mem_map_of_mem hu)
  · have hsubdir : t.subdir = subdir := by
      rw [← congrArg Target.subdir hassigned, assigned, subdir_foldl_assign, subdir_declared]
    exact .inr ⟨c, by simp [hmets, hsubdir], hc⟩

theorem assigns_eq_nil {c : Command} (hk : k ∈ c.declares) (name : String) :
    (Met.command subdir c).assigns name = [] := by
  cases c with
  | setTargetProperties names properties => cases hk
  | _ => rfl

theorem DeclaredBetween.flatMap_assigns (h : DeclaredBetween mets k before subdir after) (name : String) :
    mets.flatMap (Met.assigns name) = before.flatMap (Met.assigns name) ++ after.flatMap (Met.assigns name) := by
  obtain ⟨c, rfl, hc, -⟩ := h
  rw [List.flatMap_append, List.flatMap_cons, assigns_eq_nil hc, List.nil_append]

theorem DeclaredBetween.lastDir? (h : DeclaredBetween mets k before subdir after) (c : Configuration) :
    lastDir? k c mets = (lastDir? k c after).or (lastDir? k c before) := by
  unfold Project.lastDir?
  rw [h.flatMap_assigns, List.filterMap_append, List.getLast?_append]

theorem DeclaredBetween.lastName? (h : DeclaredBetween mets k before subdir after) :
    lastName? k mets = (lastName? k after).or (lastName? k before) := by
  unfold Project.lastName?
  rw [h.flatMap_assigns, List.filterMap_append, List.getLast?_append]

/-- What becomes of the target `t` of a project when the same is met for the second time. Only where it was not in the
project `p` from before, and nothing was assigned to it after its first declaration, does it take what was assigned last
before that. -/
structure CatchesUp (p : Project) (mets : List Met) (t t' : Target) : Prop where
  key_eq : t'.key = t.key
  subdir_eq : t'.subdir = t.subdir
  eq_of_mem : t.key ∈ p.keys → t' = t
  of_not_mem : t.key ∉ p.keys → ∃ before subdir after, DeclaredBetween mets t.key before subdir after ∧
    (∀ c, t'.outputDir c =
      if (lastDir? t.key c after).isSome then t.outputDir c else (lastDir? t.key c before).or (t.outputDir c)) ∧
    t'.outputName =
      if (lastName? t.key after).isSome then t.outputName else (lastName? t.key before).or t.outputName

theorem catchesUp_assigned (ht : t ∈ (mets.foldl meet p).targets) : CatchesUp p mets t (assigned mets t) where
  key_eq := key_assigned mets t
  subdir_eq := subdir_foldl_assign ..
  eq_of_mem hmem := by
    obtain ⟨u, -, rfl⟩ := (of_mem_targets_foldl_meet ht).resolve_right fun h => h.1 hmem
    exact assigned_assigned mets u
  of_not_mem hnot := by
    rcases of_mem_targets_foldl_meet ht with ⟨u, hu, rfl⟩ | ⟨-, before, subdir, after, hbetween, hassigned⟩
    · exact absurd (List.mem_map_of_mem hu) (key_assigned mets u ▸ hnot)
    · have hkey : (p.declared t.key subdir).key = t.key := key_declared ..
      refine ⟨before, subdir, after, hbetween, fun c => ?_, ?_⟩
      · have hdir := outputDir_assigned after (p.declared t.key subdir) c
        rw [hassigned, hkey] at hdir
        rw [outputDir_assigned, hbetween.lastDir?, hdir]
        cases lastDir? t.key c after <;> simp
      · have hname := outputName_assigned after (p.declared t.key subdir)
        rw [hassigned, hkey] at hname
        rw [outputName_assigned, hbetween.lastName?, hname]
        cases lastName? t.key after <;> simp

theorem loadInto_loadInto_eq (p : Project) (fs : FileSystem) (subdir : Path) :
    (p.loadInto fs subdir).loadInto fs subdir =
      { p.loadInto fs subdir with
        targets := (p.loadInto fs subdir).targets.map (assigned (trace fs p.rootDir subdir)) } := by
  have hroot : (p.loadInto fs subdir).rootDir = p.rootDir := by
    rw [loadInto_eq, (sameSetting_foldl_meet _ _).rootDir_eq]
  have hknown : Known (p.loadInto fs subdir) (trace fs p.rootDir subdir) := by
    rw [loadInto_eq]
    exact known_foldl_meet _ _
  rw [loadInto_eq (p.loadInto fs subdir), hroot, hknown.foldl_meet_eq]

/-- Whatever is in a project, what is taken in a second time declares no target, moves none and records no file. In each
target only assignments from before its first declaration come to count, and from then on everything stays. -/
theorem loadInto_settles (p : Project) (fs : FileSystem) (subdir : Path) :
    let once := p.loadInto fs subdir
    let twice := once.loadInto fs subdir
    twice.keys = once.keys ∧ twice.targets.map (·.subdir) = once.targets.map (·.subdir) ∧ twice.files = once.files ∧
      List.Forall₂ (CatchesUp p (trace fs p.rootDir subdir)) once.targets twice.targets ∧
      twice.loadInto fs subdir = twice := by
  intro once twice
  have htwice : twice = { once with targets := once.targets.map (assigned (trace fs p.rootDir subdir)) } :=
    loadInto_loadInto_eq p fs subdir
  have honce : ∀ t ∈ once.targets,
      CatchesUp p (trace fs p.rootDir subdir) t (assigned (trace fs p.rootDir subdir) t) := by
    intro t ht
    have hmem : t ∈ ((trace fs p.rootDir subdir).foldl meet p).targets := loadInto_eq p fs subdir ▸ ht
    exact catchesUp_assigned hmem
  have hroot : once.rootDir = p.rootDir := by
    rw [← (sameSetting_foldl_meet p (trace fs p.rootDir subdir)).rootDir_eq, ← loadInto_eq]
  refine ⟨?_, ?_, ?_, ?_, ?_⟩
  · rw [htwice, keys, keys, List.map_map]
    exact List.map_congr_left fun t ht => (honce t ht).key_eq
  · rw [htwice, List.map_map]
    exact List.map_congr_left fun t ht => (honce t ht).subdir_eq
  · rw [htwice]
  · rw [htwice, List.forall₂_map_right_iff, List.forall₂_same]
    exact honce
  · have hthrice := loadInto_loadInto_eq once fs subdir
    rw [hroot, show once.loadInto fs subdir = twice from rfl] at hthrice
    rw [hthrice, htwice, List.map_map]
    simp only [Function.comp_def, assigned_assigned]

example :
    let early : List Met :=
      [.command Path.empty (.setTargetProperties ["app"] [.outputName "a"]), .command Path.empty (.addLibrary "app")]
    let once := early.foldl meet (new Path.empty Path.empty Path.empty .unix)
    once.targets.map (·.outputName) = [none, none, none] ∧
      (early.foldl meet once).targets.map (·.outputName) = [none, none, some "a"] := by
  decide +kernel

end CMakeHelm.Project
