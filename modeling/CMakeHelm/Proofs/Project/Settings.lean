import CMakeHelm.Proofs.Project.Declarations
import Mathlib.Data.List.Induction

namespace CMakeHelm

variable {kind : Kind} {c : Configuration} {key value : String}

def Property.dir? (kind : Kind) (c : Configuration) : Property → Option String
  | runtimeDir d dir => if kind = .run ∧ d = c then some dir else none
  | libraryDir d dir => if kind = .build ∧ d = c then some dir else none
  | outputName _ => none

def Property.name? : Property → Option String
  | outputName name => some name
  | _ => none

def Property.dirKey : Kind → Configuration → String
  | .run, .debug => "RUNTIME_OUTPUT_DIRECTORY_DEBUG"
  | .run, .release => "RUNTIME_OUTPUT_DIRECTORY_RELEASE"
  | .build, .debug => "LIBRARY_OUTPUT_DIRECTORY_DEBUG"
  | .build, .release => "LIBRARY_OUTPUT_DIRECTORY_RELEASE"

theorem Property.dir?_of_pair (kind : Kind) (c : Configuration) (key value : String) :
    (Property.ofPair? key value).bind (dir? kind c) = if key = dirKey kind c then some value else none := by
  unfold ofPair?
  split <;> cases kind <;> cases c <;> simp_all [dir?, dirKey]

theorem Property.name?_of_pair (key value : String) :
    (Property.ofPair? key value).bind name? = if key = "OUTPUT_NAME" then some value else none := by
  unfold ofPair?
  split <;> simp_all [name?]

namespace Command

/-- Keys with their values. A key at the end without a value is none. -/
def pairs : List String → List (String × String)
  | key :: value :: rest => (key, value) :: pairs rest
  | _ => []

def valuesOf (key : String) (args : List String) : List String := ((pairs args).filter (·.1 = key)).map (·.2)

theorem properties_eq (args : List String) :
    properties args = (pairs args).filterMap fun pair => Property.ofPair? pair.1 pair.2 := by
  fun_induction pairs args with
  | case1 key value rest ih =>
      rw [properties, ih, List.filterMap_cons]
      cases h : Property.ofPair? key value <;> simp
  | case2 args hargs => rw [properties] <;> simp_all

theorem filterMap_properties {f : Property → Option String}
    (hf : ∀ k value, (Property.ofPair? k value).bind f = if k = key then some value else none) (args : List String) :
    (properties args).filterMap f = valuesOf key args := by
  rw [properties_eq, List.filterMap_filterMap, valuesOf]
  simp only [hf]
  induction pairs args with
  | nil => rfl
  | cons pair rest ih =>
      rw [List.filterMap_cons, List.filter_cons]
      by_cases hk : pair.1 = key <;> simp [hk, ih]

end Command

namespace Project

variable {p : Project} {mets : List Met} {m : Met} {k : Key} {t : Target} {subdir : Path} {after : List Met}

/-- The properties that are assigned to targets of this name, in order. -/
def Met.assigns (name : String) : Met → List Property
  | command _ (.setTargetProperties names properties) => if name ∈ names then properties else []
  | _ => []

def lastDir? (k : Key) (c : Configuration) (mets : List Met) : Option String :=
  ((mets.flatMap (Met.assigns k.name)).filterMap (Property.dir? k.kind c)).getLast?

def lastName? (k : Key) (mets : List Met) : Option String :=
  ((mets.flatMap (Met.assigns k.name)).filterMap Property.name?).getLast?

theorem subdir_assign (t : Target) (property : Property) : (assign t property).subdir = t.subdir := by
  cases property with
  | outputName name => rfl
  | runtimeDir d dir => cases d <;> simp only [assign] <;> split <;> rfl
  | libraryDir d dir => cases d <;> simp only [assign] <;> split <;> rfl

theorem outputDir_assign (t : Target) (property : Property) (c : Configuration) :
    (assign t property).outputDir c = (property.dir? t.key.kind c).or (t.outputDir c) := by
  cases property with
  | outputName name => cases c <;> rfl
  | runtimeDir d dir =>
      simp only [assign, Property.dir?]
      split
      · rw [Target.outputDir_setOutputDir]
        by_cases hd : d = c <;> simp_all [eq_comm]
      · simp_all
  | libraryDir d dir =>
      simp only [assign, Property.dir?]
      split
      · rw [Target.outputDir_setOutputDir]
        by_cases hd : d = c <;> simp_all [eq_comm]
      · simp_all

theorem outputName_assign (t : Target) (property : Property) :
    (assign t property).outputName = property.name?.or t.outputName := by
  cases property with
  | outputName name => rfl
  | runtimeDir d dir => cases d <;> simp only [assign] <;> split <;> rfl
  | libraryDir d dir => cases d <;> simp only [assign] <;> split <;> rfl

theorem foldl_assign_eq_last (view : Target → Option String) {f : Property → Option String}
    (hview : ∀ (t : Target) (property : Property), t.key = k → view (assign t property) = (f property).or (view t))
    (ht : t.key = k) (properties : List Property) :
    view (properties.foldl assign t) = ((properties.filterMap f).getLast?).or (view t) := by
  induction properties generalizing t with
  | nil => rfl
  | cons property rest ih =>
      have hkey : (assign t property).key = k := (key_assign t property).trans ht
      rw [List.foldl_cons, ih hkey, hview t property ht, List.filterMap_cons]
      cases f property with
      | none => simp
      | some value => cases h : (rest.filterMap f).getLast? <;> simp [List.getLast?_cons, h]

theorem subdir_foldl_assign (t : Target) (properties : List Property) :
    (properties.foldl assign t).subdir = t.subdir := by
  induction properties generalizing t with
  | nil => rfl
  | cons property rest ih => rw [List.foldl_cons, ih, subdir_assign]

theorem eq_of_settings {t u : Target} (hkey : t.key = u.key) (hdir : ∀ c, t.outputDir c = u.outputDir c)
    (hname : t.outputName = u.outputName) (hsubdir : t.subdir = u.subdir) : t = u := by
  have hdebug : t.debugDir = u.debugDir := hdir .debug
  have hrelease : t.releaseDir = u.releaseDir := hdir .release
  cases t
  cases u
  simp_all

/-- `subdir` is where the description file stands that declares `k` first, and `after` is what is met after that.
Implicit targets are declared in front of everything. -/
def DeclaredFirst (mets : List Met) (k : Key) (subdir : Path) (after : List Met) : Prop :=
  if k ∈ implicitTargets.map (·.key) then subdir = Path.empty ∧ after = mets
  else
    ∃ before c, mets = before ++ .command subdir c :: after ∧ k ∈ c.declares ∧ ∀ m ∈ before, k ∉ m.declares

def declared (p : Project) (k : Key) (subdir : Path) : Target :=
  match k.kind with
  | .build => (Target.build k.name).declaredIn subdir
  | .run => (Target.run k.name (p.binaryDir subdir).toString).declaredIn subdir

theorem key_declared (p : Project) (k : Key) (subdir : Path) : (p.declared k subdir).key = k := by
  obtain ⟨name, kind⟩ := k
  cases kind <;> rfl

theorem subdir_declared (p : Project) (k : Key) (subdir : Path) : (p.declared k subdir).subdir = subdir := by
  obtain ⟨name, kind⟩ := k
  cases kind <;> rfl

theorem mem_targets_declare (u : Target) :
    t ∈ (p.declare u).targets ↔ t ∈ p.targets ∨ (t = u ∧ u.key ∉ p.keys) := by
  unfold declare
  split
  · next h =>
    have hmem : u.key ∈ p.keys := by
      obtain ⟨v, hv, hkey⟩ := List.any_eq_true.1 h
      exact List.mem_map.2 ⟨v, hv, by simpa using hkey⟩
    simp [hmem]
  · next h =>
    have hnot : u.key ∉ p.keys := by
      intro hm
      obtain ⟨v, hv, hkey⟩ := List.mem_map.1 hm
      exact h (List.any_eq_true.2 ⟨v, hv, by simpa using hkey⟩)
    simp [hnot]

theorem mem_keys_declare (u : Target) : k ∈ (p.declare u).keys ↔ k ∈ p.keys ∨ k = u.key := by
  constructor
  · intro hk
    obtain ⟨t, ht, rfl⟩ := List.mem_map.1 hk
    rcases (mem_targets_declare u).1 ht with ht | ⟨rfl, -⟩
    · exact .inl (List.mem_map_of_mem ht)
    · exact .inr rfl
  · intro hk
    by_cases hu : u.key ∈ p.keys
    · have hold : k ∈ p.keys := by
        rcases hk with hk | rfl
        · exact hk
        · exact hu
      obtain ⟨t, ht, rfl⟩ := List.mem_map.1 hold
      exact List.mem_map_of_mem ((mem_targets_declare u).2 (.inl ht))
    · rcases hk with hk | rfl
      · obtain ⟨t, ht, rfl⟩ := List.mem_map.1 hk
        exact List.mem_map_of_mem ((mem_targets_declare u).2 (.inl ht))
      · exact List.mem_map_of_mem ((mem_targets_declare u).2 (.inr ⟨rfl, hu⟩))

theorem mem_targets_foldl_declare {f : Key → Target} (hf : ∀ k, (f k).key = k) (ks : List Key) :
    t ∈ (ks.foldl (fun q k => q.declare (f k)) p).targets ↔
      t ∈ p.targets ∨ (t.key ∈ ks ∧ t.key ∉ p.keys ∧ t = f t.key) := by
  induction ks generalizing p with
  | nil => simp
  | cons k ks ih =>
      rw [List.foldl_cons, ih, mem_targets_declare, mem_keys_declare, hf, List.mem_cons]
      by_cases hk : t.key = k
      · subst hk
        constructor
        · rintro ((h | ⟨ht, hnot⟩) | ⟨-, hnot, -⟩)
          · exact .inl h
          · exact .inr ⟨.inl rfl, hnot, ht⟩
          · exact absurd (.inr rfl) hnot
        · rintro (h | ⟨-, hnot, ht⟩)
          · exact .inl (.inl h)
          · exact .inl (.inr ⟨ht, hnot⟩)
      · have hne : t ≠ f k := fun ht => hk (ht ▸ hf k)
        simp [hk, hne]

theorem perform_eq_foldl_declare (p : Project) (subdir : Path) {c : Command}
    (hc : ∀ names properties, c ≠ .setTargetProperties names properties) :
    p.perform subdir c = c.declares.foldl (fun q k => q.declare (p.declared k subdir)) p := by
  cases c with
  | setTargetProperties names properties => exact absurd rfl (hc names properties)
  | _ => rfl

theorem mem_targets_assignAll (names : List String) (properties : List Property) :
    t ∈ (p.assignAll names properties).targets ↔
      ∃ u ∈ p.targets, (if u.key.name ∈ names then properties else []).foldl assign u = t := by
  rw [assignAll, List.mem_map]
  apply exists_congr
  intro u
  split <;> rfl

theorem mem_targets_meet (m : Met) :
    t ∈ (p.meet m).targets ↔
      (∃ u ∈ p.targets, (m.assigns u.key.name).foldl assign u = t) ∨
        ∃ subdir c, m = .command subdir c ∧ t.key ∈ c.declares ∧ t.key ∉ p.keys ∧ t = p.declared t.key subdir := by
  cases m with
  | file path =>
      have hsame : (p.addFile path).targets = p.targets := by
        unfold addFile
        split <;> rfl
      simp [meet, hsame, Met.assigns]
  | command subdir c =>
      by_cases hc : ∃ names properties, c = .setTargetProperties names properties
      · obtain ⟨names, properties, rfl⟩ := hc
        rw [meet, perform, mem_targets_assignAll]
        simp [Met.assigns, Command.declares]
      · have hc : ∀ names properties, c ≠ .setTargetProperties names properties := by
          intro names properties he
          exact hc ⟨names, properties, he⟩
        have hassigns (name : String) : (Met.command subdir c).assigns name = [] := by
          cases c with
          | setTargetProperties names properties => exact absurd rfl (hc names properties)
          | _ => rfl
        rw [meet, perform_eq_foldl_declare p subdir hc, mem_targets_foldl_declare fun k => key_declared p k subdir]
        simp only [hassigns, List.foldl_nil, exists_eq_right]
        apply or_congr_right
        constructor
        · intro h
          exact ⟨subdir, c, rfl, h⟩
        · rintro ⟨_, _, he, h⟩
          cases he
          exact h

theorem declared_congr {q : Project} (h : q.buildDir = p.buildDir) (k : Key) (subdir : Path) :
    q.declared k subdir = p.declared k subdir := by
  simp only [declared, binaryDir, h]

theorem declaredFirst_concat :
    DeclaredFirst (mets ++ [m]) k subdir after ↔
      (∃ after', DeclaredFirst mets k subdir after' ∧ after = after' ++ [m]) ∨
        (k ∉ implicitTargets.map (·.key) ∧ (∀ m ∈ mets, k ∉ m.declares) ∧ after = [] ∧
          ∃ c, m = .command subdir c ∧ k ∈ c.declares) := by
  unfold DeclaredFirst
  by_cases hk : k ∈ implicitTargets.map (·.key)
  · simp only [hk, if_true, not_true_eq_false, false_and, or_false]
    constructor
    · rintro ⟨rfl, rfl⟩
      exact ⟨mets, ⟨rfl, rfl⟩, rfl⟩
    · rintro ⟨_, ⟨rfl, rfl⟩, rfl⟩
      exact ⟨rfl, rfl⟩
  · simp only [hk, if_false, not_false_eq_true, true_and]
    constructor
    · rintro ⟨before, c, he, hc, hbefore⟩
      rcases List.eq_nil_or_concat after with rfl | ⟨after', m', rfl⟩
      · obtain ⟨rfl, hm⟩ := List.append_inj' he rfl
        exact .inr ⟨hbefore, rfl, c, List.singleton_inj.1 hm, hc⟩
      · rw [List.concat_eq_append, ← List.cons_append, ← List.append_assoc] at he
        obtain ⟨rfl, hm⟩ := List.append_inj' he rfl
        rw [List.singleton_inj.1 hm]
        exact .inl ⟨after', ⟨before, c, rfl, hc, hbefore⟩, List.concat_eq_append ..⟩
    · rintro (⟨after', ⟨before, c, rfl, hc, hbefore⟩, rfl⟩ | ⟨hmets, rfl, c, rfl, hc⟩)
      · exact ⟨before, c, by simp, hc, hbefore⟩
      · exact ⟨mets, c, rfl, hc, hmets⟩

theorem mem_keys_foldl_meet (hp : p.targets = implicitTargets) :
    k ∈ (mets.foldl meet p).keys ↔ k ∈ implicitTargets.map (·.key) ∨ ∃ m ∈ mets, k ∈ m.declares := by
  have hkeys : p.keys = (implicitTargets.map (·.key)).eraseDups := by
    rw [keys, hp]
    rfl
  rw [keys_foldl_meet hkeys, List.mem_eraseDups, List.mem_append, List.mem_flatMap]

theorem declared_of_mem_implicitTargets (p : Project) (ht : t ∈ implicitTargets) :
    p.declared t.key Path.empty = t := by
  rcases List.mem_cons.1 ht with rfl | ht
  · rfl
  · rw [List.mem_singleton.1 ht]
    rfl

theorem mem_implicitTargets_iff (p : Project) :
    t ∈ implicitTargets ↔
      ∃ subdir after, DeclaredFirst [] t.key subdir after ∧
        (after.flatMap (Met.assigns t.key.name)).foldl assign (p.declared t.key subdir) = t := by
  constructor
  · intro ht
    refine ⟨Path.empty, [], ?_, declared_of_mem_implicitTargets p ht⟩
    rw [DeclaredFirst, if_pos (List.mem_map_of_mem ht)]
    exact ⟨rfl, rfl⟩
  · rintro ⟨subdir, after, hfirst, ht⟩
    by_cases hk : t.key ∈ implicitTargets.map (·.key)
    · rw [DeclaredFirst, if_pos hk] at hfirst
      obtain ⟨rfl, rfl⟩ := hfirst
      obtain ⟨u, hu, hkey⟩ := List.mem_map.1 hk
      have hsame : t = u := by
        rw [← ht, ← declared_of_mem_implicitTargets p hu, hkey, List.flatMap_nil, List.foldl_nil]
      exact hsame ▸ hu
    · rw [DeclaredFirst, if_neg hk] at hfirst
      obtain ⟨before, c, he, -⟩ := hfirst
      simp at he

theorem mem_targets_foldl_meet (hp : p.targets = implicitTargets) :
    t ∈ (mets.foldl meet p).targets ↔
      ∃ subdir after, DeclaredFirst mets t.key subdir after ∧
        (after.flatMap (Met.assigns t.key.name)).foldl assign (p.declared t.key subdir) = t := by
  -- The induction is on the end of the trace, since what is met last comes after every declaration before it.
  induction mets using List.reverseRecOn generalizing t with
  | nil =>
      rw [List.foldl_nil, hp]
      exact mem_implicitTargets_iff p
  | append_singleton mets m ih =>
      rw [List.foldl_append, List.foldl_cons, List.foldl_nil, mem_targets_meet]
      constructor
      · rintro (⟨u, hu, rfl⟩ | ⟨subdir, c, rfl, hc, hnot, ht⟩)
        · obtain ⟨subdir, after, hfirst, hu⟩ := ih.1 hu
          rw [key_foldl_assign]
          refine ⟨subdir, after ++ [m], declaredFirst_concat.2 (.inl ⟨after, hfirst, rfl⟩), ?_⟩
          rw [List.flatMap_append, List.foldl_append, hu, List.flatMap_singleton]
        · rw [mem_keys_foldl_meet hp, not_or] at hnot
          refine ⟨subdir, [], declaredFirst_concat.2 (.inr ⟨hnot.1, ?_, rfl, c, rfl, hc⟩), ?_⟩
          · intro m hm hd
            exact hnot.2 ⟨m, hm, hd⟩
          · rw [declared_congr (sameSetting_foldl_meet p mets).buildDir_eq] at ht
            exact ht.symm
      · rintro ⟨subdir, after, hfirst, ht⟩
        rcases declaredFirst_concat.1 hfirst with ⟨after', hfirst', rfl⟩ | ⟨himplicit, hnone, rfl, c, rfl, hc⟩
        · rw [List.flatMap_append, List.foldl_append, List.flatMap_singleton] at ht
          refine .inl ⟨(after'.flatMap (Met.assigns t.key.name)).foldl assign (p.declared t.key subdir), ?_, ?_⟩
          · refine ih.2 ⟨subdir, after', ?_, ?_⟩
            all_goals simp only [key_foldl_assign, key_declared]
            exact hfirst'
          · simpa only [key_foldl_assign, key_declared] using ht
        · refine .inr ⟨subdir, c, rfl, hc, ?_, ?_⟩
          · rw [mem_keys_foldl_meet hp, not_or]
            exact ⟨himplicit, fun ⟨m, hm, hd⟩ => hnone m hm hd⟩
          · rw [declared_congr (sameSetting_foldl_meet p mets).buildDir_eq]
            exact ht.symm

theorem mem_targets_load_iff (fs : FileSystem) (root build : Path) (platform : Platform) :
    t ∈ (load fs root build platform).targets ↔
      ∃ subdir after, DeclaredFirst (trace fs (root.absolute fs.workPath) Path.empty) t.key subdir after ∧
        (after.flatMap (Met.assigns t.key.name)).foldl assign
          ((new fs.workPath root build platform).declared t.key subdir) = t := by
  rw [load, loadInto_eq]
  exact mem_targets_foldl_meet rfl

/-- The directory of a target for which nobody sets one. -/
def defaultDir? (p : Project) (kind : Kind) (subdir : Path) : Option String :=
  if kind = .run then some (p.binaryDir subdir).toString else none

/-- The settings of `t` are the last ones assigned to it by what is met in `after`, or else those that its declaration
in `subdir` gives. -/
structure Settled (p : Project) (subdir : Path) (after : List Met) (t : Target) : Prop where
  outputDir : ∀ c, t.outputDir c = (lastDir? t.key c after).or (p.defaultDir? t.key.kind subdir)
  outputName : t.outputName = (lastName? t.key after).or (if t.key.kind = .run then some t.key.name else none)
  subdir : t.subdir = subdir

theorem settled_foldl_assign (p : Project) (k : Key) (subdir : Path) (after : List Met) :
    p.Settled subdir after ((after.flatMap (Met.assigns k.name)).foldl assign (p.declared k subdir)) := by
  have hkey := key_declared p k subdir
  have hdir (c : Configuration) : (p.declared k subdir).outputDir c = p.defaultDir? k.kind subdir := by
    obtain ⟨name, kind⟩ := k
    cases kind <;> cases c <;> rfl
  have hname : (p.declared k subdir).outputName = if k.kind = .run then some k.name else none := by
    obtain ⟨name, kind⟩ := k
    cases kind <;> rfl
  constructor
  · intro c
    rw [key_foldl_assign, hkey, ← hdir c]
    refine foldl_assign_eq_last (·.outputDir c) (fun t property ht => ?_) hkey _
    rw [outputDir_assign, ht]
  · rw [key_foldl_assign, hkey, ← hname]
    exact foldl_assign_eq_last (·.outputName) (fun t property _ => outputName_assign t property) hkey _
  · rw [subdir_foldl_assign, subdir_declared]

theorem Settled.unique {u : Target} (hkey : t.key = u.key) (ht : p.Settled subdir after t)
    (hu : p.Settled subdir after u) : t = u := by
  refine eq_of_settings hkey (fun c => ?_) ?_ (ht.subdir.trans hu.subdir.symm)
  · rw [ht.outputDir c, hu.outputDir c, hkey]
  · rw [ht.outputName, hu.outputName, hkey]

theorem mem_targets_load_iff_settled (fs : FileSystem) (root build : Path) (platform : Platform) (t : Target) :
    t ∈ (load fs root build platform).targets ↔
      ∃ subdir after, DeclaredFirst (trace fs (root.absolute fs.workPath) Path.empty) t.key subdir after ∧
        (new fs.workPath root build platform).Settled subdir after t := by
  rw [mem_targets_load_iff]
  refine exists_congr fun subdir => exists_congr fun after => and_congr_right fun _ => ?_
  have hsettled := settled_foldl_assign (new fs.workPath root build platform) t.key subdir after
  constructor
  · intro ht
    rwa [ht] at hsettled
  · intro ht
    exact hsettled.unique ((key_foldl_assign ..).trans (key_declared ..)) ht

end Project

end CMakeHelm
