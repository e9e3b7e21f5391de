import CMakeHelm.Proofs.Path
import CMakeHelm.Proofs.Project.Settings

namespace CMakeHelm

namespace Statement

def isNamed (s : Statement) (name : String) : Bool := s.name.toLower == name

def subdirectory? (s : Statement) : Option String :=
  if s.isNamed "add_subdirectory" then s.args.head? else none

/-- The keys that a statement declares, in order. -/
def declares (s : Statement) : List Key :=
  if s.isNamed "add_executable" then s.args.head?.toList.flatMap fun name => [⟨name, .build⟩, ⟨name, .run⟩]
  else if s.isNamed "add_library" ∨ s.isNamed "add_custom_target" then s.args.head?.toList.map fun name => ⟨name, .build⟩
  else if s.isNamed "enable_testing" then [⟨"test", .build⟩]
  else []

/-- The values that a statement gives to one key of the targets of one name. The names stand before `PROPERTIES`, keys
and values in turns after it. -/
def valuesOf (s : Statement) (name key : String) : List String :=
  if s.isNamed "set_target_properties" ∧ "PROPERTIES" ∈ s.args ∧ name ∈ s.args.takeWhile (· ≠ "PROPERTIES") then
    Command.valuesOf key (s.args.dropWhile (· ≠ "PROPERTIES")).tail
  else []

end Statement

namespace Project

variable {fs : FileSystem} {root subdir : Path} {seen : List Location} {s : Statement} {k : Key} {p : Project}
  {t : Target}

theorem declares_ofStatement (s : Statement) : (Command.ofStatement s).declares = s.declares := by
  unfold Command.ofStatement Statement.declares
  split
  case h_6 args hname =>
    unfold Command.setProperties
    split <;> simp [Command.declares, Statement.isNamed, hname]
  case h_7 hexecutable hlibrary hcustom htesting _ _ =>
    cases hargs : s.args <;> simp_all [Command.declares, Statement.isNamed]
  all_goals simp_all [Command.declares, Statement.isNamed]

theorem subdirectory?_eq_none_or (s : Statement) :
    (∃ dir, s.subdirectory? = some dir ∧ Command.ofStatement s = .addSubdirectory dir) ∨
      s.subdirectory? = none ∧ ∀ dir, Command.ofStatement s ≠ .addSubdirectory dir := by
  unfold Command.ofStatement
  split
  case h_5 dir _ hname hargs => exact .inl ⟨dir, by simp [Statement.subdirectory?, Statement.isNamed, hname, hargs], rfl⟩
  case h_6 args hname =>
    refine .inr ⟨by simp [Statement.subdirectory?, Statement.isNamed, hname], fun dir => ?_⟩
    unfold Command.setProperties
    split <;> nofun
  case h_7 hsubdirectory _ =>
    refine .inr ⟨?_, nofun⟩
    cases hargs : s.args <;> simp_all [Statement.subdirectory?, Statement.isNamed]
  all_goals exact .inr ⟨by simp_all [Statement.subdirectory?, Statement.isNamed], nofun⟩

theorem filterMap_assigns {f : Property → Option String} {key : String}
    (hf : ∀ k value, (Property.ofPair? k value).bind f = if k = key then some value else none) (s : Statement)
    (name : String) :
    ((Met.command subdir (Command.ofStatement s)).assigns name).filterMap f = s.valuesOf name key := by
  unfold Command.ofStatement
  split
  case h_6 args hname =>
    unfold Command.setProperties Statement.valuesOf
    simp only [Statement.isNamed, hname, beq_self_eq_true, true_and]
    by_cases hmarker : "PROPERTIES" ∈ s.args
    · rw [Command.marker, if_pos hmarker]
      by_cases hnames : name ∈ s.args.takeWhile (· ≠ "PROPERTIES")
      · simp only [Met.assigns, hmarker, hnames, if_true, true_and]
        exact Command.filterMap_properties hf _
      · simp only [Met.assigns, hnames, and_false, if_false, List.filterMap_nil]
    · rw [Command.marker, if_neg hmarker]
      simp [Met.assigns, hmarker]
  case h_7 hproperties =>
    have hnot : s.isNamed "set_target_properties" = false := by
      simp_all [Statement.isNamed]
    simp [Met.assigns, Statement.valuesOf, hnot]
  all_goals simp_all [Met.assigns, Statement.valuesOf, Statement.isNamed]

/-- What is still to be walked, statement by statement. -/
inductive Due where
  | enter (subdir : Path)
  | statement (subdir : Path) (s : Statement)
deriving DecidableEq, Repr

def dueOf (subdir : Path) (s : Statement) : Due :=
  match s.subdirectory? with
  | some dir => .enter (subdir.join (Path.ofString dir)).normalize
  | none => .statement subdir s

/-- The statements that are met from the work due on, each with the directory of its file, when the files at `seen` were
reached before. -/
def walkStatements (fs : FileSystem) (root : Path) (seen : List Location) : List Due → List (Path × Statement)
  | [] => []
  | .statement subdir s :: rest => (subdir, s) :: walkStatements fs root seen rest
  | .enter subdir :: rest =>
    match _h : fs.file? (descriptionPath root subdir) with
    | none => walkStatements fs root seen rest
    | some (l, content) =>
      if _hl : l ∈ seen then walkStatements fs root seen rest
      else
        match Text.decode? content with
        | none => walkStatements fs root (l :: seen) rest
        | some text =>
          walkStatements fs root (l :: seen) ((Statement.scan (String.ofList text)).map (dueOf subdir) ++ rest)
termination_by due => (fs.unseen seen, due.length)
decreasing_by
  · exact Prod.Lex.right _ (by simp)
  · exact Prod.Lex.right _ (by simp)
  · exact Prod.Lex.right _ (by simp)
  · exact Prod.Lex.left _ _ (fs.unseen_cons_lt _hl (fs.mem_of_file? _h))
  · exact Prod.Lex.left _ _ (fs.unseen_cons_lt _hl (fs.mem_of_file? _h))

/-- The statements in document order, those of a subdirectory in the place of the statement that first reaches it. -/
def statements (fs : FileSystem) (root subdir : Path) : List (Path × Statement) :=
  walkStatements fs root [] [.enter subdir]

def classify (x : Path × Statement) : Met := .command x.1 (Command.ofStatement x.2)

def Due.pending : Due → Pending
  | enter subdir => .enter subdir
  | statement subdir s => .command subdir (Command.ofStatement s)

def Met.isCommand : Met → Bool
  | file _ => false
  | command _ _ => true

theorem pending_dueOf (subdir : Path) (s : Statement) : (dueOf subdir s).pending = pendingOf subdir (Command.ofStatement s) := by
  obtain ⟨dir, hdir, hcommand⟩ | ⟨hnone, hcommand⟩ := subdirectory?_eq_none_or s
  · rw [dueOf, hdir, hcommand]
    rfl
  · rw [dueOf, hnone, pendingOf_eq hcommand]
    rfl

theorem filter_walk (fs : FileSystem) (root : Path) (seen : List Location) (due : List Due) :
    (walk fs root seen (due.map Due.pending)).filter Met.isCommand = (walkStatements fs root seen due).map classify := by
  fun_induction walkStatements fs root seen due with
  | case1 seen => simp [walk]
  | case2 seen subdir s rest ih =>
      rw [List.map_cons, Due.pending, walk_command, List.filter_cons_of_pos rfl, ih, List.map_cons, classify]
  | case3 seen subdir rest hf ih =>
      rw [List.map_cons, Due.pending, walk_enter]
      simpa only [hf] using ih
  | case4 seen subdir rest l content hf hl ih =>
      rw [List.map_cons, Due.pending, walk_enter]
      simpa only [hf, if_pos hl] using ih
  | case5 seen subdir rest l content hf hl hd ih =>
      rw [List.map_cons, Due.pending, walk_enter]
      simpa only [hf, if_neg hl, hd] using ih
  | case6 seen subdir rest l content hf hl text hd ih =>
      have hpending : ((Statement.scan (String.ofList text)).map (dueOf subdir)).map Due.pending =
          (Command.scan (String.ofList text)).map (pendingOf subdir) := by
        rw [Command.scan, List.map_map, List.map_map]
        exact List.map_congr_left fun s _ => pending_dueOf subdir s
      rw [List.map_cons, Due.pending, walk_enter_of_read hf hl hd, List.filter_cons_of_neg (by simp [Met.isCommand]),
        ← ih, List.map_append, hpending]

theorem filter_trace (fs : FileSystem) (root subdir : Path) :
    (trace fs root subdir).filter Met.isCommand = (statements fs root subdir).map classify :=
  filter_walk fs root [] [.enter subdir]

/-- `subdir` is where the first statement stands that declares `k`, and `after` are the statements after it. Implicit
targets are declared in front of everything. -/
def FirstDeclared (stated : List (Path × Statement)) (k : Key) (subdir : Path) (after : List (Path × Statement)) : Prop :=
  if k ∈ implicitTargets.map (·.key) then subdir = Path.empty ∧ after = stated
  else
    ∃ before s, stated = before ++ (subdir, s) :: after ∧ k ∈ s.declares ∧ ∀ x ∈ before, k ∉ x.2.declares

/-- The last of the values that are given to one key of the targets of one name. -/
def lastValue? (stated : List (Path × Statement)) (name key : String) : Option String :=
  (stated.flatMap fun x => x.2.valuesOf name key).getLast?

/-- The settings of `t` are the last ones that the statements in `after` give it, or else those that its declaration in
`subdir` gives. -/
structure SettledBy (p : Project) (subdir : Path) (after : List (Path × Statement)) (t : Target) : Prop where
  outputDir : ∀ c, t.outputDir c =
    (lastValue? after t.key.name (Property.dirKey t.key.kind c)).or (p.defaultDir? t.key.kind subdir)
  outputName : t.outputName =
    (lastValue? after t.key.name "OUTPUT_NAME").or (if t.key.kind = .run then some t.key.name else none)
  subdir : t.subdir = subdir

variable {mets after : List Met} {stated later : List (Path × Statement)}

theorem declares_of_not_isCommand {m : Met} (h : m.isCommand = false) : m.declares = [] := by
  cases m with
  | file path => rfl
  | command subdir c => cases h

theorem declares_classify (x : Path × Statement) : (classify x).declares = x.2.declares := declares_ofStatement x.2

theorem DeclaredFirst.firstDeclared (h : mets.filter Met.isCommand = stated.map classify)
    (hfirst : DeclaredFirst mets k subdir after) :
    ∃ later, FirstDeclared stated k subdir later ∧ after.filter Met.isCommand = later.map classify := by
  unfold DeclaredFirst at hfirst
  unfold FirstDeclared
  split at hfirst
  · next hk =>
    obtain ⟨rfl, rfl⟩ := hfirst
    exact ⟨stated, by rw [if_pos hk]; exact ⟨rfl, rfl⟩, h⟩
  · next hk =>
    obtain ⟨before, c, rfl, hc, hbefore⟩ := hfirst
    rw [List.filter_append, List.filter_cons_of_pos rfl, eq_comm, List.map_eq_append_iff] at h
    obtain ⟨earlier, rest, rfl, hearlier, hrest⟩ := h
    obtain ⟨⟨d, s⟩, later, rfl, hs, hlater⟩ := List.map_eq_cons_iff.1 hrest
    cases hs
    refine ⟨later, ?_, hlater.symm⟩
    rw [if_neg hk]
    refine ⟨earlier, s, rfl, declares_ofStatement s ▸ hc, fun x hx hkx => ?_⟩
    have hmem : classify x ∈ before.filter Met.isCommand := hearlier ▸ List.mem_map_of_mem hx
    exact hbefore _ (List.mem_filter.1 hmem).1 (declares_classify x ▸ hkx)

theorem FirstDeclared.declaredFirst (h : mets.filter Met.isCommand = stated.map classify)
    (hfirst : FirstDeclared stated k subdir later) :
    ∃ after, DeclaredFirst mets k subdir after ∧ after.filter Met.isCommand = later.map classify := by
  unfold FirstDeclared at hfirst
  unfold DeclaredFirst
  split at hfirst
  · next hk =>
    obtain ⟨rfl, rfl⟩ := hfirst
    exact ⟨mets, by rw [if_pos hk]; exact ⟨rfl, rfl⟩, h⟩
  · next hk =>
    obtain ⟨earlier, s, rfl, hs, hearlier⟩ := hfirst
    rw [List.map_append, List.map_cons, List.filter_eq_append_iff] at h
    obtain ⟨before, rest, rfl, hbefore, hrest⟩ := h
    obtain ⟨files, after, rfl, hfiles, -, hafter⟩ := List.filter_eq_cons_iff.1 hrest
    refine ⟨after, ?_, hafter⟩
    rw [if_neg hk]
    refine ⟨before ++ files, _, by rw [List.append_assoc]; rfl, declares_ofStatement s ▸ hs, fun m hm hkm => ?_⟩
    cases hcommand : m.isCommand with
    | false => simp [declares_of_not_isCommand hcommand] at hkm
    | true =>
        rcases List.mem_append.1 hm with hm | hm
        · have hmem : m ∈ earlier.map classify := hbefore ▸ List.mem_filter.2 ⟨hm, hcommand⟩
          obtain ⟨x, hx, rfl⟩ := List.mem_map.1 hmem
          exact hearlier x hx (declares_classify x ▸ hkm)
        · exact hfiles m hm hcommand

theorem filterMap_assigns_eq {f : Property → Option String} {key : String}
    (hf : ∀ k value, (Property.ofPair? k value).bind f = if k = key then some value else none)
    (h : after.filter Met.isCommand = later.map classify) (name : String) :
    (after.flatMap (Met.assigns name)).filterMap f = later.flatMap fun x => x.2.valuesOf name key := by
  have hfilter : after.flatMap (Met.assigns name) = (after.filter Met.isCommand).flatMap (Met.assigns name) := by
    clear h
    induction after with
    | nil => rfl
    | cons m after ih =>
        cases m with
        | file path => rw [List.flatMap_cons, ih]; rfl
        | command subdir c => rw [List.flatMap_cons, ih, List.filter_cons_of_pos rfl, List.flatMap_cons]
  rw [hfilter, h, List.flatMap_map, List.filterMap_flatMap]
  simp only [classify, filterMap_assigns hf]

theorem settledBy_iff (h : after.filter Met.isCommand = later.map classify) :
    p.Settled subdir after t ↔ p.SettledBy subdir later t := by
  have hdir (c : Configuration) : lastDir? t.key c after = lastValue? later t.key.name (Property.dirKey t.key.kind c) :=
    congrArg List.getLast? (filterMap_assigns_eq (Property.dir?_of_pair t.key.kind c) h t.key.name)
  have hname : lastName? t.key after = lastValue? later t.key.name "OUTPUT_NAME" :=
    congrArg List.getLast? (filterMap_assigns_eq Property.name?_of_pair h t.key.name)
  constructor
  · intro hs
    exact ⟨fun c => hdir c ▸ hs.outputDir c, hname ▸ hs.outputName, hs.subdir⟩
  · intro hs
    exact ⟨fun c => (hdir c).symm ▸ hs.outputDir c, hname.symm ▸ hs.outputName, hs.subdir⟩

/-- The targets of a loaded project are those that the statements declare, and each setting of a target is the last value
that a statement after its first declaration gives to it, by its name: directories by the key for its kind and the
configuration, the output name by its own key. -/
theorem settings_load_are_last_assigned (fs : FileSystem) (root build : Path) (platform : Platform) (t : Target) :
    t ∈ (load fs root build platform).targets ↔
      ∃ subdir after, FirstDeclared (statements fs (root.absolute fs.workPath) Path.empty) t.key subdir after ∧
        (new fs.workPath root build platform).SettledBy subdir after t := by
  have htrace := filter_trace fs (root.absolute fs.workPath) Path.empty
  rw [mem_targets_load_iff_settled]
  constructor
  · rintro ⟨subdir, after, hfirst, hsettled⟩
    obtain ⟨later, hfirst, hlater⟩ := hfirst.firstDeclared htrace
    exact ⟨subdir, later, hfirst, (settledBy_iff hlater).1 hsettled⟩
  · rintro ⟨subdir, later, hfirst, hsettled⟩
    obtain ⟨after, hfirst, hafter⟩ := hfirst.declaredFirst htrace
    exact ⟨subdir, after, hfirst, (settledBy_iff hafter).2 hsettled⟩

theorem walkStatements_statement (s : Statement) (rest : List Due) :
    walkStatements fs root seen (.statement subdir s :: rest) = (subdir, s) :: walkStatements fs root seen rest := by
  rw [walkStatements]

theorem walkStatements_enter_of_read {l : Location} {content : Text.Bytes} {text : List Char}
    (hf : fs.file? (descriptionPath root subdir) = some (l, content)) (hl : l ∉ seen)
    (hd : Text.decode? content = some text) (rest : List Due) :
    walkStatements fs root seen (.enter subdir :: rest) =
      walkStatements fs root (l :: seen) ((Statement.scan (String.ofList text)).map (dueOf subdir) ++ rest) := by
  rw [walkStatements]
  split
  · next hnone => cases hnone.symm.trans hf
  · next hsome =>
    cases hsome.symm.trans hf
    simp only [dif_neg hl, hd]

def writtenStatements : List (Path × Statement) :=
  [(Path.empty, ⟨"set_target_properties", ["app", "PROPERTIES", "OUTPUT_NAME", "early"]⟩),
    (Path.empty, ⟨"add_library", ["a"]⟩),
    (Path.ofString "lib", ⟨"Add_Executable", ["app", "main.c"]⟩),
    (Path.ofString "lib", ⟨"add_library", ["a"]⟩),
    (Path.empty, ⟨"set_target_properties",
      ["a", "app", "PROPERTIES", "RUNTIME_OUTPUT_DIRECTORY_DEBUG", "bin", "OUTPUT_NAME", "tool"]⟩),
    (Path.empty, ⟨"enable_testing", []⟩)]

theorem statements_written : statements written (Path.ofString "/p") Path.empty = writtenStatements := by
  obtain ⟨htop, hlib⟩ := file?_twoFiles (Text.encode topText.toList) (Text.encode libText.toList)
  have hdue : (Statement.scan topText).map (dueOf Path.empty) =
      (writtenStatements.take 2).map (fun x => .statement Path.empty x.2) ++ .enter (Path.ofString "lib") ::
        (writtenStatements.drop 4).map fun x => .statement Path.empty x.2 := by
    rw [scan_topText]
    decide +kernel
  have hdue' : (Statement.scan libText).map (dueOf (Path.ofString "lib")) =
      ((writtenStatements.drop 2).take 2).map fun x => .statement (Path.ofString "lib") x.2 := by
    rw [scan_libText]
    decide +kernel
  rw [statements, written, walkStatements_enter_of_read htop List.not_mem_nil (Text.decode?_encode _),
    String.ofList_toList, hdue]
  simp only [writtenStatements, List.take, List.drop, List.map, List.cons_append, List.nil_append,
    walkStatements_statement]
  rw [walkStatements_enter_of_read hlib (by decide) (Text.decode?_encode _), String.ofList_toList, hdue']
  simp only [writtenStatements, List.take, List.drop, List.map, List.cons_append, List.nil_append,
    walkStatements_statement, walkStatements]

theorem written_settings :
    let p := load written (Path.ofString "/p") (Path.ofString "/p/build") .unix
    { key := ⟨"app", .run⟩, debugDir := some "bin", releaseDir := some "/p/build/lib", outputName := some "tool",
      subdir := Path.ofString "lib" } ∈ p.targets ∧
      { key := ⟨"a", .build⟩, outputName := some "tool" } ∈ p.targets := by
  have hroot : (Path.ofString "/p").absolute written.workPath = Path.ofString "/p" := by decide +kernel
  have hdir : (new written.workPath (Path.ofString "/p") (Path.ofString "/p/build") .unix).binaryDir
      (Path.ofString "lib") = Path.ofString "/p/build/lib" := by decide +kernel
  constructor
  · refine (settings_load_are_last_assigned written (Path.ofString "/p") (Path.ofString "/p/build") .unix _).2
      ⟨Path.ofString "lib", writtenStatements.drop 3, ?_, ?_⟩
    · rw [hroot, statements_written, FirstDeclared, if_neg (by decide)]
      exact ⟨writtenStatements.take 2, ⟨"Add_Executable", ["app", "main.c"]⟩, rfl, by decide +kernel, by decide +kernel⟩
    · constructor
      · intro c
        rw [defaultDir?, hdir, Path.toString_ofString]
        cases c <;> decide +kernel
      · decide +kernel
      · rfl
  · refine (settings_load_are_last_assigned written (Path.ofString "/p") (Path.ofString "/p/build") .unix _).2
      ⟨Path.empty, writtenStatements.drop 2, ?_, ?_⟩
    · rw [hroot, statements_written, FirstDeclared, if_neg (by decide)]
      exact ⟨writtenStatements.take 1, ⟨"add_library", ["a"]⟩, rfl, by decide +kernel, by decide +kernel⟩
    · constructor
      · intro c
        cases c <;> decide +kernel
      · decide +kernel
      · rfl

end Project

end CMakeHelm
