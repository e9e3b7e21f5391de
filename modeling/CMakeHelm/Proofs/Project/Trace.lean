import CMakeHelm.Project.Load
import CMakeHelm.Proofs.Text.Utf8

namespace CMakeHelm.Project

/-- A description file that is read, or a command in the description file of `subdir`. -/
inductive Met where
  | file (path : Path)
  | command (subdir : Path) (c : Command)
deriving DecidableEq, Repr

/-- What is still to be walked. -/
inductive Pending where
  | enter (subdir : Path)
  | command (subdir : Path) (c : Command)
deriving DecidableEq, Repr

def pendingOf (subdir : Path) : Command → Pending
  | .addSubdirectory dir => .enter (subdir.join (Path.ofString dir)).normalize
  | c => .command subdir c

/-- What is met from the pending work on, when the files at `seen` were reached before. -/
def walk (fs : FileSystem) (root : Path) (seen : List Location) : List Pending → List Met
  | [] => []
  | .command subdir c :: rest => .command subdir c :: walk fs root seen rest
  | .enter subdir :: rest =>
    match _h : fs.file? (descriptionPath root subdir) with
    | none => walk fs root seen rest
    | some (l, content) =>
      if _hl : l ∈ seen then walk fs root seen rest
      else
        match Text.decode? content with
        | none => walk fs root (l :: seen) rest
        | some text =>
          .file (descriptionPath root subdir) ::
            walk fs root (l :: seen) ((Command.scan (String.ofList text)).map (pendingOf subdir) ++ rest)
termination_by pending => (fs.unseen seen, pending.length)
decreasing_by
  · exact Prod.Lex.right _ (by simp)
  · exact Prod.Lex.right _ (by simp)
  · exact Prod.Lex.right _ (by simp)
  · exact Prod.Lex.left _ _ (fs.unseen_cons_lt _hl (fs.mem_of_file? _h))
  · exact Prod.Lex.left _ _ (fs.unseen_cons_lt _hl (fs.mem_of_file? _h))

/-- What loading from `subdir` on meets. -/
def trace (fs : FileSystem) (root subdir : Path) : List Met := walk fs root [] [.enter subdir]

def meet (p : Project) : Met → Project
  | .file path => p.addFile path
  | .command subdir c => p.perform subdir c

variable {fs : FileSystem} {root subdir : Path} {seen mid later : List Location} {l : Location}
variable {pending more : List Pending} {mets mets' : List Met} {run run' : Loading → Loading}

theorem walk_command (c : Command) (rest : List Pending) :
    walk fs root seen (.command subdir c :: rest) = .command subdir c :: walk fs root seen rest := by rw [walk]

theorem walk_enter (rest : List Pending) :
    walk fs root seen (.enter subdir :: rest) =
      match fs.file? (descriptionPath root subdir) with
      | none => walk fs root seen rest
      | some (l, content) =>
        if l ∈ seen then walk fs root seen rest
        else
          match Text.decode? content with
          | none => walk fs root (l :: seen) rest
          | some text =>
            .file (descriptionPath root subdir) ::
              walk fs root (l :: seen) ((Command.scan (String.ofList text)).map (pendingOf subdir) ++ rest) := by
  rw [walk]
  split
  · next hf => simp only [hf]
  · next l content hf => simp only [hf, dite_eq_ite]

theorem walk_enter_of_read {content : Text.Bytes} {text : List Char}
    (hf : fs.file? (descriptionPath root subdir) = some (l, content)) (hl : l ∉ seen)
    (hd : Text.decode? content = some text) (rest : List Pending) :
    walk fs root seen (.enter subdir :: rest) =
      .file (descriptionPath root subdir) ::
        walk fs root (l :: seen) ((Command.scan (String.ofList text)).map (pendingOf subdir) ++ rest) := by
  simp only [walk_enter, hf, if_neg hl, hd]

theorem trace_of_read {text : String}
    (hf : fs.file? (descriptionPath root subdir) = some (l, Text.encode text.toList))
    (hsub : ∀ c ∈ Command.scan text, pendingOf subdir c = .command subdir c) :
    trace fs root subdir =
      .file (descriptionPath root subdir) :: (Command.scan text).map fun c => .command subdir c := by
  have hwalk (seen : List Location) (commands : List Command) :
      walk fs root seen (commands.map fun c => .command subdir c) = commands.map fun c => .command subdir c := by
    induction commands with
    | nil => rw [List.map_nil, List.map_nil, walk]
    | cons c commands ih => rw [List.map_cons, List.map_cons, walk, ih]
  rw [trace, walk_enter_of_read hf List.not_mem_nil (Text.decode?_encode _), String.ofList_toList,
    List.map_congr_left hsub, List.append_nil, hwalk]

/-- The projects agree in all but their files and targets. -/
structure SameSetting (p q : Project) : Prop where
  rootDir_eq : q.rootDir = p.rootDir
  buildDir_eq : q.buildDir = p.buildDir
  platform_eq : q.platform = p.platform
  cmake_eq : q.cmake = p.cmake

theorem SameSetting.refl (p : Project) : SameSetting p p := ⟨rfl, rfl, rfl, rfl⟩

theorem SameSetting.trans {p q r : Project} (h : SameSetting p q) (h' : SameSetting q r) : SameSetting p r where
  rootDir_eq := h'.rootDir_eq.trans h.rootDir_eq
  buildDir_eq := h'.buildDir_eq.trans h.buildDir_eq
  platform_eq := h'.platform_eq.trans h.platform_eq
  cmake_eq := h'.cmake_eq.trans h.cmake_eq

theorem sameSetting_declare (p : Project) (t : Target) : SameSetting p (p.declare t) := by
  unfold declare
  split <;> exact ⟨rfl, rfl, rfl, rfl⟩

theorem sameSetting_addFile (p : Project) (file : Path) : SameSetting p (p.addFile file) := by
  unfold addFile
  split <;> exact ⟨rfl, rfl, rfl, rfl⟩

theorem sameSetting_meet (p : Project) (m : Met) : SameSetting p (p.meet m) := by
  cases m with
  | file path => exact sameSetting_addFile p path
  | command subdir c =>
      cases c with
      | addExecutable name => exact (sameSetting_declare p _).trans (sameSetting_declare _ _)
      | addLibrary name => exact sameSetting_declare p _
      | addCustomTarget name => exact sameSetting_declare p _
      | enableTesting => exact sameSetting_declare p _
      | setTargetProperties names properties => exact ⟨rfl, rfl, rfl, rfl⟩
      | addSubdirectory dir => exact .refl p
      | unrecognized => exact .refl p

theorem sameSetting_foldl_meet (p : Project) (mets : List Met) : SameSetting p (mets.foldl meet p) := by
  induction mets generalizing p with
  | nil => exact .refl p
  | cons m mets ih => exact (sameSetting_meet p m).trans (ih (p.meet m))

/-- With the files at `seen` reached, `run` does the pending work on every project by meeting `mets`, and then the
files at `later` are reached. -/
structure Meets (fs : FileSystem) (root : Path) (seen : List Location) (run : Loading → Loading)
    (pending : List Pending) (mets : List Met) (later : List Location) : Prop where
  suffix : seen <:+ later
  walk_eq : ∀ rest : List Pending, walk fs root seen (pending ++ rest) = mets ++ walk fs root later rest
  run_eq : ∀ p : Project, p.rootDir = root → run ⟨p, seen⟩ = ⟨mets.foldl meet p, later⟩

theorem Meets.trans (h : Meets fs root seen run pending mets mid) (h' : Meets fs root mid run' more mets' later) :
    Meets fs root seen (fun s => run' (run s)) (pending ++ more) (mets ++ mets') later where
  suffix := h.suffix.trans h'.suffix
  walk_eq rest := by rw [List.append_assoc, h.walk_eq, h'.walk_eq, List.append_assoc]
  run_eq p hp := by
    have hroot : (mets.foldl meet p).rootDir = root := (sameSetting_foldl_meet p mets).rootDir_eq.trans hp
    simp only [h.run_eq p hp, h'.run_eq _ hroot, List.foldl_append]

theorem pendingOf_eq {c : Command} (hc : ∀ dir : String, c ≠ .addSubdirectory dir) :
    pendingOf subdir c = .command subdir c := by
  cases c with
  | addSubdirectory dir => exact absurd rfl (hc dir)
  | _ => rfl

theorem Meets.command (subdir : Path) {c : Command} (hc : ∀ dir : String, c ≠ .addSubdirectory dir) :
    Meets fs root seen (fun s => { s with project := s.project.perform subdir c }) [pendingOf subdir c]
      [.command subdir c] seen where
  suffix := List.suffix_refl _
  walk_eq rest := by rw [pendingOf_eq hc, List.singleton_append, walk, List.singleton_append]
  run_eq _ _ := rfl

theorem Meets.enter {content : Text.Bytes} {text : List Char}
    (hf : fs.file? (descriptionPath root subdir) = some (l, content)) (hl : l ∉ seen)
    (hd : Text.decode? content = some text)
    (h : Meets fs root (l :: seen)
      (fun s => (Loading.follow fs s subdir (Command.scan (String.ofList text))).1)
      ((Command.scan (String.ofList text)).map (pendingOf subdir)) mets later) :
    Meets fs root seen (fun s => (Loading.enter fs s subdir).1) [.enter subdir]
      (.file (descriptionPath root subdir) :: mets) later where
  suffix := (List.suffix_cons l seen).trans h.suffix
  walk_eq rest := by
    rw [List.singleton_append, walk_enter_of_read hf hl hd, h.walk_eq, List.cons_append]
  run_eq p hp := by
    subst hp
    simp only [Loading.val_enter, hf, if_neg hl, hd, List.foldl_cons]
    exact h.run_eq (p.addFile (descriptionPath p.rootDir subdir)) (sameSetting_addFile p _).rootDir_eq

mutual

theorem meets_enter (fs : FileSystem) (root : Path) (seen : List Location) (subdir : Path) :
    ∃ mets later, Meets fs root seen (fun s => (Loading.enter fs s subdir).1) [.enter subdir] mets later := by
  cases hf : fs.file? (descriptionPath root subdir) with
  | none =>
      refine ⟨[], seen, List.suffix_refl _, fun rest => ?_, fun p hp => ?_⟩
      · simp [walk_enter, hf]
      · simp [Loading.val_enter, hp, hf]
  | some found =>
      obtain ⟨l, content⟩ := found
      by_cases hl : l ∈ seen
      · refine ⟨[], seen, List.suffix_refl _, fun rest => ?_, fun p hp => ?_⟩
        · simp [walk_enter, hf, hl]
        · simp [Loading.val_enter, hp, hf, hl]
      · cases hd : Text.decode? content with
        | none =>
            refine ⟨[], l :: seen, List.suffix_cons l seen, fun rest => ?_, fun p hp => ?_⟩
            · simp [walk_enter, hf, hl, hd]
            · simp [Loading.val_enter, hp, hf, hl, hd]
        | some text =>
            obtain ⟨mets, later, h⟩ := meets_follow fs root (l :: seen) subdir (Command.scan (String.ofList text))
            exact ⟨_, later, Meets.enter hf hl hd h⟩
termination_by (fs.unseen seen, 0)
decreasing_by exact Prod.Lex.left _ _ (fs.unseen_cons_lt hl (fs.mem_of_file? hf))

theorem meets_follow (fs : FileSystem) (root : Path) (seen : List Location) (subdir : Path) :
    ∀ commands : List Command, ∃ mets later,
      Meets fs root seen (fun s => (Loading.follow fs s subdir commands).1) (commands.map (pendingOf subdir)) mets later
  | [] => by
      refine ⟨[], seen, List.suffix_refl _, fun rest => rfl, fun p hp => ?_⟩
      rw [Loading.follow]
      rfl
  | c :: rest => by
      by_cases hc : ∃ dir, c = .addSubdirectory dir
      · obtain ⟨dir, rfl⟩ := hc
        obtain ⟨mets, mid, h⟩ := meets_enter fs root seen (subdir.join (Path.ofString dir)).normalize
        obtain ⟨mets', later, h'⟩ := meets_follow fs root mid subdir rest
        refine ⟨mets ++ mets', later, ?_⟩
        simp only [Loading.val_follow_addSubdirectory]
        exact h.trans h'
      · have hc : ∀ dir, c ≠ .addSubdirectory dir := not_exists.1 hc
        obtain ⟨mets, later, h⟩ := meets_follow fs root seen subdir rest
        refine ⟨.command subdir c :: mets, later, ?_⟩
        simp only [Loading.val_follow_cons fs _ subdir hc]
        exact (Meets.command subdir hc).trans h
termination_by commands => (fs.unseen seen, commands.length)
decreasing_by
  · exact Prod.Lex.right _ (Nat.succ_pos _)
  · exact Prod.Lex.right' _ (fs.unseen_le h.suffix.subset) (Nat.lt_succ_self _)
  · exact Prod.Lex.right _ (Nat.lt_succ_self _)

end

theorem exists_reached (fs : FileSystem) (root subdir : Path) :
    ∃ reached, ∀ p : Project, p.rootDir = root →
      (Loading.enter fs ⟨p, []⟩ subdir).1 = ⟨(trace fs root subdir).foldl meet p, reached⟩ := by
  obtain ⟨mets, later, h⟩ := meets_enter fs root [] subdir
  have hmets : trace fs root subdir = mets := by
    have hw := h.walk_eq []
    rwa [List.append_nil, walk, List.append_nil] at hw
  exact ⟨later, hmets ▸ h.run_eq⟩

theorem loadInto_eq (p : Project) (fs : FileSystem) (subdir : Path) :
    p.loadInto fs subdir = (trace fs p.rootDir subdir).foldl meet p := by
  obtain ⟨reached, h⟩ := exists_reached fs p.rootDir subdir
  rw [loadInto, h p rfl]

end CMakeHelm.Project
