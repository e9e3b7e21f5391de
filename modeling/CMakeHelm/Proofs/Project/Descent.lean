import CMakeHelm.Proofs.FileSystem
import CMakeHelm.Proofs.Project.Trace
import Mathlib

namespace CMakeHelm.Project

/-- A description file with the commands that are still to be performed. -/
structure Frame where
  subdir : Path
  rest : List Command

structure Descent where
  project : Project
  seen : List Location
  opened : List Path
  frames : List Frame

namespace Descent

/-- Open the description file of `subdir`, unless it was reached before, and begin with it if it is a text. -/
def call (fs : FileSystem) (m : Descent) (subdir : Path) : Descent :=
  let file := descriptionPath m.project.rootDir subdir
  match fs.file? file with
  | none => m
  | some (l, content) =>
    if m.seen.contains l then m
    else
      let m := { m with seen := l :: m.seen, opened := file :: m.opened }
      match Text.decode? content with
      | none => m
      | some text =>
        { m with
          project := m.project.addFile file
          frames := ⟨subdir, Command.scan (String.ofList text)⟩ :: m.frames }

def start (fs : FileSystem) (p : Project) (subdir : Path) : Descent := call fs ⟨p, [], [], []⟩ subdir

def step (fs : FileSystem) (m : Descent) : Descent :=
  match m.frames with
  | [] => m
  | ⟨_, []⟩ :: frames => { m with frames }
  | ⟨d, .addSubdirectory dir :: rest⟩ :: frames =>
    call fs { m with frames := ⟨d, rest⟩ :: frames } (d.join (Path.ofString dir)).normalize
  | ⟨d, c :: rest⟩ :: frames => { m with project := m.project.perform d c, frames := ⟨d, rest⟩ :: frames }

/-- The canonical path of a file. -/
def canonical? (fs : FileSystem) (file : Path) : Option Location := (fs.file? file).map Prod.fst

/-- The steps that a file takes once it is opened: its commands and its end, or none if it is no text. -/
def steps (fs : FileSystem) (file : Path) : Nat :=
  match fs.readText file with
  | .ok text => (Command.scan text).length + 1
  | .error _ => 0

def pending (m : Descent) : List Pending := m.frames.flatMap fun f => f.rest.map (pendingOf f.subdir)

variable {fs : FileSystem} {m m' : Descent} {p : Project} {d : Path}

inductive Called (fs : FileSystem) (m : Descent) (d : Path) : Descent → Prop
  | passed (hw : ∀ rest : List Pending, walk fs m.project.rootDir m.seen (.enter d :: rest) =
      walk fs m.project.rootDir m.seen rest) : Called fs m d m
  | garbled (l : Location) (content : Text.Bytes) (hl : l ∉ m.seen)
      (hf : fs.file? (descriptionPath m.project.rootDir d) = some (l, content)) (hd : Text.decode? content = none) :
      Called fs m d
        { m with seen := l :: m.seen, opened := descriptionPath m.project.rootDir d :: m.opened }
  | scanned (l : Location) (content : Text.Bytes) (text : List Char) (hl : l ∉ m.seen)
      (hf : fs.file? (descriptionPath m.project.rootDir d) = some (l, content)) (hd : Text.decode? content = some text) :
      Called fs m d
        { project := m.project.addFile (descriptionPath m.project.rootDir d)
          seen := l :: m.seen
          opened := descriptionPath m.project.rootDir d :: m.opened
          frames := ⟨d, Command.scan (String.ofList text)⟩ :: m.frames }

theorem called_call (fs : FileSystem) (m : Descent) (d : Path) : Called fs m d (call fs m d) := by
  unfold call
  simp only
  split
  · next hf =>
    apply Called.passed
    intro rest
    rw [walk_enter, hf]
  · next l content hf =>
    by_cases hl : l ∈ m.seen
    · rw [if_pos (List.contains_iff_mem.2 hl)]
      apply Called.passed
      intro rest
      simp only [walk_enter, hf, if_pos hl]
    · rw [if_neg (mt List.contains_iff_mem.1 hl)]
      split
      · next hd => exact .garbled l content hl hf hd
      · next text hd => exact .scanned l content text hl hf hd

/-- No file has been opened twice, under any names; each frame is of a file that was opened; and meeting what is still
to be done makes the project that loading makes. -/
structure Sound (fs : FileSystem) (p result : Project) (m : Descent) (todo : List Pending) : Prop where
  rootDir_eq : m.project.rootDir = p.rootDir
  result_eq : (walk fs p.rootDir m.seen todo).foldl meet m.project = result
  reached : ∀ file ∈ m.opened, ∃ l ∈ m.seen, canonical? fs file = some l
  once : (m.opened.map (canonical? fs)).Nodup
  depth : m.frames.length ≤ m.opened.length

variable {result : Project} {todo : List Pending} {l : Location} {content : Text.Bytes} {file : Path}

theorem canonical?_eq (hf : fs.file? file = some (l, content)) : canonical? fs file = some l := by
  rw [canonical?, hf, Option.map_some]

theorem Sound.reached_cons (h : Sound fs p result m todo) (hf : fs.file? file = some (l, content)) :
    ∀ other ∈ file :: m.opened, ∃ k ∈ l :: m.seen, canonical? fs other = some k := by
  intro other hother
  rcases List.mem_cons.1 hother with rfl | hother
  · exact ⟨l, List.mem_cons_self, canonical?_eq hf⟩
  · obtain ⟨k, hk, hother⟩ := h.reached other hother
    exact ⟨k, List.mem_cons_of_mem l hk, hother⟩

theorem Sound.once_cons (h : Sound fs p result m todo) (hf : fs.file? file = some (l, content)) (hl : l ∉ m.seen) :
    ((file :: m.opened).map (canonical? fs)).Nodup := by
  rw [List.map_cons, List.nodup_cons]
  refine ⟨fun hmem => ?_, h.once⟩
  obtain ⟨other, hother, he⟩ := List.mem_map.1 hmem
  obtain ⟨k, hk, hother⟩ := h.reached other hother
  obtain rfl : k = l := Option.some.inj (hother.symm.trans (he.trans (canonical?_eq hf)))
  exact hl hk

theorem Called.sound (hc : Called fs m d m') (h : Sound fs p result m (.enter d :: m.pending)) :
    Sound fs p result m' m'.pending := by
  have hroot := h.rootDir_eq
  cases hc with
  | passed hw => exact { h with result_eq := by rw [← h.result_eq, ← hroot, hw] }
  | garbled l content hl hf hd =>
      refine
        { rootDir_eq := hroot, result_eq := ?_, reached := h.reached_cons hf, once := h.once_cons hf hl
          depth := Nat.le_succ_of_le h.depth }
      rw [← h.result_eq, walk_enter, ← hroot]
      simp only [hf, if_neg hl, hd]
      rfl
  | scanned l content text hl hf hd =>
      refine
        { rootDir_eq := (sameSetting_addFile m.project _).rootDir_eq.trans hroot, result_eq := ?_
          reached := h.reached_cons hf, once := h.once_cons hf hl, depth := Nat.succ_le_succ h.depth }
      rw [← h.result_eq, ← hroot, walk_enter_of_read hf hl hd]
      rfl

theorem Sound.step (h : Sound fs p result m m.pending) :
    Sound fs p result (step fs m) (step fs m).pending := by
  have hdepth := h.depth
  have hresult := h.result_eq
  unfold Descent.step
  split
  · exact h
  · next frames he =>
    rw [he, List.length_cons] at hdepth
    refine { h with result_eq := ?_, depth := by simp only; omega }
    simpa [pending, he] using hresult
  · next d dir rest frames he =>
    rw [he, List.length_cons] at hdepth
    apply (called_call fs _ _).sound
    refine { h with result_eq := ?_, depth := by simpa using hdepth }
    simpa [pending, he, pendingOf] using hresult
  · next d c rest frames hc he =>
    rw [he, List.length_cons] at hdepth
    have hroot : (m.project.perform d c).rootDir = m.project.rootDir :=
      (sameSetting_meet m.project (.command d c)).rootDir_eq
    refine { h with rootDir_eq := hroot.trans h.rootDir_eq, result_eq := ?_, depth := by simpa using hdepth }
    simpa [pending, he, pendingOf_eq hc, walk, meet] using hresult

theorem sound_start (fs : FileSystem) (p : Project) (d : Path) :
    Sound fs p (p.loadInto fs d) (start fs p d) (start fs p d).pending := by
  apply (called_call fs _ _).sound
  refine { rootDir_eq := rfl, result_eq := ?_, reached := by simp, once := .nil, depth := Nat.le_refl _ }
  rw [loadInto_eq]
  rfl

theorem Sound.length_le (h : Sound fs p result m todo) : m.opened.length ≤ fs.entries.length := by
  have hsub : m.opened.map (canonical? fs) ⊆ fs.entries.map fun e => some e.1 := by
    intro place hplace
    obtain ⟨file, hfile, rfl⟩ := List.mem_map.1 hplace
    obtain ⟨l, -, hl⟩ := h.reached file hfile
    obtain ⟨⟨l', content⟩, hf, rfl⟩ := Option.map_eq_some_iff.1 hl
    obtain ⟨e, he, rfl⟩ := fs.mem_of_file? hf
    exact List.mem_map.2 ⟨e, he, hl.symm⟩
  have hlength := (List.subperm_of_subset h.once hsub).length_le
  rwa [List.length_map, List.length_map] at hlength

/-- The loading of `p` from `d` on after `n` steps. -/
def after (fs : FileSystem) (p : Project) (d : Path) (n : Nat) : Descent := (Descent.step fs)^[n] (start fs p d)

end Descent

end CMakeHelm.Project
