import CMakeHelm.Helm
import CMakeHelm.Proofs.Project.Reload
import CMakeHelm.Proofs.Project.Watch
import CMakeHelm.Session.Script

namespace CMakeHelm.Helm

open Project (SameSetting)

inductive Operation where
  | setConfiguration (c : Configuration)
  | setArchitecture (a : Architecture)
  | select (k : Key)
  | reload
  | act (a : Action)
deriving DecidableEq

section
variable {σ : Type} (H : Session.Host σ) (h : Helm σ)

/-- The helm after an operation on the files that there are then. Where the operation fails it stays as it is. -/
def operate (fs : FileSystem) : Operation → Helm σ
  | .setConfiguration c => { h with configuration := c }
  | .setArchitecture a => { h with architecture := a }
  | .select k =>
    match h.select k with
    | .ok h => h
    | .error _ => h
  | .reload => h.reload fs
  | .act a =>
    match (h.plan fs a).2 with
    | .ok plan => (h.perform H plan).1
    | .error _ => h

end

/-- Nothing is selected at first, and into the project anything may have been loaded. Between two operations files and
session can change in any way. -/
inductive Reachable {σ : Type} (H : Session.Host σ) : Helm σ → Prop
  | start {fs : FileSystem} {root build : Path} {platform : Platform} {cmake : String} {project : Project}
      (hwork : fs.HasWorkDir)
      (hmade : SameSetting { Project.new fs.workPath root build platform with cmake } project) (session : Session σ)
      (configuration : Configuration) (architecture : Architecture) (debugger : String) :
      Reachable H { project, session, configuration, architecture, debugger }
  | operate {h : Helm σ} (hr : Reachable H h) (fs : FileSystem) (o : Operation) : Reachable H (h.operate H fs o)
  | session {h : Helm σ} (hr : Reachable H h) (session : Session σ) : Reachable H { h with session }

variable {σ : Type} {H : Session.Host σ} {h h' : Helm σ} {fs after : FileSystem} {k : Key} {plan : Plan}

theorem select_eq_error_iff : h.project.find? k = none ↔ ∃ e, h.select k = .error e := by
  unfold select
  cases h.project.find? k <;> simp

theorem select_eq_ok (hs : h.select k = .ok h') :
    h' = { h with selected := some k } ∧ (h.project.find? k).isSome := by
  unfold select at hs
  split at hs
  · next hfound =>
    cases hs
    exact ⟨rfl, hfound⟩
  · cases hs

theorem selected_reload_eq_some_iff :
    (h.reload fs).selected = some k ↔ h.selected = some k ∧ ((h.reload fs).project.find? k).isSome := by
  simp only [reload, Option.filter_eq_some_iff]

/-- The selection is found in the project, whose directories stay where they are. -/
structure Sound (h : Helm σ) : Prop where
  found : ∀ k, h.selected = some k → (h.project.find? k).isSome
  anchored : h.project.Anchored

theorem Sound.reload (hs : h.Sound) (fs : FileSystem) : (h.reload fs).Sound where
  found _ hk := (selected_reload_eq_some_iff.1 hk).2
  anchored :=
    have hsame := hs.anchored.sameSetting_reload fs
    hs.anchored.of_eq hsame.rootDir_eq hsame.buildDir_eq

theorem Sound.operate (hs : h.Sound) (fs : FileSystem) (o : Operation) : (h.operate H fs o).Sound := by
  cases o with
  | setConfiguration c => exact ⟨hs.found, hs.anchored⟩
  | setArchitecture a => exact ⟨hs.found, hs.anchored⟩
  | select k =>
      rw [Helm.operate]
      split
      · next h' hselect =>
        obtain ⟨rfl, hfound⟩ := select_eq_ok hselect
        refine ⟨fun k' hk' => ?_, hs.anchored⟩
        cases hk'
        exact hfound
      · exact hs
  | reload => exact hs.reload fs
  | act a =>
      rw [Helm.operate]
      split
      · exact ⟨hs.found, hs.anchored⟩
      · exact hs

theorem Reachable.sound (hr : Reachable H h) : h.Sound := by
  induction hr with
  | @start fs root build platform cmake project hwork hmade =>
      exact ⟨nofun, (Project.anchored_new hwork root build platform).of_eq hmade.rootDir_eq hmade.buildDir_eq⟩
  | operate _ fs o ih => exact ih.operate fs o
  | session _ session ih => exact ⟨ih.found, ih.anchored⟩

theorem Sound.exists_selectedTarget? (hs : h.Sound) (hk : h.selected = some k) :
    ∃ t, h.selectedTarget? = some t ∧ t.key = k := by
  obtain ⟨t, ht⟩ := Option.isSome_iff_exists.1 (hs.found k hk)
  have hkey := @List.find?_some _ (fun t : Target => decide (t.key = k)) _ _ ht
  exact ⟨t, by rw [selectedTarget?, hk, Option.bind_some, ht], of_decide_eq_true hkey⟩

theorem isSome_selectedTarget? (hs : h.Sound) : h.selectedTarget?.isSome = h.selected.isSome := by
  cases hk : h.selected with
  | none => simp [selectedTarget?, hk]
  | some k =>
      obtain ⟨t, ht, -⟩ := hs.exists_selectedTarget? hk
      simp [ht]

theorem getLast?_build {p : Project} {name : String} {c : Configuration} {a : Architecture} {commands : List String}
    (hb : p.build fs name c a = (after, .ok commands)) : commands.getLast? = some (p.buildLine name c).render := by
  unfold Project.build at hb
  split at hb
  · cases hb
    rfl
  · split at hb <;> cases hb
    rfl

theorem getLast?_planBuild (hp : h.planBuild fs = (after, .ok plan)) :
    plan.commands.getLast? =
      some (h.project.buildLine ((h.selectedTarget?.map (·.key.name)).getD "all") h.configuration).render := by
  simp only [planBuild] at hp
  split at hp
  · next hb =>
    cases hp
    exact getLast?_build hb
  · cases hp

/-- After any operations on whatever files there were, the selection is a target of the project, and it is what is
built. A selection that fails changes nothing. Loading the project again keeps what is selected if the project still has
it, and else drops it; everything else stays, but for the files and targets. -/
theorem selection_never_dangles (hr : Reachable H h) :
    (∀ k, h.selected = some k → (h.project.find? k).isSome) ∧
      h.selectedTarget?.isSome = h.selected.isSome ∧
      (∀ k fs after plan, h.selected = some k → h.planBuild fs = (after, .ok plan) →
        plan.commands.getLast? = some (h.project.buildLine k.name h.configuration).render) ∧
      (∀ k, h.project.find? k = none ↔ ∃ e, h.select k = .error e) ∧
      (∀ k e, h.select k = .error e → ∀ fs, h.operate H fs (.select k) = h) ∧
      (∀ fs k, (h.reload fs).selected = some k ↔ h.selected = some k ∧ ((h.reload fs).project.find? k).isSome) ∧
      ∀ fs, (h.reload fs).configuration = h.configuration ∧ (h.reload fs).architecture = h.architecture ∧
        (h.reload fs).debugger = h.debugger ∧ (h.reload fs).session = h.session ∧
        SameSetting h.project (h.reload fs).project := by
  have hs := hr.sound
  refine ⟨hs.found, isSome_selectedTarget? hs, fun k fs after plan hk hp => ?_, fun k => select_eq_error_iff,
    fun k e he fs => ?_, fun fs k => selected_reload_eq_some_iff, fun fs => ?_⟩
  · obtain ⟨t, ht, rfl⟩ := hs.exists_selectedTarget? hk
    simpa [ht] using getLast?_planBuild hp
  · rw [operate, he]
  · exact ⟨rfl, rfl, rfl, rfl, hs.anchored.sameSetting_reload fs⟩

def fresh : Helm Session.Script where
  project := Project.load (Project.nested "add_library(a)") (Path.ofString "/p") (Path.ofString "/p/build") .unix
  session := { name := "p", host := { integrates := true } }

theorem vanished_selection_is_dropped :
    let h := fresh.operate Session.Script.host (Project.nested "") (.select ⟨"a", .build⟩)
    h.selected = some ⟨"a", .build⟩ ∧ h.selectedTarget?.isSome ∧
      (h.reload (Project.nested "add_library(b)")).selected = none ∧
      (h.reload (Project.nested "add_library(b)")).project.buildDir = Path.ofString "/p/build" := by
  intro h
  have hfresh : fresh.project = _ := @Project.load_nested _ "a" (by decide +kernel) (Path.ofString "/p/build")
  have hselect : fresh.select ⟨"a", .build⟩ = .ok { fresh with selected := some ⟨"a", .build⟩ } := by
    rw [select, if_pos]
    rw [hfresh]
    decide +kernel
  have hh : h = { fresh with selected := some ⟨"a", .build⟩ } := by
    show fresh.operate _ _ _ = _
    rw [operate, hselect]
  have hwork : (Project.nested "add_library(a)").HasWorkDir := by simp [FileSystem.HasWorkDir, Project.nested]
  have hreachable : Reachable Session.Script.host h :=
    .operate (.start hwork (Project.sameSetting_load _ _ _ _) _ _ _ _) _ _
  obtain ⟨-, htarget, -, -, -, hreload, hkept⟩ := selection_never_dangles hreachable
  have hproject : (h.reload (Project.nested "add_library(b)")).project =
      { Project.load (Project.nested "add_library(b)") (Path.ofString "/p") (Path.ofString "/p/build") .unix with
        cmake := "cmake" } := by
    rw [hh, reload, Project.reload, hfresh]
    rfl
  have hgone : (h.reload (Project.nested "add_library(b)")).project.find? ⟨"a", .build⟩ = none := by
    rw [hproject, @Project.load_nested _ "b" (by decide +kernel)]
    decide +kernel
  refine ⟨by rw [hh], by rw [htarget, hh]; rfl, ?_, ?_⟩
  · refine Option.eq_none_iff_forall_ne_some.2 fun k hk => ?_
    obtain ⟨hk, hfound⟩ := (hreload _ k).1 hk
    rw [hh] at hk
    cases hk
    simp [hgone] at hfound
  · obtain ⟨-, -, -, -, hsame⟩ := hkept (Project.nested "add_library(b)")
    rw [hsame.buildDir_eq, hh, hfresh]
    decide +kernel

end CMakeHelm.Helm
