import CMakeHelm.Helm.Shells
import CMakeHelm.Proofs.Session.Course
import CMakeHelm.Session.Script
import Mathlib

namespace CMakeHelm.Helm

open Session (Course Performed Outcome)

section
variable {σ : Type} (h : Helm σ)

def configureLine : String := (h.project.configureLine h.configuration h.architecture).render

def buildLine : String :=
  (h.project.buildLine ((h.selectedTarget?.map (·.key.name)).getD "all") h.configuration).render

/-- What an action plans on some files, and why it may not. -/
inductive Plans (fs : FileSystem) : Action → Except ActionError Plan → Prop
  | generate (hr : (fs.removeTree h.project.buildDir).2 = .ok ()) : Plans fs .generate (.ok ⟨[h.configureLine], none⟩)
  | build (hg : h.project.isGenerated fs = true) : Plans fs .build (.ok ⟨[h.buildLine], none⟩)
  | generateAndBuild (hg : h.project.isGenerated fs = false) (hr : (fs.removeTree h.project.buildDir).2 = .ok ()) :
      Plans fs .build (.ok ⟨[h.configureLine, h.buildLine], none⟩)
  | debug (program : Path) (hc : h.configuration = .debug) (ha : h.artifact = .ok program) :
      Plans fs .run (.ok ⟨[], some ⟨program, h.project.buildDir, h.debugger⟩⟩)
  | release (program : Path) (hc : h.configuration = .release) (ha : h.artifact = .ok program) :
      Plans fs .run (.ok ⟨[(CommandLine.mk program.toString []).render], none⟩)
  | notRemoved (a : Action) (cause : Fault) (ha : a = .generate ∨ a = .build ∧ h.project.isGenerated fs = false)
      (hr : (fs.removeTree h.project.buildDir).2 = .error cause) :
      Plans fs a (.error (.removal ⟨h.project.buildDir, cause⟩))
  | noArtifact (e : Project.ArtifactError) (ha : h.artifact = .error e) : Plans fs .run (.error (.artifact e))

theorem generate_cases (p : Project) (fs : FileSystem) (c : Configuration) (a : Architecture) : ∃ after,
    (fs.removeTree p.buildDir).2 = .ok () ∧ p.generate fs c a = (after, .ok (p.configureLine c a).render) ∨
      ∃ cause, (fs.removeTree p.buildDir).2 = .error cause ∧
        p.generate fs c a = (after, .error ⟨p.buildDir, cause⟩) := by
  unfold Project.generate
  rcases fs.removeTree p.buildDir with ⟨after, cause | _⟩
  · exact ⟨after, .inr ⟨cause, rfl, rfl⟩⟩
  · exact ⟨after, .inl ⟨rfl, rfl⟩⟩

theorem plans_generate (fs : FileSystem) : h.Plans fs .generate (h.planGenerate fs).2 := by
  unfold planGenerate
  obtain ⟨after, ⟨hr, he⟩ | ⟨cause, hr, he⟩⟩ := generate_cases h.project fs h.configuration h.architecture
  · rw [he]
    exact .generate hr
  · rw [he]
    exact .notRemoved .generate cause (.inl rfl) hr

theorem plans_build (fs : FileSystem) : h.Plans fs .build (h.planBuild fs).2 := by
  unfold planBuild Project.build
  by_cases hg : h.project.isGenerated fs = true
  · simp only [hg, if_true]
    exact .build hg
  · have hg : h.project.isGenerated fs = false := Bool.eq_false_iff.2 hg
    simp only [hg, Bool.false_eq_true, if_false]
    obtain ⟨after, ⟨hr, he⟩ | ⟨cause, hr, he⟩⟩ := generate_cases h.project fs h.configuration h.architecture
    · rw [he]
      exact .generateAndBuild hg hr
    · rw [he]
      exact .notRemoved .build cause (.inr ⟨rfl, hg⟩) hr

theorem plans_run (fs : FileSystem) : h.Plans fs .run h.planRun := by
  unfold planRun
  cases ht : h.selectedTarget? with
  | none => exact .noArtifact .noTargetSelected (by rw [artifact, ht])
  | some t =>
      have hartifact : h.artifact = h.project.artifact t h.configuration := by rw [artifact, ht]
      simp only [Project.run]
      cases ha : h.project.artifact t h.configuration with
      | error e => exact .noArtifact e (hartifact.trans ha)
      | ok program =>
          cases hc : h.configuration with
          | debug => exact .debug program hc (hartifact.trans ha)
          | release => exact .release program hc (hartifact.trans ha)

theorem plans (fs : FileSystem) (a : Action) : h.Plans fs a (h.plan fs a).2 := by
  cases a with
  | generate => exact h.plans_generate fs
  | build => exact h.plans_build fs
  | run => exact h.plans_run fs

end

def Plan.answer (plan : Plan) : Outcome → Except ActionError (Option Launch.Descriptor)
  | .ok => .ok plan.descriptor
  | .error e => .error (.exec e)

/-- The action has come to its end, with the calls that it has made, what the session is then and the answer. -/
inductive Ends {σ : Type} (H : Session.Host σ) (h : Helm σ) (fs : FileSystem) (a : Action) :
    List (Nat × String) → Session σ → Except ActionError (Option Launch.Descriptor) → Prop
  | unplanned {e : ActionError} (hp : (h.plan fs a).2 = .error e) : Ends H h fs a [] h.session (.error e)
  | carriedOut {plan : Plan} {requests : List (Nat × String)} {s' : Session σ} {r : Outcome}
      (hp : (h.plan fs a).2 = .ok plan) (hc : Course H h.session (.next plan.commands) requests s' (.finished r)) :
      Ends H h fs a requests s' (plan.answer r)

variable {σ : Type} {H : Session.Host σ} {h h' : Helm σ} {fs : FileSystem} {a : Action} {plan : Plan}
  {requests : List (Nat × String)} {s' : Session σ} {answer : Except ActionError (Option Launch.Descriptor)}

theorem Plans.debug_inv (hp : h.Plans fs .run (.ok plan)) (hc : h.configuration = .debug) :
    ∃ program, plan = ⟨[], some ⟨program, h.project.buildDir, h.debugger⟩⟩ ∧ h.artifact = .ok program := by
  cases hp with
  | debug program _ ha => exact ⟨program, rfl, ha⟩
  | release program hc' ha => exact absurd (hc.symm.trans hc') (by simp)

theorem ends_perform (hp : (h.plan fs a).2 = .ok plan) (he : h.perform H plan = (h', some answer)) :
    ∃ requests, Ends H h fs a requests h'.session answer := by
  unfold perform at he
  cases hs : h.session.perform H plan.commands with
  | mk session result =>
      rw [hs] at he
      cases result with
      | none => cases he
      | some r =>
          obtain ⟨requests, hc⟩ := Session.course_perform hs
          have hends : Ends H h fs a requests session (plan.answer r) := .carriedOut hp hc
          cases r <;> cases he <;> exact ⟨requests, hends⟩

theorem ends_act {h h' : Helm Session.Shells} (he : h.act a = (h', some answer)) :
    ∃ requests, Ends Session.Shells.host (h.withFiles (h.plan h.files a).1) h.files a requests h'.session answer := by
  have hplan : ∀ after, (h.withFiles after).plan h.files a = h.plan h.files a := by
    intro after
    cases a <;> rfl
  unfold act at he
  cases hp : h.plan h.files a with
  | mk after result =>
      rw [hp] at he
      have hresult : ((h.withFiles after).plan h.files a).2 = result := by rw [hplan, hp]
      cases result with
      | ok plan => exact ends_perform hresult he
      | error e =>
          cases he
          exact ⟨[], .unplanned hresult⟩

theorem Plan.answer_eq_ok_iff {r : Outcome} : plan.answer r = .ok plan.descriptor ↔ r = .ok := by
  cases r <;> simp [Plan.answer]

theorem Plan.answer_eq_error_iff {r : Outcome} {e : ActionError} :
    plan.answer r = .error e ↔ ∃ e', e = .exec e' ∧ r = .error e' := by
  cases r <;> simp [Plan.answer, eq_comm]

/-- An action sends a beginning of what it has planned, each command when those before it have succeeded. It succeeds
when all of them do and has else the error of the first one that fails. What cannot be planned does nothing to the
session, and nothing is sent for the debugger. -/
theorem action_stops_at_first_failure (hs : Session.Reachable H h.session) (he : Ends H h fs a requests s' answer) :
    h.Plans fs a (h.plan fs a).2 ∧
    (∀ e, (h.plan fs a).2 = .error e → answer = .error e ∧ requests = [] ∧ s' = h.session) ∧
    ∀ plan, (h.plan fs a).2 = .ok plan →
      Session.sentBy (requests.map (·.1)) s'.history <+: requests.map (·.2) ∧ requests.map (·.2) <+: plan.commands ∧
      (∀ x ∈ requests, h.session.calls.length ≤ x.1) ∧ requests.Pairwise (Session.Awaits s'.history) ∧
      (answer = .ok plan.descriptor ↔
        requests.map (·.2) = plan.commands ∧ ∀ x ∈ requests, s'.result? x.1 = some .ok) ∧
      (∀ e, answer = .error e ↔ ∃ front x e', e = .exec e' ∧ requests = front ++ [x] ∧
        (∀ z ∈ front, s'.result? z.1 = some .ok) ∧ s'.result? x.1 = some (.error e')) ∧
      (a = .run → h.configuration = .debug →
        requests = [] ∧ ∃ d, answer = .ok (some d) ∧ h.artifact = .ok d.program) := by
  refine ⟨h.plans fs a, ?_⟩
  cases he with
  | unplanned hp =>
      refine ⟨fun e hp' => ?_, fun plan hp' => absurd (hp.symm.trans hp') (by simp)⟩
      obtain rfl := Except.error.inj (hp.symm.trans hp')
      exact ⟨rfl, rfl, rfl⟩
  | @carriedOut plan requests s' r hp hc =>
      refine ⟨fun e hp' => absurd (hp.symm.trans hp') (by simp), fun plan' hp' => ?_⟩
      obtain rfl := Except.ok.inj (hp.symm.trans hp')
      have hperformed : Performed H plan.commands h.session requests r s' := hc.ends
      refine ⟨hperformed.sent hs, hperformed.requested, hperformed.fresh hs, hperformed.pairwise_awaits hs, ?_, ?_, ?_⟩
      · exact Plan.answer_eq_ok_iff.trans (hperformed.ok_iff hs)
      · intro e
        rw [Plan.answer_eq_error_iff]
        constructor
        · rintro ⟨e', rfl, hr⟩
          obtain ⟨front, x, hfront⟩ := (hperformed.error_iff hs).1 hr
          exact ⟨front, x, e', rfl, hfront⟩
        · rintro ⟨front, x, e', rfl, hfront⟩
          exact ⟨e', rfl, (hperformed.error_iff hs).2 ⟨front, x, hfront⟩⟩
      · rintro rfl hdebug
        obtain ⟨program, rfl, ha⟩ := (hp ▸ h.plans fs .run).debug_inv hdebug
        obtain rfl : requests = [] := List.map_eq_nil_iff.1 (List.prefix_nil.1 hperformed.requested)
        obtain rfl := (hperformed.ok_iff hs).2 ⟨rfl, fun x hx => absurd hx List.not_mem_nil⟩
        exact ⟨rfl, _, rfl, ha⟩

def unbuilt : Helm Session.Script where
  project :=
    { Project.new (Path.ofString "/") (Path.ofString "/p") (Path.ofString "/p/build") .unix with cmake := "cmake" }
  session := { name := "p", host := { integrates := true, replies := [.ended (some 1)] } }

theorem unbuilt_does_not_build :
    let fs : FileSystem := { workDir := [], entries := [(["p".toList], .directory)] }
    let plan : Plan := ⟨[unbuilt.configureLine, unbuilt.buildLine], none⟩
    let after := unbuilt.perform Session.Script.host plan
    (unbuilt.plan fs .build).2 = .ok plan ∧ after.2 = some (.error (.exec (.commandFailed 1))) ∧
      Ends Session.Script.host unbuilt fs .build [(0, unbuilt.configureLine)] after.1.session
        (.error (.exec (.commandFailed 1))) ∧
      Session.sentBy [0] after.1.session.history = [unbuilt.configureLine] := by
  intro fs plan after
  have hbuild : unbuilt.project.buildDir = Path.ofString "/p/build" := by decide +kernel
  have hremove : fs.removeTree (Path.ofString "/p/build") = (fs, .ok ()) := by cbv
  have hgenerated : unbuilt.project.isGenerated fs = false := by
    rw [Project.isGenerated, hbuild]
    cbv
  have hplan : (unbuilt.plan fs .build).2 = .ok plan := by
    simp only [Helm.plan, planBuild, Project.build, hgenerated, Project.generate, hbuild, hremove]
    rfl
  have hanswer : after.2 = some (.error (.exec (.commandFailed 1))) := by decide +kernel
  have hlength : after.1.session.calls.length = 1 := by decide +kernel
  have hfailed : after.1.session.result? 0 = some (.error (.commandFailed 1)) := by decide +kernel
  have hsent : Session.sentBy [0] after.1.session.history = [unbuilt.configureLine] := by decide +kernel
  have hafter : after = (after.1, some (.error (.exec (.commandFailed 1)))) := by rw [← hanswer]
  obtain ⟨requests, he⟩ := ends_perform hplan hafter
  clear_value after
  have hreachable : Session.Reachable Session.Script.host unbuilt.session := .start ..
  obtain ⟨-, hrequested, -, -, -, herror, -⟩ := (action_stops_at_first_failure hreachable he).2.2 plan hplan
  obtain ⟨front, x, e, -, rfl, hfront, hlast⟩ := (herror _).1 rfl
  have hone : ∀ i r, after.1.session.result? i = some r → i = 0 := by
    intro i r hr
    obtain ⟨c, hc, -⟩ := (after.1.session.phase?_eq_some_iff i).1 (Session.result?_eq_some_iff.1 hr)
    have hlt : i < after.1.session.calls.length := (List.getElem?_eq_some_iff.1 hc).1
    omega
  obtain rfl : front = [] := by
    rw [List.eq_nil_iff_forall_not_mem]
    intro z hz
    have hok := hfront z hz
    rw [hone _ _ hok, hfailed] at hok
    cases hok
  have hx : x = (0, unbuilt.configureLine) := Prod.ext (hone _ _ hlast) (List.cons_prefix_cons.1 hrequested).1
  exact ⟨hplan, hanswer, hx ▸ he, hsent⟩

end CMakeHelm.Helm
