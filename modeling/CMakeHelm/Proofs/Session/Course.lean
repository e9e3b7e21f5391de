import CMakeHelm.Helm
import CMakeHelm.Proofs.Session.SentCommands

namespace CMakeHelm.Session

variable {σ : Type} {H : Host σ} {s s₁ s' : Session σ} {p p' : Progress} {requests : List (Nat × String)}
  {commands : List String} {r : Outcome} {i : Nat} {x z : Nat × String}

def Progress.request (s : Session σ) : Progress → List (Nat × String)
  | .next (command :: _) => [(s.calls.length, command)]
  | _ => []

/-- The commands come on by their own steps, between which the session takes any. The calls that are made for them are
listed. -/
inductive Course (H : Host σ) : Session σ → Progress → List (Nat × String) → Session σ → Progress → Prop
  | refl (s : Session σ) (p : Progress) : Course H s p [] s p
  | session {s s₁ s' : Session σ} {p p' : Progress} {requests : List (Nat × String)} (hs : Step H s s₁)
      (h : Course H s₁ p requests s' p') : Course H s p requests s' p'
  | action {s s' : Session σ} {p p' : Progress} {requests : List (Nat × String)}
      (h : Course H (p.step s).1 (p.step s).2 requests s' p') : Course H s p (p.request s ++ requests) s' p'

theorem Course.steps (hs : Steps H s s₁) (h : Course H s₁ p requests s' p') : Course H s p requests s' p' := by
  induction hs using Relation.ReflTransGen.head_induction_on with
  | refl => exact h
  | head hstep _ ih => exact .session hstep ih

/-- The commands are carried out, by these calls and with this result. -/
inductive Performed (H : Host σ) : List String → Session σ → List (Nat × String) → Outcome → Session σ → Prop
  | done {s s' : Session σ} (hs : Steps H s s') : Performed H [] s [] .ok s'
  | failed {s s₁ s₂ s' : Session σ} {e : ExecError} (command : String) (rest : List String) (hs : Steps H s s₁)
      (hcall : Steps H (s₁.exec command) s₂) (hr : s₂.result? s₁.calls.length = some (.error e))
      (hlater : Steps H s₂ s') :
      Performed H (command :: rest) s [(s₁.calls.length, command)] (.error e) s'
  | next {s s₁ s₂ s' : Session σ} {rest : List String} {requests : List (Nat × String)} {r : Outcome}
      (command : String) (hs : Steps H s s₁) (hcall : Steps H (s₁.exec command) s₂)
      (hr : s₂.result? s₁.calls.length = some .ok) (h : Performed H rest s₂ requests r s') :
      Performed H (command :: rest) s ((s₁.calls.length, command) :: requests) r s'

def Progress.Ends (H : Host σ) (s : Session σ) (requests : List (Nat × String)) (r : Outcome) (s' : Session σ) :
    Progress → Prop
  | .next commands => Performed H commands s requests r s'
  | .waiting i rest => ∃ s₁, Steps H s s₁ ∧
      (s₁.result? i = some .ok ∧ Performed H rest s₁ requests r s' ∨
        ∃ e, s₁.result? i = some (.error e) ∧ r = .error e ∧ requests = [] ∧ Steps H s₁ s')
  | .finished r' => r' = r ∧ requests = [] ∧ Steps H s s'

theorem Performed.head (hs : Step H s s₁) (h : Performed H commands s₁ requests r s') :
    Performed H commands s requests r s' := by
  cases h with
  | done hsteps => exact .done (hsteps.head hs)
  | failed command rest hsteps hcall hr hlater => exact .failed command rest (hsteps.head hs) hcall hr hlater
  | next command hsteps hcall hr h => exact .next command (hsteps.head hs) hcall hr h

theorem Progress.Ends.head (hs : Step H s s₁) (h : p.Ends H s₁ requests r s') : p.Ends H s requests r s' := by
  cases p with
  | next commands => exact Performed.head hs h
  | waiting i rest =>
      obtain ⟨s₂, hsteps, hend⟩ := h
      exact ⟨s₂, hsteps.head hs, hend⟩
  | finished r' => exact ⟨h.1, h.2.1, h.2.2.head hs⟩

theorem Progress.Ends.of_step (h : (p.step s).2.Ends H (p.step s).1 requests r s') :
    p.Ends H s (p.request s ++ requests) r s' := by
  cases p with
  | next commands =>
      cases commands with
      | nil =>
          obtain ⟨rfl, rfl, hsteps⟩ := h
          exact .done hsteps
      | cons command rest =>
          obtain ⟨s₁, hsteps, ⟨hr, h⟩ | ⟨e, hr, rfl, rfl, hlater⟩⟩ := h
          · exact .next command .refl hsteps hr h
          · exact .failed command rest .refl hsteps hr hlater
  | waiting i rest =>
      cases hr : s.result? i with
      | none =>
          simp only [Progress.step, hr] at h
          exact h
      | some result =>
          cases result with
          | ok =>
              simp only [Progress.step, hr] at h
              exact ⟨s, .refl, .inl ⟨hr, h⟩⟩
          | error e =>
              simp only [Progress.step, hr] at h
              obtain ⟨rfl, rfl, hsteps⟩ := h
              exact ⟨s, .refl, .inr ⟨e, hr, rfl, rfl, hsteps⟩⟩
  | finished r' => exact h

theorem Course.ends (h : Course H s p requests s' (.finished r)) : p.Ends H s requests r s' := by
  generalize hp' : Progress.finished r = p' at h
  induction h with
  | refl s p =>
      subst hp'
      exact ⟨rfl, rfl, .refl⟩
  | session hs _ ih => exact (ih hp').head hs
  | action _ ih => exact (ih hp').of_step

theorem course_drive (n : Nat) (s : Session σ) (p : Progress) :
    ∃ requests, Course H s p requests (drive H n s p).1 (drive H n s p).2 := by
  induction n generalizing s p with
  | zero => exact ⟨[], .refl s p⟩
  | succ n ih =>
      obtain ⟨requests, h⟩ := ih ((p.step s).1.settle H) (p.step s).2
      exact ⟨_, .action (h.steps (steps_settleWithin _ _))⟩

theorem course_perform (hp : s.perform H commands = (s', some r)) :
    ∃ requests, Course H s (.next commands) requests s' (.finished r) := by
  obtain ⟨requests, h⟩ := course_drive (H := H) (2 * commands.length + 1) s (.next commands)
  unfold perform at hp
  generalize drive H (2 * commands.length + 1) s (.next commands) = d at hp h
  obtain ⟨u, p⟩ := d
  cases p with
  | finished result =>
      cases hp
      exact ⟨requests, h⟩
  | waiting | next => cases hp

theorem steps_exec (hs : Steps H s s₁) (command : String) : Steps H s (s₁.exec command) := hs.tail (.exec command)

theorem Performed.steps (h : Performed H commands s requests r s') : Steps H s s' := by
  induction h with
  | done hs => exact hs
  | failed command rest hs hcall hr hlater => exact ((steps_exec hs command).trans hcall).trans hlater
  | next command hs hcall hr h ih => exact ((steps_exec hs command).trans hcall).trans ih

theorem Performed.requested (h : Performed H commands s requests r s') : requests.map (·.2) <+: commands := by
  induction h with
  | done => exact List.prefix_rfl
  | failed command rest => exact ⟨rest, rfl⟩
  | next command hs hcall hr h ih => exact List.cons_prefix_cons.2 ⟨rfl, ih⟩

theorem getElem?_exec (s : Session σ) (command : String) :
    (s.exec command).calls[s.calls.length]? = some { command } := by
  simp [exec, wake]

theorem Performed.fresh (hp : Performed H commands s requests r s') (h : Reachable H s) :
    ∀ x ∈ requests, s.calls.length ≤ x.1 := by
  induction hp with
  | done => exact fun x hx => absurd hx List.not_mem_nil
  | failed command rest hs =>
      intro x hx
      obtain rfl := List.mem_singleton.1 hx
      exact hs.length_le h
  | next command hs hcall hr hp ih =>
      have hsteps : Steps H _ _ := (steps_exec hs command).trans hcall
      intro x hx
      rcases List.mem_cons.1 hx with rfl | hx
      · exact hs.length_le h
      · exact Nat.le_trans (hsteps.length_le h) (ih (h.steps hsteps) x hx)

theorem Performed.results (hp : Performed H commands s requests r s') (h : Reachable H s) :
    (r = .ok ∧ requests.map (·.2) = commands ∧ ∀ x ∈ requests, s'.result? x.1 = some .ok) ∨
      ∃ front x e, r = .error e ∧ requests = front ++ [x] ∧ (∀ z ∈ front, s'.result? z.1 = some .ok) ∧
        s'.result? x.1 = some (.error e) := by
  induction hp with
  | done => exact .inl ⟨rfl, rfl, fun x hx => absurd hx List.not_mem_nil⟩
  | @failed s s₁ _ _ e command rest hs hcall hr hlater =>
      have h₂ := h.steps ((steps_exec hs command).trans hcall)
      exact .inr ⟨[], _, e, rfl, rfl, fun z hz => absurd hz List.not_mem_nil, hlater.result? h₂ hr⟩
  | @next s s₁ s₂ s' rest requests r command hs hcall hr hp ih =>
      have h₂ := h.steps ((steps_exec hs command).trans hcall)
      have hfirst : s'.result? s₁.calls.length = some .ok := hp.steps.result? h₂ hr
      rcases ih h₂ with ⟨rfl, hcommands, hall⟩ | ⟨front, x, e, rfl, rfl, hfront, hlast⟩
      · exact .inl ⟨rfl, congrArg (command :: ·) hcommands, List.forall_mem_cons.2 ⟨hfirst, hall⟩⟩
      · exact .inr ⟨_ :: front, x, e, rfl, rfl, List.forall_mem_cons.2 ⟨hfirst, hfront⟩, hlast⟩

theorem Performed.ok_iff (hp : Performed H commands s requests r s') (h : Reachable H s) :
    r = .ok ↔ requests.map (·.2) = commands ∧ ∀ x ∈ requests, s'.result? x.1 = some .ok := by
  rcases hp.results h with ⟨rfl, hcommands, hall⟩ | ⟨front, x, e, rfl, rfl, -, hlast⟩
  · exact ⟨fun _ => ⟨hcommands, hall⟩, fun _ => rfl⟩
  · refine ⟨nofun, fun hok => ?_⟩
    have hx := hok.2 x (List.mem_append_right _ List.mem_cons_self)
    exact absurd (hx.symm.trans hlast) (by simp)

theorem Performed.error_iff (hp : Performed H commands s requests r s') (h : Reachable H s) {e : ExecError} :
    r = .error e ↔ ∃ front x, requests = front ++ [x] ∧ (∀ z ∈ front, s'.result? z.1 = some .ok) ∧
      s'.result? x.1 = some (.error e) := by
  rcases hp.results h with ⟨rfl, -, hall⟩ | ⟨front, x, e', rfl, rfl, hfront, hlast⟩
  · refine ⟨nofun, ?_⟩
    rintro ⟨front, x, rfl, -, hlast⟩
    have hx := hall x (List.mem_append_right _ List.mem_cons_self)
    exact absurd (hx.symm.trans hlast) (by simp)
  · constructor
    · intro he
      exact ⟨front, x, rfl, hfront, hlast.trans (congrArg some he)⟩
    · rintro ⟨front', x', heq, -, hlast'⟩
      obtain ⟨-, rfl⟩ := List.append_singleton_inj.1 heq
      exact Option.some.inj (hlast.symm.trans hlast')

/-- Call `x` acts only when call `z` has succeeded. -/
def Awaits (history : List Happening) (z x : Nat × String) : Prop :=
  ∀ before y later, history = before ++ y :: later → y.actor? = some x.1 → .returned z.1 .ok ∈ before

theorem Steps.awaits (hs : Steps H s s') (h : Reachable H s) (hr : s.result? z.1 = some .ok)
    (hx : s.calls.length ≤ x.1) : Awaits s'.history z x := by
  intro before y later he ha
  have hgrows := hs.history_grows h
  have hnot : y ∉ s.history := fun hy => absurd (h.lt_of_actor hy ha) (Nat.not_lt.2 hx)
  have hsplit : before ++ [y] <+: s'.history := by
    rw [he]
    exact ⟨later, by simp⟩
  -- The session that knows of the success has not heard of `y`, so its history ends before `y`.
  have hbefore : s.history <+: before := by
    rcases List.prefix_or_prefix_of_prefix hgrows hsplit with hle | hle
    · refine (List.prefix_concat_iff.1 hle).resolve_left fun heq => hnot ?_
      exact heq ▸ List.mem_concat_self
    · exact absurd (hle.subset List.mem_concat_self) hnot
  exact hbefore.subset (h.returned_mem hr)

theorem Performed.pairwise_awaits (hp : Performed H commands s requests r s') (h : Reachable H s) :
    requests.Pairwise (Awaits s'.history) := by
  induction hp with
  | done => exact .nil
  | failed => exact List.pairwise_singleton ..
  | next command hs hcall hr hp ih =>
      have h₂ := h.steps ((steps_exec hs command).trans hcall)
      exact .cons (fun x hx => hp.steps.awaits h₂ hr (hp.fresh h₂ x hx)) (ih h₂)

theorem Steps.sentBy_cons {c : Call} {calls : List Nat} (hs : Steps H s s') (h : Reachable H s)
    (hc : s.calls[i]? = some c) (hr : s.result? i = some .ok) (hcalls : ∀ j ∈ calls, s.calls.length ≤ j) :
    sentBy (i :: calls) s'.history = c.command :: sentBy calls s'.history := by
  obtain ⟨more, he⟩ := hs.history_grows h
  have he : s'.history = s.history ++ more := he.symm
  have hnone : ∀ j ∈ calls, ∀ t e command, .sent j t e command ∉ s.history := by
    intro j hj t e command hsent
    exact absurd (h.lt_of_actor hsent rfl) (Nat.not_lt.2 (hcalls j hj))
  have hbefore : sentBy (i :: calls) s.history = [c.command] := by
    rw [← h.sentBy_of_ok hc hr]
    apply sentBy_congr
    intro j t e command hsent
    have hj : j ∉ calls := fun hj => hnone j hj t e command hsent
    simp [hj]
  have hafter : sentBy (i :: calls) more = sentBy calls more := by
    apply sentBy_congr
    intro j t e command hsent
    have hj : j ≠ i := by
      rintro rfl
      exact hs.not_mem_of_ok h hr he t e command hsent
    simp [hj]
  rw [he, sentBy_append, hbefore, hafter, sentBy_append, sentBy_eq_nil hnone]
  rfl

theorem Performed.sent (hp : Performed H commands s requests r s') (h : Reachable H s) :
    sentBy (requests.map (·.1)) s'.history <+: requests.map (·.2) := by
  induction hp with
  | done =>
      rw [List.map_nil, sentBy_eq_nil fun i hi => absurd hi List.not_mem_nil]
      exact List.prefix_rfl
  | @failed s s₁ s₂ s' e command rest hs hcall hr hlater =>
      have hexec := h.steps (steps_exec hs command)
      have hsteps : Steps H (s₁.exec command) s' := hcall.trans hlater
      obtain ⟨c, hc, hcommand⟩ := hsteps.exists_call hexec (getElem?_exec s₁ command)
      rw [List.map_singleton]
      rcases (hexec.steps hsteps).sentBy_eq_nil_or hc with hnil | hone
      · rw [hnil]
        exact List.nil_prefix
      · rw [hone, hcommand]
        exact List.prefix_rfl
  | @next s s₁ s₂ s' rest requests r command hs hcall hr hp ih =>
      have hexec := h.steps (steps_exec hs command)
      have h₂ := hexec.steps hcall
      obtain ⟨c, hc, hcommand⟩ := hcall.exists_call hexec (getElem?_exec s₁ command)
      have hcalls : ∀ j ∈ requests.map (·.1), s₂.calls.length ≤ j := by
        intro j hj
        obtain ⟨x, hx, rfl⟩ := List.mem_map.1 hj
        exact hp.fresh h₂ x hx
      rw [List.map_cons, hp.steps.sentBy_cons h₂ hc hr hcalls, hcommand]
      exact List.cons_prefix_cons.2 ⟨rfl, ih h₂⟩

end CMakeHelm.Session
