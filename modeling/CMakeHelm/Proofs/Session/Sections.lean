import CMakeHelm.Proofs.Session.Effects

namespace CMakeHelm.Session

variable {σ : Type} {H : Host σ} {s s' : Session σ} {i : Nat} {c : Call}

inductive Begun (H : Host σ) (s : Session σ) (i : Nat) : Session σ → Prop
  | present (host : σ) (t : Nat) (ha : s.attached = some t) : Begun H s i ({ s with host }.goOn i (.attached t))
  | made (host : σ) (mail : List Event) (ha : s.attached = none) :
      Begun H s i ((s.attach H i host mail).goOn i (.attached s.lines.length))
  | unmade (host : σ) (cause : List String) (ha : s.attached = none) :
      Begun H s i ({ s with host }.finish i (.error (.start cause)))

theorem begun_begin (s : Session σ) (i : Nat) : Begun H s i (s.begin H i) := by
  unfold begin
  split
  · next t ha => exact .present _ t ha
  · next ha =>
    simp only
    split
    · next host cause _ => exact .unmade host cause ha
    · next host mail _ => exact .made host mail ha

/-- Call `i` can do nothing before it is woken. -/
def Call.Sleeps (s : Session σ) (i : Nat) (c : Call) : Prop :=
  match c.phase with
  | .queued => s.turn ≠ some i
  | .integrating t => s.isIntegrated t = false ∧ s.isDispatching t = true
  | .executing _ _ none | .returned _ | .cancelled => True
  | _ => False

inductive Section (H : Host σ) (s : Session σ) (i : Nat) : Session σ → Prop
  | sleeps (hc : ∀ c, s.calls[i]? = some c → (c.aborted = true → c.phase.waits = false) ∧ c.Sleeps s i) :
      Section H s i s
  | dropped (c : Call) (hc : s.calls[i]? = some c) (hw : c.phase.waits = true) : Section H s i (s.cancel i c.phase)
  | queued (c : Call) (hc : s.calls[i]? = some c) (hp : c.phase = .fresh) (hab : c.aborted = false)
      (ht : s.turn ≠ none) :
      Section H s i ({ s.record (.asked i) with waiting := s.waiting ++ [i] }.setPhase i .queued)
  | started {s' : Session σ} (c : Call) (hc : s.calls[i]? = some c) (hp : c.phase = .fresh) (ht : s.turn = none)
      (h : Begun H { s.record (.asked i) with turn := some i } i s') : Section H s i s'
  | resumed {s' : Session σ} (c : Call) (hc : s.calls[i]? = some c) (hp : c.phase = .queued) (ht : s.turn = some i)
      (h : Begun H s i s') : Section H s i s'
  | looked (c : Call) (t : Nat) (hc : s.calls[i]? = some c) (hp : c.phase = .attached t)
      (hi : s.isIntegrated t = false) : Section H s i (s.goOn i (.announcing t))
  | announced (c : Call) (t : Nat) (hc : s.calls[i]? = some c) (hp : c.phase = .announcing t) :
      Section H s i (s.announce i t)
  | registered (c : Call) (t : Nat) (hc : s.calls[i]? = some c)
      (hp : c.phase = .attached t ∨ c.phase = .integrating t) (hi : s.isIntegrated t = true)
      (ha : s.attached = some t) :
      Section H s i (({ s with
        nextExecution := s.nextExecution + 1
        pending := s.pending ++ [(s.nextExecution, i)]
        lifecycle := .executing }.record (.registered i t s.nextExecution)).goOn i
          (.registered t s.nextExecution none))
  | lost (c : Call) (t nextExecution : Nat) (hc : s.calls[i]? = some c)
      (hp : c.phase = .attached t ∨ c.phase = .integrating t)
      (hn : nextExecution = s.nextExecution ∨ nextExecution = s.nextExecution + 1) :
      Section H s i ({ s with nextExecution }.finish i (.error .sessionLost))
  | sent (c : Call) (t e : Nat) (reply : Option Outcome) (host : σ) (events : List Event)
      (hc : s.calls[i]? = some c) (hp : c.phase = .registered t e reply) :
      Section H s i ((({ s with host }.record (.sent i t e c.command)).goOn i (.executing t e reply)).post t events)
  | refused (c : Call) (t e : Nat) (reply : Option Outcome) (host : σ) (events : List Event) (cause : List String)
      (hc : s.calls[i]? = some c) (hp : c.phase = .registered t e reply) :
      Section H s i ((({ s with host }.record (.refused i t e c.command)).goOn i (.refused t e cause)).post t events)
  | takenBack (c : Call) (t e : Nat) (cause : List String) (hc : s.calls[i]? = some c)
      (hp : c.phase = .refused t e cause) : Section H s i (s.takeBack i t e cause)
  | replied (c : Call) (t e : Nat) (r : Outcome) (hc : s.calls[i]? = some c)
      (hp : c.phase = .executing t e (some r)) : Section H s i (s.finish i r)

theorem section_register {t : Nat} (hc : s.calls[i]? = some c)
    (hp : c.phase = .attached t ∨ c.phase = .integrating t) (hi : s.isIntegrated t = true) :
    Section H s i (s.register i t) := by
  unfold register
  simp only
  split
  · next ha => exact .registered c t hc hp hi ha
  · exact .lost c t _ hc hp (.inr rfl)

theorem section_send {t e : Nat} {reply : Option Outcome} (hc : s.calls[i]? = some c)
    (hp : c.phase = .registered t e reply) : Section H s i (s.send H i t e reply c.command) := by
  unfold send
  split
  · next host events _ => exact .sent c t e reply host events hc hp
  · next host events cause _ => exact .refused c t e reply host events cause hc hp

theorem section_runCall (s : Session σ) (i : Nat) : Section H s i (s.runCall H i) := by
  unfold runCall
  cases hc : s.calls[i]? with
  | none => exact .sleeps (by simp [hc])
  | some c =>
      have hsleeps (hab : ¬(c.aborted && c.phase.waits) = true) (h : c.Sleeps s i) : Section H s i s := by
        refine .sleeps fun c' hc' => ?_
        obtain rfl : c = c' := Option.some.inj (hc.symm.trans hc')
        exact ⟨fun ha => by simpa [ha] using hab, h⟩
      simp only
      split
      · next hab => exact .dropped c hc (Bool.and_eq_true_iff.1 hab).2
      · next hab =>
        cases hp : c.phase with
        | fresh =>
            have hnot : c.aborted = false := by simpa [hp, Phase.waits] using hab
            simp only
            split
            · next ht => exact .started c hc hp ht (begun_begin ..)
            · next ht => exact .queued c hc hp hnot ht
        | queued =>
            simp only
            split
            · next ht => exact .resumed c hc hp ht (begun_begin ..)
            · next ht => exact hsleeps hab (by simpa [Call.Sleeps, hp] using ht)
        | attached t =>
            simp only
            split
            · next hi => exact section_register hc (.inl hp) hi
            · next hi => exact .looked c t hc hp (Bool.eq_false_iff.2 hi)
        | announcing t => exact .announced c t hc hp
        | integrating t =>
            simp only
            split
            · next hi => exact section_register hc (.inr hp) hi
            · next hi =>
              split
              · next hd => exact hsleeps hab (by simpa [Call.Sleeps, hp] using ⟨Bool.eq_false_iff.2 hi, hd⟩)
              · exact .lost c t s.nextExecution hc (.inr hp) (.inl rfl)
        | registered t e reply => exact section_send hc hp
        | refused t e cause => exact .takenBack c t e cause hc hp
        | executing t e reply =>
            cases reply with
            | none => exact hsleeps hab (by simp [Call.Sleeps, hp])
            | some r => exact .replied c t e r hc hp
        | returned | cancelled => exact hsleeps hab (by simp [Call.Sleeps, hp])

end CMakeHelm.Session
