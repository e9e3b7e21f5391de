import CMakeHelm.Proofs.Session.Completion

namespace CMakeHelm.Session

variable {σ : Type} {H : Host σ} {s s' : Session σ} {o : Option Nat}

/-- All dispatchers, but perhaps one, can run while there is something for them to do. -/
def Attended (s : Session σ) (o : Option Nat) : Prop :=
  ∀ t l, some t ≠ o → s.lines[t]? = some l → l.dispatching = true → l.Quiet ∨ .dispatcher t ∈ s.runnable

theorem Attended.congr (h : Attended s o) (hl : s'.lines = s.lines)
    (hr : ∀ t, .dispatcher t ∈ s.runnable → .dispatcher t ∈ s'.runnable) : Attended s' o :=
  fun t l ho hl' hd => (h t l ho (hl ▸ hl') hd).imp_right (hr t)

theorem Attended.wake (h : Attended s o) (task : Task) : Attended (s.wake task) o :=
  h.congr rfl fun _ hr => subset_wake _ _ hr

theorem Attended.stay (h : Attended s o) (task : Task) : Attended (s.stay task) o :=
  h.congr rfl fun _ hr => List.mem_cons_of_mem _ hr

theorem Attended.stay_self {t : Nat} (h : Attended s (some t)) : Attended (s.stay (.dispatcher t)) none := by
  intro u l _ hl hd
  by_cases hu : u = t
  · exact .inr (hu ▸ List.mem_cons_self)
  · exact h.stay _ u l (by simpa using hu) hl hd

theorem Attended.modifyLine_self {t : Nat} (h : Attended s (some t)) (f : Line → Line) :
    Attended (s.modifyLine t f) (some t) := by
  intro u l hu hl hd
  have hl' : (s.lines.modify t f)[u]? = some l := hl
  rw [List.getElem?_modify_ne _ _ (by simpa using Ne.symm hu)] at hl'
  exact h u l hu hl' hd

theorem Attended.modifyLine_wake (h : Attended s o) (t : Nat) (f : Line → Line) :
    Attended ((s.modifyLine t f).wake (.dispatcher t)) o := by
  intro u l ho hl hd
  by_cases hu : t = u
  · exact .inr (hu ▸ mem_wake ..)
  · have hl' : (s.lines.modify t f)[u]? = some l := hl
    rw [List.getElem?_modify_ne _ _ hu] at hl'
    exact h.wake _ u l ho hl' hd

theorem Attended.modifyLine_of_dispatching (h : Attended s o) (t : Nat) {f : Line → Line}
    (hf : ∀ l, (f l).dispatching = false) : Attended (s.modifyLine t f) o := by
  intro u l ho hl hd
  have hl' : (s.lines.modify t f)[u]? = some l := hl
  rw [List.getElem?_modify] at hl'
  obtain ⟨l₀, hl₀, rfl⟩ := Option.map_eq_some_iff.1 hl'
  by_cases hu : t = u
  · simp [hu, hf] at hd
  · rw [if_neg hu] at hd ⊢
    exact h u l₀ ho hl₀ hd

theorem Attended.releaseTurn (h : Attended s o) : Attended s.releaseTurn o := by
  obtain ⟨runnable, he, hr, -⟩ := s.releaseTurn_eq
  rw [he]
  exact h.congr rfl fun _ ht => hr ht

theorem Attended.finish (h : Attended s o) (i : Nat) (r : Outcome) : Attended (s.finish i r) o :=
  Attended.releaseTurn (s := (s.record (.returned i r)).setPhase i (.returned r)) h

theorem Attended.post (h : Attended s o) (t : Nat) (events : List Event) : Attended (s.post t events) o := by
  unfold Session.post
  split
  · exact h.modifyLine_wake t _
  · exact h

theorem Attended.attach (h : Attended s o) (i : Nat) (host : σ) (mail : List Event) :
    Attended (s.attach H i host mail) o := by
  intro u l ho hl hd
  have hl' : (s.lines ++ [({ mail := mail } : Line)])[u]? = some l := hl
  by_cases hu : u < s.lines.length
  · rw [List.getElem?_append_left hu] at hl'
    exact (h u l ho hl' hd).imp_right fun hr => subset_wake _ _ hr
  · have hlt := (List.getElem?_eq_some_iff.1 hl').1
    rw [List.length_append, List.length_singleton] at hlt
    obtain rfl : u = s.lines.length := by omega
    exact .inr (mem_wake ..)

theorem Attended.goOn (h : Attended s o) (i : Nat) (p : Phase) : Attended (s.goOn i p) o :=
  Attended.stay (s := s.setPhase i p) h _

theorem Begun.attended {i : Nat} (hb : Begun H s i s') (h : Attended s o) : Attended s' o := by
  cases hb with
  | present host t ha => exact Attended.goOn (s := { s with host }) h _ _
  | made host mail ha => exact (h.attach i host mail).goOn _ _
  | unmade host cause ha => exact Attended.finish (s := { s with host }) h _ _

theorem Attended.cancel (h : Attended s o) (i : Nat) (p : Phase) : Attended (s.cancel i p) o := by
  unfold Session.cancel
  simp only
  split
  · exact Attended.releaseTurn (s := (s.record (.dropped i p)).setPhase i .cancelled) h
  · exact h

theorem Section.attended {i : Nat} (hsec : Section H s i s') (h : Attended s o) : Attended s' o := by
  cases hsec with
  | sleeps hc => exact h
  | dropped c hc hw => exact h.cancel _ _
  | queued c hc hp hab ht => exact h
  | started c hc hp ht hb => exact hb.attended h
  | resumed c hc hp ht hb => exact hb.attended h
  | looked c t hc hp hi => exact h.goOn _ _
  | announced c t hc hp =>
      exact Attended.goOn (s := { s with lifecycle := .awaitingIntegration }.record (.announced i t)) h _ _
  | registered c t hc hp hi ha =>
      exact Attended.goOn (s := { s with
        nextExecution := s.nextExecution + 1
        pending := s.pending ++ [(s.nextExecution, i)]
        lifecycle := .executing }.record (.registered i t s.nextExecution)) h _ _
  | lost c t next hc hp hn => exact Attended.finish (s := { s with nextExecution := next }) h _ _
  | sent c t e reply host events hc hp =>
      exact (Attended.goOn (s := { s with host }.record (.sent i t e c.command)) h _ _).post _ _
  | refused c t e reply host events cause hc hp =>
      exact (Attended.goOn (s := { s with host }.record (.refused i t e c.command)) h _ _).post _ _
  | takenBack c t e cause hc hp =>
      exact Attended.finish (s := { s with
        pending := s.pending.filter (·.1 ≠ e)
        lifecycle := if s.attached = some t then .ready else s.lifecycle }) h _ _
  | replied c t e r hc hp => exact h.finish _ _

theorem Attended.detach (h : Attended s o) {t : Nat} (ha : s.attached = some t) : Attended (s.detach t) o := by
  obtain ⟨runnable, he, hr, -⟩ := s.detach_eq t ha
  rw [he]
  have hline := h.modifyLine_of_dispatching t (f := ({ · with dispatching := false })) fun _ => rfl
  exact hline.congr rfl fun _ ht => hr ht

theorem Heard.attended {t : Nat} {event : Event} (hh : s.Heard t event s') (h : Attended s (some t))
    (ha : s.attached = some t) : Attended s' (some t) := by
  cases hh with
  | integrated runnable hr hw => exact (h.modifyLine_self _).congr rfl fun _ ht => hr ht
  | stray e code hp => exact h
  | subshell e i hp => exact h
  | settled e i code runnable hp hr hw => exact h.congr rfl fun _ ht => hr ht
  | closed => exact Attended.detach (s := s.record (.heard t .closed)) h ha

theorem Attended.all {t : Nat} (h : Attended s (some t))
    (ht : ∀ l, s.lines[t]? = some l → l.dispatching = true → l.Quiet) : Attended s none := by
  intro u l _ hl hd
  by_cases hu : u = t
  · exact .inl (ht l (hu ▸ hl) hd)
  · exact h u l (by simpa using hu) hl hd

theorem Attended.detach_self {t : Nat} (h : Attended s (some t)) (ha : s.attached = some t) :
    Attended (s.detach t) none := by
  refine (h.detach ha).all ?_
  obtain ⟨runnable, he, -⟩ := s.detach_eq t ha
  rw [he]
  intro l hl hd
  have hl' : (s.lines.modify t ({ · with dispatching := false }))[t]? = some l := hl
  rw [List.getElem?_modify_eq] at hl'
  obtain ⟨l₀, -, rfl⟩ := Option.map_eq_some_iff.1 hl'
  exact absurd hd (by simp)

theorem Dispatched.attended {t : Nat} (hd : s.Dispatched t s') (h : Attended s (some t)) (hs : s.shared.Sound) :
    Attended s' none := by
  cases hd with
  | sleeps hd => exact h.all hd
  | shown l hl hd hdue =>
      exact (Attended.modifyLine_self (s := s.record (.shown t)) h ({ · with due := false })).stay_self
  | cutOff l hl hd hdue hm ho =>
      have ha := attached_of_line hs hl hd
      exact Attended.detach_self (s := s.record (.cutOff t)) h ha
  | heard l event mail s' hl hd hdue hm hh =>
      have ha := attached_of_line hs hl hd
      exact (hh.attended (h.modifyLine_self _) ha).stay_self

theorem Attended.runDispatcher (h : Attended s none) (hs : s.shared.Sound) (t : Nat) :
    Attended ({ s with runnable := s.runnable.erase (.dispatcher t) }.runDispatcher t) none := by
  have hrest : Attended { s with runnable := s.runnable.erase (.dispatcher t) } (some t) := by
    intro u l hu hl hd
    exact (h u l (by simp) hl hd).imp_right (List.mem_erase_of_ne (by simpa using hu)).2
  exact (dispatched_runDispatcher ..).attended hrest hs

theorem Step.attended (hs : Step H s s') (hsound : s.shared.Sound) (h : Attended s none) : Attended s' none := by
  cases hs with
  | exec command => exact Attended.wake (s := { s with calls := s.calls ++ [({ command := command } : Call)] }) h _
  | abort i =>
      unfold Session.abort
      split
      · exact h
      · exact h
      · exact h
      · exact Attended.wake (s := { s with calls := s.calls.modify i ({ · with aborted := true }) }) h _
  | post t events => exact h.post t events
  | hangUp t =>
      unfold Session.hangUp
      split
      · exact h.modifyLine_wake t _
      · exact h
  | host host => exact h
  | run task hr =>
      cases task with
      | call i =>
          have hrest : Attended { s with runnable := s.runnable.erase (.call i) } none := by
            refine h.congr rfl ?_
            intro t ht
            exact (List.mem_erase_of_ne (by simp)).2 ht
          exact (section_runCall ..).attended hrest
      | dispatcher t => exact h.runDispatcher hsound t

theorem Reachable.attended (h : Reachable H s) : Attended s none := by
  induction h with
  | start name host => simp [Attended]
  | step h hs ih => exact hs.attended h.sound ih

theorem Reachable.heard_all_of_idle (h : Reachable H s) (hr : s.runnable = []) {t : Nat}
    (ha : s.attached = some t) : ∃ l, s.lines[t]? = some l ∧ l.mail = [] ∧ l.senderOpen = true := by
  have hd : s.isDispatching t = true := by
    rw [isDispatching_eq]
    exact (h.sound.dispatching_iff t).2 ha
  obtain ⟨l, hl, hd⟩ := (Option.any_eq_true _ _).1 hd
  obtain ⟨-, hquiet⟩ := (h.attended t l (by simp) hl hd).resolve_right (by simp [hr])
  exact ⟨l, hl, hquiet⟩

theorem Aside.queued_of_idle {i : Nat} {c : Call} (h : Aside s i c) (hr : s.runnable = [])
    (ho : c.phase.isOver = false) : c.phase = .queued ∧ i ∈ s.waiting := by
  rcases c with ⟨command, phase, aborted⟩
  cases phase with
  | fresh => exact absurd h.2.1 (by simp [hr])
  | queued => exact ⟨rfl, h.2⟩
  | attached | announcing | integrating | registered | refused | executing => exact h.2.elim
  | returned | cancelled => simp [Phase.isOver] at ho

theorem AtTurn.waits_of_idle {i : Nat} {c : Call} (h : AtTurn s i c) (hr : s.runnable = []) :
    c.aborted = false ∧ ∃ t, s.attached = some t ∧
      (c.phase = .integrating t ∧ s.isIntegrated t = false ∨
        ∃ e, c.phase = .executing t e none ∧ (e, i) ∈ s.pending) := by
  have hnot : .call i ∉ s.runnable := by simp [hr]
  refine ⟨Bool.eq_false_iff.2 fun ha => hnot (h.1 ha), ?_⟩
  rcases c with ⟨command, phase, aborted⟩
  cases phase with
  | queued | attached | announcing | refused => exact absurd h.2 hnot
  | integrating t =>
      obtain ⟨ha, hi⟩ := h.2.resolve_left hnot
      exact ⟨t, ha, .inl ⟨rfl, hi⟩⟩
  | registered t e reply =>
      cases reply with
      | none => exact absurd h.2.1 hnot
      | some r => exact absurd h.2 hnot
  | executing t e reply =>
      cases reply with
      | none => exact ⟨t, h.2.1, .inr ⟨e, rfl, h.2.2⟩⟩
      | some r => exact absurd h.2 hnot
  | fresh | returned | cancelled => exact h.2.elim

/-- If a call is not over while nothing can run, one call has the turn and has not been dropped. It waits
for the attached terminal to integrate or to end its execution, and all that terminal has reported has
been heard. Other calls that are not over wait for the turn. So without a terminal all calls are over. -/
theorem idle_waits_for_terminal (h : Reachable H s) (hr : s.runnable = []) :
    (∀ i c, s.calls[i]? = some c → c.phase.isOver = false →
      ∃ j d t l, s.turn = some j ∧ s.calls[j]? = some d ∧ d.aborted = false ∧
        s.attached = some t ∧ s.lines[t]? = some l ∧ l.mail = [] ∧ l.senderOpen = true ∧
        (d.phase = .integrating t ∧ s.isIntegrated t = false ∨
          ∃ e command, d.phase = .executing t e none ∧ (e, j) ∈ s.pending ∧ .sent j t e command ∈ s.history) ∧
        (i ≠ j → c.phase = .queued ∧ i ∈ s.waiting)) ∧
    (s.lifecycle = .absent ∨ s.attached = none →
      ∀ i c, s.calls[i]? = some c → c.phase ≠ .cancelled → ∃ r, s.result? i = some r) := by
  have ho := h.orderly
  -- With the turn free nobody waits for it, and a call aside that is not over and cannot run would have to.
  have hbusy : ∀ (i : Nat) (c : Call), s.calls[i]? = some c → c.phase.isOver = false → ∃ j, s.turn = some j := by
    intro i c hc hover
    by_contra hn
    have hfree : s.turn = none := by
      cases ht : s.turn with
      | none => rfl
      | some j => exact absurd ⟨j, ht⟩ hn
    have hq := ((ho.stands i c hc).aside (by simp [hfree])).queued_of_idle hr hover
    simp [ho.free hfree] at hq
  have hwaits : ∀ j, s.turn = some j → ∃ (d : Call) (t : Nat), s.calls[j]? = some d ∧ d.aborted = false ∧
      s.attached = some t ∧ (d.phase = .integrating t ∧ s.isIntegrated t = false ∨
        ∃ e, d.phase = .executing t e none ∧ (e, j) ∈ s.pending) := by
    intro j hj
    have hd := List.getElem?_eq_getElem (ho.turn_lt j hj)
    obtain ⟨hab, t, ha, hw⟩ := ((ho.stands j _ hd).atTurn hj).waits_of_idle hr
    exact ⟨_, t, hd, hab, ha, hw⟩
  refine ⟨?_, ?_⟩
  · intro i c hc hover
    obtain ⟨j, hj⟩ := hbusy i c hc hover
    obtain ⟨d, t, hd, hab, ha, hw⟩ := hwaits j hj
    obtain ⟨l, hl, hmail, hopen⟩ := h.heard_all_of_idle hr ha
    refine ⟨j, d, t, l, hj, hd, hab, ha, hl, hmail, hopen, hw.imp_right ?_, ?_⟩
    · rintro ⟨e, hphase, hp⟩
      obtain ⟨command, hsent⟩ := h.exists_sent_of_executing ((s.phase?_eq_some_iff j).2 ⟨d, hd, hphase⟩)
      exact ⟨e, command, hphase, hp, hsent⟩
    · intro hij
      exact ((ho.stands i c hc).aside (by simpa [hj] using Ne.symm hij)).queued_of_idle hr hover
  · intro hnone i c hc hne
    have hnone : s.attached = none := hnone.elim h.sound.attached_of_absent id
    by_cases hover : c.phase.isOver = true
    · rcases c with ⟨command, phase, aborted⟩
      cases phase with
      | returned r => exact ⟨r, by simp [result?, phase?, hc]⟩
      | cancelled => exact absurd rfl hne
      | fresh | queued | attached | announcing | integrating | registered | refused | executing =>
          simp [Phase.isOver] at hover
    · obtain ⟨j, hj⟩ := hbusy i c hc (Bool.eq_false_iff.2 hover)
      obtain ⟨d, t, -, -, ha, -⟩ := hwaits j hj
      exact absurd (hnone.symm.trans ha) (by simp)

def queuedTest : Session Script :=
  let s : Session Script := { name := "helm", host := { integrates := true } }
  ((s.exec "make").exec "ctest").settle Script.host

theorem queuedTest_waits : queuedTest.runnable = [] ∧ queuedTest.phase? 1 = some .queued ∧
    ∃ e command, (e, 0) ∈ queuedTest.pending ∧ .sent 0 0 e command ∈ queuedTest.history := by
  have h : Reachable Script.host queuedTest :=
    (((Reachable.start ..).step (.exec "make")).step (.exec "ctest")).settle
  obtain ⟨j, d, t, l, hj, -, -, ha, -, -, -, hw, -⟩ :=
    (idle_waits_for_terminal h rfl).1 1 { command := "ctest", phase := .queued } rfl rfl
  obtain rfl : 0 = j := Option.some.inj hj
  obtain rfl : 0 = t := Option.some.inj ha
  rcases hw with ⟨-, hi⟩ | ⟨e, command, -, hp, hs⟩
  · exact absurd hi (by decide)
  · exact ⟨rfl, rfl, e, command, hp, hs⟩

end CMakeHelm.Session
