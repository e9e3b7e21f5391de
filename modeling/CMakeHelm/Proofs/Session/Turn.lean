import CMakeHelm.Proofs.Session.Attachment

namespace CMakeHelm.Session

variable {σ : Type} {H : Host σ} {s s' : Session σ} {i : Nat}

def Aside (s : Session σ) (i : Nat) (c : Call) : Prop :=
  (c.aborted = true → c.phase.isOver = true ∨ .call i ∈ s.runnable) ∧
    match c.phase with
    | .fresh => .call i ∈ s.runnable ∧ i ∉ s.waiting
    | .queued => i ∈ s.waiting
    | .returned _ | .cancelled => i ∉ s.waiting
    | .attached _ | .announcing _ | .integrating _ | .registered .. | .refused .. | .executing .. => False

/-- What holds of the call that has the turn: it can run, or it waits for what the attached terminal
has yet to report. -/
def AtTurn (s : Session σ) (i : Nat) (c : Call) : Prop :=
  (c.aborted = true → .call i ∈ s.runnable) ∧
    match c.phase with
    | .queued | .attached _ | .announcing _ | .registered _ _ (some _) | .refused .. | .executing _ _ (some _) =>
      .call i ∈ s.runnable
    | .integrating t => .call i ∈ s.runnable ∨ s.attached = some t ∧ s.isIntegrated t = false
    | .registered t e none => .call i ∈ s.runnable ∧ s.attached = some t ∧ (e, i) ∈ s.pending
    | .executing t e none => s.attached = some t ∧ (e, i) ∈ s.pending
    | .fresh | .returned _ | .cancelled => False

structure Stands (s : Session σ) (i : Nat) (c : Call) : Prop where
  atTurn : s.turn = some i → AtTurn s i c
  aside : s.turn ≠ some i → Aside s i c

structure Queue (s : Session σ) : Prop where
  turn_lt : ∀ i, s.turn = some i → i < s.calls.length
  turn_notMem : ∀ i, s.turn = some i → i ∉ s.waiting
  waiting_lt : ∀ i ∈ s.waiting, i < s.calls.length
  waiting_nodup : s.waiting.Nodup
  free : s.turn = none → s.waiting = []

/-- All calls but one, which runs, stand where they should. -/
structure OrderlyBut (s : Session σ) (i : Nat) : Prop extends Queue s where
  others : ∀ j c, j ≠ i → s.calls[j]? = some c → Stands s j c

structure Orderly (s : Session σ) : Prop extends Queue s where
  stands : ∀ i c, s.calls[i]? = some c → Stands s i c

theorem OrderlyBut.orderly (h : OrderlyBut s i) (hi : ∀ c, s.calls[i]? = some c → Stands s i c) : Orderly s := by
  refine { h with stands := ?_ }
  intro j c hc
  by_cases hj : j = i
  · subst hj
    exact hi c hc
  · exact h.others j c hj hc

theorem Aside.mono {c : Call} (h : Aside s i c) (hw : i ∈ s'.waiting ↔ i ∈ s.waiting)
    (hr : .call i ∈ s.runnable → .call i ∈ s'.runnable) : Aside s' i c := by
  refine ⟨fun ha => (h.1 ha).imp_right hr, ?_⟩
  rcases c with ⟨command, phase, aborted⟩
  cases phase with
  | fresh => exact h.2.imp hr (mt hw.1)
  | queued => exact hw.2 h.2
  | returned | cancelled => exact mt hw.1 h.2
  | attached | announcing | integrating | registered | refused | executing => exact h.2

theorem AtTurn.mono {c : Call} (h : AtTurn s i c) (ha : s'.attached = s.attached) (hp : s'.pending = s.pending)
    (hi : ∀ t, s'.isIntegrated t = s.isIntegrated t) (hr : .call i ∈ s.runnable → .call i ∈ s'.runnable) :
    AtTurn s' i c := by
  refine ⟨fun hab => hr (h.1 hab), ?_⟩
  rcases c with ⟨command, phase, aborted⟩
  cases phase with
  | queued | attached | announcing | refused => exact hr h.2
  | integrating t => exact h.2.imp hr fun hw => ⟨ha.trans hw.1, (hi t).trans hw.2⟩
  | registered t e reply =>
      cases reply with
      | none => exact ⟨hr h.2.1, ha.trans h.2.2.1, hp ▸ h.2.2.2⟩
      | some r => exact hr h.2
  | executing t e reply =>
      cases reply with
      | none => exact ⟨ha.trans h.2.1, hp ▸ h.2.2⟩
      | some r => exact hr h.2
  | fresh | returned | cancelled => exact h.2

theorem Stands.mono {c : Call} (h : Stands s i c) (ht : s'.turn = s.turn) (hw : i ∈ s'.waiting ↔ i ∈ s.waiting)
    (ha : s'.attached = s.attached) (hp : s'.pending = s.pending)
    (hi : ∀ t, s'.isIntegrated t = s.isIntegrated t) (hr : .call i ∈ s.runnable → .call i ∈ s'.runnable) :
    Stands s' i c where
  atTurn hc := (h.atTurn (ht ▸ hc)).mono ha hp hi hr
  aside hc := (h.aside (ht ▸ hc)).mono hw hr

theorem AtTurn.stands {c : Call} (h : AtTurn s i c) (ht : s.turn = some i) : Stands s i c :=
  ⟨fun _ => h, fun hn => absurd ht hn⟩

theorem Aside.stands {c : Call} (h : Aside s i c) (ht : s.turn ≠ some i) : Stands s i c :=
  ⟨fun hi => absurd hi ht, fun _ => h⟩

theorem Aside.told {c : Call} (h : Aside s i c) (r : Outcome) (es : List Nat) : c.told r es = c := by
  rcases c with ⟨command, phase, aborted⟩
  cases phase with
  | registered | executing => exact h.2.elim
  | fresh | queued | attached | announcing | integrating | refused | returned | cancelled => rfl

theorem Queue.congr (h : Queue s) (s' : Session σ) (hc : s'.calls.length = s.calls.length) (ht : s'.turn = s.turn)
    (hw : s'.waiting = s.waiting) : Queue s' where
  turn_lt := by rw [hc, ht]; exact h.turn_lt
  turn_notMem := by rw [ht, hw]; exact h.turn_notMem
  waiting_lt := by rw [hc, hw]; exact h.waiting_lt
  waiting_nodup := by rw [hw]; exact h.waiting_nodup
  free := by rw [ht, hw]; exact h.free

theorem Orderly.congr (h : Orderly s) (hc : s'.calls = s.calls) (ht : s'.turn = s.turn)
    (hw : s'.waiting = s.waiting) (ha : s'.attached = s.attached) (hp : s'.pending = s.pending)
    (hi : ∀ t, s'.isIntegrated t = s.isIntegrated t)
    (hr : ∀ i, .call i ∈ s.runnable → .call i ∈ s'.runnable) : Orderly s' :=
  { h.toQueue.congr s' (congrArg List.length hc) ht hw with
    stands := fun i c hi' => (h.stands i c (hc ▸ hi')).mono ht (by rw [hw]) ha hp hi (hr i) }

theorem Orderly.post (h : Orderly s) (t : Nat) (events : List Event) : Orderly (s.post t events) := by
  obtain ⟨runnable, lines, he, hr, hl⟩ := s.post_eq t events
  rw [he]
  refine h.congr rfl rfl rfl rfl rfl ?_ fun _ hi => hr hi
  intro u
  rw [isIntegrated_eq, isIntegrated_eq, statuses, hl]

theorem OrderlyBut.congr (h : OrderlyBut s i) (hi : s.turn = some i) (hc : s'.calls = s.calls)
    (ht : s'.turn = s.turn) (hw : s'.waiting = s.waiting) (hr : s.runnable ⊆ s'.runnable) : OrderlyBut s' i :=
  { h.toQueue.congr s' (congrArg List.length hc) ht hw with
    others := fun j c hj hc' =>
      { atTurn := fun hj' => absurd (Option.some.inj (hi.symm.trans (ht ▸ hj'))) (Ne.symm hj)
        aside := fun hj' =>
          ((h.others j c hj (hc ▸ hc')).aside (ht ▸ hj')).mono (by rw [hw]) fun hj => hr hj } }

theorem OrderlyBut.setPhase (h : OrderlyBut s i) (p : Phase) : OrderlyBut (s.setPhase i p) i := by
  refine { h.toQueue.congr (s.setPhase i p) (List.length_modify ..) rfl rfl with others := ?_ }
  intro j c hj hc
  rw [getElem?_setPhase] at hc
  refine (h.others j c hj ?_).mono rfl .rfl rfl rfl (fun _ => rfl) id
  simpa [Ne.symm hj] using hc

theorem getElem?_setPhase_self {p : Phase} {c : Call} (hc : (s.setPhase i p).calls[i]? = some c) :
    ∃ c₀, s.calls[i]? = some c₀ ∧ c = { c₀ with phase := p } := by
  rw [getElem?_setPhase] at hc
  obtain ⟨c₀, hc₀, rfl⟩ := Option.map_eq_some_iff.1 hc
  exact ⟨c₀, hc₀, by simp⟩

theorem OrderlyBut.orderly_setPhase (h : OrderlyBut s i) (p : Phase)
    (hs : ∀ c, s.calls[i]? = some c → Stands (s.setPhase i p) i { c with phase := p }) :
    Orderly (s.setPhase i p) := by
  refine (h.setPhase p).orderly ?_
  intro c hc
  obtain ⟨c₀, hc₀, rfl⟩ := getElem?_setPhase_self hc
  exact hs c₀ hc₀

theorem OrderlyBut.releaseTurn (h : OrderlyBut s i) (hi : s.turn = some i)
    (hover : ∀ c, s.calls[i]? = some c → c.phase.isOver = true) : Orderly s.releaseTurn := by
  obtain ⟨runnable, he, hr, hw⟩ := s.releaseTurn_eq
  rw [he]
  have hmem : ∀ j, j ∈ s.waiting ↔ s.waiting.head? = some j ∨ j ∈ s.waiting.tail := by
    intro j
    cases s.waiting <;> simp [eq_comm]
  have hhead : ∀ j, s.waiting.head? = some j → j ∉ s.waiting.tail := by
    intro j hj
    have hn := h.waiting_nodup
    cases hw : s.waiting with
    | nil => simp [hw] at hj
    | cons k rest =>
        obtain rfl : k = j := by simpa [hw] using hj
        exact (List.nodup_cons.1 (hw ▸ hn)).1
  refine
    { turn_lt := fun j hj => h.waiting_lt j ((hmem j).2 (.inl hj)), turn_notMem := hhead
      waiting_lt := fun j hj => h.waiting_lt j ((hmem j).2 (.inr hj)), waiting_nodup := h.waiting_nodup.tail
      free := fun hf => by rw [List.head?_eq_none_iff.1 hf]; rfl, stands := ?_ }
  intro j c hc
  by_cases hj : j = i
  · subst hj
    have hnot := h.turn_notMem j hi
    have hover := hover c hc
    refine ⟨fun ht => absurd ((hmem j).2 (.inl ht)) hnot, fun _ => ⟨fun _ => .inl hover, ?_⟩⟩
    rcases c with ⟨command, phase, aborted⟩
    cases phase with
    | returned | cancelled => exact fun hm => hnot ((hmem j).2 (.inr hm))
    | fresh | queued | attached | announcing | integrating | registered | refused | executing =>
        simp [Phase.isOver] at hover
  · have ha := (h.others j c hj hc).aside (by rw [hi]; simpa using Ne.symm hj)
    refine ⟨fun ht => ⟨fun _ => hw j ht, ?_⟩, fun ht => ha.mono ?_ fun hj => hr hj⟩
    · have hmem := (hmem j).2 (.inl ht)
      rcases c with ⟨command, phase, aborted⟩
      cases phase with
      | queued => exact hw j ht
      | fresh => exact absurd hmem ha.2.2
      | returned | cancelled => exact absurd hmem ha.2
      | attached | announcing | integrating | registered | refused | executing => exact ha.2.elim
    · exact ⟨fun hm => (hmem j).2 (.inr hm), fun hm => ((hmem j).1 hm).resolve_left ht⟩

theorem OrderlyBut.finish (h : OrderlyBut s i) (hi : s.turn = some i) (r : Outcome) : Orderly (s.finish i r) := by
  have hrec : OrderlyBut (s.record (.returned i r)) i := h.congr hi rfl rfl rfl fun _ h => h
  refine (hrec.setPhase (.returned r)).releaseTurn hi ?_
  intro c hc
  obtain ⟨c₀, -, rfl⟩ := getElem?_setPhase_self hc
  rfl

theorem OrderlyBut.goOn (h : OrderlyBut s i) (hi : s.turn = some i) {p : Phase} (hp : p.terminal? ≠ none)
    (hw : ∀ t e, p = .registered t e none ∨ p = .executing t e none → s.attached = some t ∧ (e, i) ∈ s.pending) :
    Orderly (s.goOn i p) := by
  have hrun : .call i ∈ (s.goOn i p).runnable := List.mem_cons_self
  have h₁ : OrderlyBut (s.goOn i p) i := (h.setPhase p).congr hi rfl rfl rfl (List.subset_cons_self ..)
  refine h₁.orderly fun c hc => AtTurn.stands ⟨fun _ => hrun, ?_⟩ hi
  obtain ⟨c₀, -, rfl⟩ := getElem?_setPhase_self hc
  cases p with
  | attached | announcing | refused => exact hrun
  | integrating => exact .inl hrun
  | registered t e reply =>
      cases reply with
      | none => exact ⟨hrun, hw t e (.inl rfl)⟩
      | some r => exact hrun
  | executing t e reply =>
      cases reply with
      | none => exact hw t e (.inr rfl)
      | some r => exact hrun
  | fresh | queued | returned | cancelled => exact absurd rfl hp

theorem Begun.orderly (hb : Begun H s i s') (h : OrderlyBut s i) (hi : s.turn = some i) : Orderly s' := by
  cases hb with
  | present host t ha =>
      have h₁ : OrderlyBut { s with host } i := h.congr hi rfl rfl rfl fun _ h => h
      exact h₁.goOn hi (by simp [Phase.terminal?]) (by simp)
  | made host mail ha =>
      have h₁ : OrderlyBut (s.attach H i host mail) i := h.congr hi rfl rfl rfl (subset_wake ..)
      exact h₁.goOn hi (by simp [Phase.terminal?]) (by simp)
  | unmade host cause ha =>
      exact OrderlyBut.finish (s := { s with host }) (h.congr hi rfl rfl rfl fun _ h => h) hi _

theorem Orderly.erase (h : Orderly s) (i : Nat) :
    OrderlyBut { s with runnable := s.runnable.erase (.call i) } i :=
  { h.toQueue.congr { s with runnable := s.runnable.erase (.call i) } rfl rfl rfl with
    others := fun j c hj hc => (h.stands j c hc).mono rfl .rfl rfl rfl (fun _ => rfl) fun hr =>
      (List.mem_erase_of_ne (by simpa using hj)).2 hr }

theorem OrderlyBut.record (h : OrderlyBut s i) (x : Happening) : OrderlyBut (s.record x) i :=
  { h.toQueue.congr (s.record x) rfl rfl rfl with
    others := fun j c hj hc => (h.others j c hj hc).mono rfl .rfl rfl rfl (fun _ => rfl) id }

theorem Stands.of_over {c : Call} (h : Stands s i c) (hover : c.phase.isOver = true) (runnable : List Task) :
    Stands { s with runnable } i c := by
  rcases c with ⟨command, phase, aborted⟩
  cases phase with
  | returned | cancelled =>
      exact ⟨fun ht => (h.atTurn ht).2.elim, fun ht => ⟨fun _ => .inl rfl, (h.aside ht).2⟩⟩
  | fresh | queued | attached | announcing | integrating | registered | refused | executing =>
      simp [Phase.isOver] at hover

theorem OrderlyBut.cancel (h : OrderlyBut s i) (phase : Phase) : Orderly (s.cancel i phase) := by
  unfold Session.cancel
  have h₁ := (h.record (.dropped i phase)).setPhase .cancelled
  have hphase : ∀ c, ((s.record (.dropped i phase)).setPhase i .cancelled).calls[i]? = some c →
      c.phase = .cancelled := by
    intro c hc
    obtain ⟨c₀, -, rfl⟩ := getElem?_setPhase_self hc
    rfl
  simp only
  split
  · next hi => exact h₁.releaseTurn hi fun c hc => by rw [hphase c hc]; rfl
  · next hi =>
    have hmem : ∀ j, j ∈ s.waiting.erase i ↔ j ≠ i ∧ j ∈ s.waiting := fun j => h.waiting_nodup.mem_erase_iff
    refine
      { turn_lt := h₁.turn_lt, turn_notMem := fun j hj => mt (fun hm => ((hmem j).1 hm).2) (h.turn_notMem j hj)
        waiting_lt := fun j hj => h₁.waiting_lt j ((hmem j).1 hj).2, waiting_nodup := h.waiting_nodup.erase i
        free := fun hf => by rw [h₁.free hf]; rfl, stands := ?_ }
    intro j c hc
    by_cases hj : j = i
    · subst hj
      rcases c with ⟨command, p, aborted⟩
      obtain rfl : p = .cancelled := hphase _ hc
      exact Aside.stands ⟨fun _ => .inl rfl, fun hm => ((hmem j).1 hm).1 rfl⟩ hi
    · refine (h₁.others j c hj hc).mono rfl ?_ rfl rfl (fun _ => rfl) id
      exact (hmem j).trans (and_iff_right hj)

theorem OrderlyBut.take (h : OrderlyBut s i) (hf : s.turn = none) (hi : i < s.calls.length) :
    OrderlyBut { s with turn := some i } i := by
  have hw := h.free hf
  refine
    { turn_lt := fun j hj => Option.some.inj hj ▸ hi, turn_notMem := by simp [hw], waiting_lt := by simp [hw]
      waiting_nodup := h.waiting_nodup, free := by simp, others := ?_ }
  intro j c hj hc
  refine ⟨fun ht => absurd (Option.some.inj ht) (Ne.symm hj), fun _ => ?_⟩
  exact ((h.others j c hj hc).aside (by simp [hf])).mono .rfl id

theorem OrderlyBut.queue (h : OrderlyBut s i) (hf : s.turn ≠ none) (ht : s.turn ≠ some i) (hi : i < s.calls.length)
    (hw : i ∉ s.waiting) (hab : ∀ c, s.calls[i]? = some c → c.aborted = false) :
    Orderly ({ s with waiting := s.waiting ++ [i] }.setPhase i .queued) := by
  have h₁ : OrderlyBut { s with waiting := s.waiting ++ [i] } i := by
    refine
      { turn_lt := h.turn_lt, turn_notMem := ?_, waiting_lt := ?_, waiting_nodup := ?_
        free := fun hf' => absurd hf' hf, others := ?_ }
    · intro j hj hm
      rcases List.mem_append.1 hm with hm | hm
      · exact h.turn_notMem j hj hm
      · exact ht (List.mem_singleton.1 hm ▸ hj)
    · intro j hm
      rcases List.mem_append.1 hm with hm | hm
      · exact h.waiting_lt j hm
      · exact List.mem_singleton.1 hm ▸ hi
    · exact List.nodup_append.2 ⟨h.waiting_nodup, List.nodup_singleton i, by
        intro a ha b hb he
        exact hw (List.mem_singleton.1 hb ▸ he ▸ ha)⟩
    · intro j c hj hc
      refine (h.others j c hj hc).mono rfl ?_ rfl rfl (fun _ => rfl) id
      simp [hj]
  refine h₁.orderly_setPhase .queued fun c hc => Aside.stands ⟨?_, ?_⟩ ht
  · exact fun haborted => absurd haborted (by simp [hab c hc])
  · exact List.mem_append_right _ List.mem_cons_self

theorem Stands.sleeps {c : Call} (h : Stands s i c) (hd : ∀ t, s.isDispatching t = true → s.attached = some t)
    (hab : c.aborted = true → c.phase.waits = false) (hs : c.Sleeps s i) (runnable : List Task) :
    Stands { s with runnable } i c := by
  rcases c with ⟨command, phase, aborted⟩
  have hnot (hw : phase.waits = true) : aborted ≠ true := fun ha => absurd (hw.symm.trans (hab ha)) (by simp)
  cases phase with
  | queued =>
      have ht : s.turn ≠ some i := hs
      exact Aside.stands ⟨fun ha => absurd ha (hnot rfl), (h.aside ht).2⟩ ht
  | integrating t =>
      have ht : s.turn = some i := by
        by_contra ht
        exact (h.aside ht).2
      have hs : s.isIntegrated t = false ∧ s.isDispatching t = true := hs
      exact AtTurn.stands ⟨fun ha => absurd ha (hnot rfl), .inr ⟨hd t hs.2, hs.1⟩⟩ ht
  | executing t e reply =>
      have ht : s.turn = some i := by
        by_contra ht
        exact (h.aside ht).2
      cases reply with
      | none => exact AtTurn.stands ⟨fun ha => absurd ha (hnot rfl), (h.atTurn ht).2⟩ ht
      | some r => exact hs.elim
  | returned | cancelled => exact h.of_over rfl _
  | fresh | attached | announcing | registered | refused => exact hs.elim

theorem Section.orderly (hsec : Section H { s with runnable := s.runnable.erase (.call i) } i s') (h : Orderly s)
    (hd : ∀ t, s.isDispatching t = true → s.attached = some t) : Orderly s' := by
  have hbut := h.erase i
  -- Calls without the turn have no terminal, so a section in a phase with one is that of the call with the turn.
  have hturn {c : Call} (hc : s.calls[i]? = some c) (hp : c.phase.terminal? ≠ none) : s.turn = some i := by
    by_contra ht
    have haside := ((h.stands i c hc).aside ht).2
    rcases c with ⟨command, phase, aborted⟩
    cases phase with
    | attached | announcing | integrating | registered | refused | executing => exact haside
    | fresh | queued | returned | cancelled => exact hp rfl
  have hexpects {c : Call} {t e : Nat} (hc : s.calls[i]? = some c) (hp : c.phase = .registered t e none) :
      s.attached = some t ∧ (e, i) ∈ s.pending := by
    have hat := ((h.stands i c hc).atTurn (hturn hc (by simp [hp, Phase.terminal?]))).2
    simp only [hp] at hat
    exact hat.2
  cases hsec with
  | sleeps hc =>
      exact hbut.orderly fun c hc' => (h.stands i c hc').sleeps hd (hc c hc').1 (hc c hc').2 _
  | dropped c hc hw => exact hbut.cancel _
  | queued c hc hp hab ht =>
      rcases c with ⟨command, phase, aborted⟩
      obtain rfl : phase = .fresh := hp
      have hs := h.stands i _ hc
      have hnot : s.turn ≠ some i := fun hi => (hs.atTurn hi).2
      refine (hbut.record (.asked i)).queue ht hnot (List.getElem?_eq_some_iff.1 hc).1 (hs.aside hnot).2.2 ?_
      intro c' hc'
      obtain rfl := Option.some.inj (hc.symm.trans hc')
      exact hab
  | started c hc hp ht hb =>
      exact hb.orderly ((hbut.record (.asked i)).take ht (List.getElem?_eq_some_iff.1 hc).1) rfl
  | resumed c hc hp ht hb => exact hb.orderly hbut ht
  | looked c t hc hp hi =>
      exact hbut.goOn (hturn hc (by simp [hp, Phase.terminal?])) (by simp [Phase.terminal?]) (by simp)
  | announced c t hc hp =>
      have ht := hturn hc (by simp [hp, Phase.terminal?])
      have h₁ : OrderlyBut ({ s with
        runnable := s.runnable.erase (.call i), lifecycle := .awaitingIntegration }.record (.announced i t)) i :=
        hbut.congr ht rfl rfl rfl fun _ h => h
      exact h₁.goOn ht (by simp [Phase.terminal?]) (by simp)
  | registered c t hc hp hi ha =>
      have ht := hturn hc (by rcases hp with hp | hp <;> simp [hp, Phase.terminal?])
      have h₁ : OrderlyBut ({ s with
        runnable := s.runnable.erase (.call i)
        nextExecution := s.nextExecution + 1
        pending := s.pending ++ [(s.nextExecution, i)]
        lifecycle := .executing }.record (.registered i t s.nextExecution)) i :=
        hbut.congr ht rfl rfl rfl fun _ h => h
      refine h₁.goOn ht (by simp [Phase.terminal?]) ?_
      intro u e hue
      obtain ⟨rfl, rfl⟩ : t = u ∧ s.nextExecution = e := by simpa using hue
      exact ⟨ha, List.mem_append_right _ List.mem_cons_self⟩
  | lost c t next hc hp hn =>
      have ht := hturn hc (by rcases hp with hp | hp <;> simp [hp, Phase.terminal?])
      have h₁ : OrderlyBut { s with runnable := s.runnable.erase (.call i), nextExecution := next } i :=
        hbut.congr ht rfl rfl rfl fun _ h => h
      exact h₁.finish ht _
  | sent c t e reply host events hc hp =>
      have ht := hturn hc (by simp [hp, Phase.terminal?])
      have h₁ : OrderlyBut ({ s with runnable := s.runnable.erase (.call i), host }.record
        (.sent i t e c.command)) i := hbut.congr ht rfl rfl rfl fun _ h => h
      refine (h₁.goOn ht (by simp [Phase.terminal?]) ?_).post t events
      intro u e' hue
      obtain ⟨rfl, rfl, rfl⟩ : t = u ∧ e = e' ∧ reply = none := by simpa using hue
      exact hexpects hc hp
  | refused c t e reply host events cause hc hp =>
      have ht := hturn hc (by simp [hp, Phase.terminal?])
      have h₁ : OrderlyBut ({ s with runnable := s.runnable.erase (.call i), host }.record
        (.refused i t e c.command)) i := hbut.congr ht rfl rfl rfl fun _ h => h
      exact (h₁.goOn ht (by simp [Phase.terminal?]) (by simp)).post t events
  | takenBack c t e cause hc hp =>
      have ht := hturn hc (by simp [hp, Phase.terminal?])
      have h₁ : OrderlyBut { s with
        runnable := s.runnable.erase (.call i)
        pending := s.pending.filter (·.1 ≠ e)
        lifecycle := if s.attached = some t then .ready else s.lifecycle } i :=
        hbut.congr ht rfl rfl rfl fun _ h => h
      exact h₁.finish ht _
  | replied c t e r hc hp => exact hbut.finish (hturn hc (by simp [hp, Phase.terminal?])) r

theorem Orderly.record (h : Orderly s) (x : Happening) : Orderly (s.record x) :=
  h.congr rfl rfl rfl rfl rfl (fun _ => rfl) fun _ hi => hi

theorem Orderly.integrated (h : Orderly s) {t : Nat} (ha : s.attached = some t) {runnable : List Task}
    (hr : s.runnable ⊆ runnable) (hw : ∀ i, s.phase? i = some (.integrating t) → .call i ∈ runnable) :
    Orderly { s with lines := s.lines.modify t ({ · with integrated := true, due := true }), runnable } := by
  refine { h.toQueue.congr { s with runnable } rfl rfl rfl with stands := ?_ }
  intro i c hc
  have hs := h.stands i c hc
  refine ⟨fun hi => ?_, fun hi => (hs.aside hi).mono .rfl fun hi => hr hi⟩
  have hat := hs.atTurn hi
  refine ⟨fun hab => hr (hat.1 hab), ?_⟩
  rcases c with ⟨command, phase, aborted⟩
  cases phase with
  | queued | attached | announcing | refused => exact hr hat.2
  | integrating u =>
      refine .inl (hat.2.elim (fun hi => hr hi) fun hu => hw i ?_)
      obtain rfl : t = u := Option.some.inj (ha.symm.trans hu.1)
      exact (phase?_eq_some_iff ..).2 ⟨_, hc, rfl⟩
  | registered u e reply =>
      cases reply with
      | none => exact ⟨hr hat.2.1, hat.2.2⟩
      | some r => exact hr hat.2
  | executing u e reply =>
      cases reply with
      | none => exact hat.2
      | some r => exact hr hat.2
  | fresh | returned | cancelled => exact hat.2

theorem AtTurn.told {c : Call} (h : AtTurn s i c) (r : Outcome) (es : List Nat)
    (hr : .call i ∈ s.runnable → .call i ∈ s'.runnable)
    (hi : ∀ t, c.phase = .integrating t → s.attached = some t → s.isIntegrated t = false →
      .call i ∈ s'.runnable ∨ s'.attached = some t ∧ s'.isIntegrated t = false)
    (hw : ∀ t e, c.phase = .executing t e none → (e, i) ∈ s.pending → e ∈ es → .call i ∈ s'.runnable)
    (hk : ∀ t e, s.attached = some t → (e, i) ∈ s.pending → e ∉ es → s'.attached = some t ∧ (e, i) ∈ s'.pending) :
    AtTurn s' i (c.told r es) := by
  refine ⟨fun hab => hr (h.1 hab), ?_⟩
  rcases c with ⟨command, phase, aborted⟩
  cases phase with
  | queued | attached | announcing | refused => exact hr h.2
  | integrating t => exact h.2.elim (fun hi => .inl (hr hi)) fun hw => hi t rfl hw.1 hw.2
  | registered t e reply =>
      cases reply with
      | none =>
          by_cases hes : e ∈ es
          · simpa [Call.told, Phase.told, hes] using hr h.2.1
          · simpa [Call.told, Phase.told, hes] using And.intro (hr h.2.1) (hk t e h.2.2.1 h.2.2.2 hes)
      | some r => exact hr h.2
  | executing t e reply =>
      cases reply with
      | none =>
          by_cases hes : e ∈ es
          · simpa [Call.told, Phase.told, hes] using hw t e rfl h.2.2 hes
          · simpa [Call.told, Phase.told, hes] using hk t e h.2.1 h.2.2 hes
      | some r => exact hr h.2
  | fresh | returned | cancelled => exact h.2

theorem Orderly.settled (h : Orderly s) (hn : (s.pending.map (·.1)).Nodup) {e : Nat} (hp : (e, i) ∈ s.pending)
    (r : Outcome) (l : Lifecycle) {runnable : List Task} (hr : s.runnable ⊆ runnable)
    (hw : ∀ u, s.phase? i = some (.executing u e none) → .call i ∈ runnable) : Orderly { s with
      calls := s.calls.modify i (Call.told r [e])
      pending := s.pending.filter (·.1 ≠ e)
      lifecycle := l
      runnable } := by
  refine { h.toQueue.congr { s with calls := s.calls.modify i (Call.told r [e]) }
    (List.length_modify ..) rfl rfl with stands := ?_ }
  intro j c hc
  obtain ⟨c₀, hc₀, rfl⟩ := Option.map_eq_some_iff.1 ((List.getElem?_modify ..).symm.trans hc)
  have hs := h.stands j c₀ hc₀
  have hkeep : ∀ e', (e', j) ∈ s.pending → e' ≠ e → (e', j) ∈ s.pending.filter (·.1 ≠ e) :=
    fun e' hp' hne => List.mem_filter.2 ⟨hp', by simpa using hne⟩
  refine ⟨fun hj => ?_, fun hj => ?_⟩
  · have hat := hs.atTurn hj
    by_cases hij : i = j
    · subst hij
      rw [if_pos rfl]
      refine hat.told r [e] (fun hi => hr hi) (fun t _ ha hi => .inr ⟨ha, hi⟩) ?_ ?_
      · intro t e' hphase _ he'
        obtain rfl := List.mem_singleton.1 he'
        exact hw t ((phase?_eq_some_iff ..).2 ⟨c₀, hc₀, hphase⟩)
      · exact fun t e' ha hp' he' => ⟨ha, hkeep e' hp' (by simpa using he')⟩
    · rw [if_neg hij, ← c₀.told_nil r]
      refine hat.told r [] (fun hi => hr hi) (fun t _ ha hi => .inr ⟨ha, hi⟩) (by simp) ?_
      intro t e' ha hp' _
      refine ⟨ha, hkeep e' hp' ?_⟩
      rintro rfl
      have hpair := List.inj_on_of_nodup_map hn hp hp' rfl
      exact hij (congrArg Prod.snd hpair)
  · have haside := hs.aside hj
    have hsame : (if i = j then c₀.told r [e] else c₀) = c₀ := by
      split
      · exact haside.told r [e]
      · rfl
    rw [hsame]
    exact haside.mono .rfl fun hj => hr hj

theorem Orderly.detach (h : Orderly s) {t : Nat} (ha : s.attached = some t) : Orderly (s.detach t) := by
  obtain ⟨runnable, he, hr, hexec, hint⟩ := s.detach_eq t ha
  rw [he]
  refine { h.toQueue.congr { s with calls := s.told (.error .sessionLost) s.pending }
    (s.length_told ..) rfl rfl with stands := ?_ }
  intro j c hc
  obtain ⟨c₀, hc₀, rfl⟩ := Option.map_eq_some_iff.1 ((s.getElem?_told ..).symm.trans hc)
  have hs := h.stands j c₀ hc₀
  refine ⟨fun hj => ?_, fun hj => ?_⟩
  · refine (hs.atTurn hj).told _ _ (fun hi => hr hi) ?_ ?_ ?_
    · intro u hphase hu _
      obtain rfl : t = u := Option.some.inj (ha.symm.trans hu)
      exact .inl (hint j ((phase?_eq_some_iff ..).2 ⟨c₀, hc₀, hphase⟩))
    · exact fun u e hphase hp _ => hexec u e j hp ((phase?_eq_some_iff ..).2 ⟨c₀, hc₀, hphase⟩)
    · exact fun u e hu hp hes => absurd ((mem_executionsOf ..).2 hp) hes
  · have haside := hs.aside hj
    rw [haside.told]
    exact haside.mono .rfl fun hj => hr hj

theorem Heard.orderly {t : Nat} {event : Event} (hh : s.Heard t event s') (h : Orderly s) (hm : s.shared.Sound)
    (ha : s.attached = some t) : Orderly s' := by
  have hrec := h.record (.heard t event)
  cases hh with
  | integrated runnable hr hw => exact hrec.integrated ha hr hw
  | stray e code hp => exact hrec
  | subshell e i hp => exact hrec.congr rfl rfl rfl rfl rfl (fun _ => rfl) fun _ hi => hi
  | settled e i code runnable hp hr hw => exact hrec.settled hm.pending_nodup hp _ _ hr hw
  | closed => exact hrec.detach ha

theorem Orderly.modifyLine (h : Orderly s) (t : Nat) (f : Line → Line) (hf : ∀ l, (f l).integrated = l.integrated) :
    Orderly (s.modifyLine t f) := by
  refine h.congr rfl rfl rfl rfl rfl ?_ fun _ hi => hi
  intro u
  simp only [isIntegrated, Session.modifyLine, List.getElem?_modify]
  cases s.lines[u]? with
  | none => rfl
  | some l => by_cases hu : t = u <;> simp [hu, hf]

theorem Orderly.stay (h : Orderly s) (task : Task) : Orderly (s.stay task) :=
  h.congr rfl rfl rfl rfl rfl (fun _ => rfl) fun _ hi => List.mem_cons_of_mem _ hi

theorem Orderly.showIntegrated (h : Orderly s) (t : Nat) : Orderly (s.showIntegrated t) :=
  ((h.record (.shown t)).modifyLine t ({ · with due := false }) fun _ => rfl).congr rfl rfl rfl rfl rfl
    (fun _ => rfl) fun _ hi => hi

theorem Dispatched.orderly {t : Nat} (hd : s.Dispatched t s') (h : Orderly s) (hm : s.shared.Sound) : Orderly s' := by
  cases hd with
  | sleeps hd => exact h
  | shown l hl hd hdue => exact (h.showIntegrated t).stay _
  | cutOff l hl hd hdue hmail ho =>
      have ha := attached_of_line hm hl hd
      exact (h.record (.cutOff t)).detach ha
  | heard l event mail s' hl hd hdue hmail hh =>
      have ha := attached_of_line hm hl hd
      have hline := h.modifyLine t ({ · with mail }) fun _ => rfl
      refine (hh.orderly hline ?_ ha).stay _
      rw [shared_modifyMail]
      exact hm

theorem Orderly.runDispatcher (h : Orderly s) (hm : s.shared.Sound) (t : Nat) :
    Orderly ({ s with runnable := s.runnable.erase (.dispatcher t) }.runDispatcher t) := by
  have h₁ : Orderly { s with runnable := s.runnable.erase (.dispatcher t) } := by
    refine h.congr rfl rfl rfl rfl rfl (fun _ => rfl) ?_
    intro i hi
    exact (List.mem_erase_of_ne (by simp)).2 hi
  exact (dispatched_runDispatcher ..).orderly h₁ hm

theorem Orderly.wake (h : Orderly s) (task : Task) : Orderly (s.wake task) :=
  h.congr rfl rfl rfl rfl rfl (fun _ => rfl) fun _ hi => s.subset_wake task hi

theorem Orderly.exec (h : Orderly s) (command : String) : Orderly (s.exec command) := by
  have hlt : ∀ i < s.calls.length, i < (s.calls ++ [({ command := command } : Call)]).length := by
    intro i hi
    rw [List.length_append]
    exact Nat.lt_add_right _ hi
  refine
    { turn_lt := fun i hi => hlt i (h.turn_lt i hi), turn_notMem := h.turn_notMem
      waiting_lt := fun i hi => hlt i (h.waiting_lt i hi), waiting_nodup := h.waiting_nodup, free := h.free
      stands := ?_ }
  intro i c hc
  have hc' : (s.calls ++ [({ command := command } : Call)])[i]? = some c := hc
  by_cases hi : i < s.calls.length
  · rw [List.getElem?_append_left hi] at hc'
    exact (h.stands i c hc').mono rfl .rfl rfl rfl (fun _ => rfl) fun hr => subset_wake _ _ hr
  · obtain rfl : i = s.calls.length := by
      have hle := (List.getElem?_eq_some_iff.1 hc').1
      rw [List.length_append, List.length_singleton] at hle
      omega
    obtain rfl : c = { command := command } := by simpa using hc'.symm
    refine Aside.stands ⟨by simp, mem_wake .., ?_⟩ ?_
    · exact fun hw => absurd (h.waiting_lt _ hw) (Nat.lt_irrefl _)
    · exact fun ht => absurd (h.turn_lt _ ht) (Nat.lt_irrefl _)

theorem Orderly.abort (h : Orderly s) (i : Nat) : Orderly (s.abort i) := by
  have hset : Orderly ({ s with calls := s.calls.modify i ({ · with aborted := true }) }.wake (.call i)) := by
    refine { h.toQueue.congr { s with calls := s.calls.modify i ({ · with aborted := true }) }
      (List.length_modify ..) rfl rfl with stands := ?_ }
    intro j c hc
    obtain ⟨c₀, hc₀, rfl⟩ := Option.map_eq_some_iff.1 ((List.getElem?_modify ..).symm.trans hc)
    have hs := (h.wake (.call i)).stands j c₀ hc₀
    by_cases hij : i = j
    · subst hij
      rw [if_pos rfl]
      have hawake : .call i ∈ (s.wake (.call i)).runnable := s.mem_wake _
      exact ⟨fun ht => ⟨fun _ => hawake, (hs.atTurn ht).2⟩, fun ht => ⟨fun _ => .inr hawake, (hs.aside ht).2⟩⟩
    · rw [if_neg hij]
      exact hs.mono rfl .rfl rfl rfl (fun _ => rfl) id
  unfold Session.abort
  split
  · exact h
  · exact h
  · exact h
  · exact hset

theorem Orderly.hangUp (h : Orderly s) (t : Nat) : Orderly (s.hangUp t) := by
  unfold Session.hangUp
  split
  · exact (h.modifyLine t ({ · with senderOpen := false }) fun _ => rfl).wake _
  · exact h

theorem Orderly.hasTurn (h : Orderly s) : HasTurn s := by
  intro i p hp hterminal
  by_contra ht
  obtain ⟨c, hc, rfl⟩ := (phase?_eq_some_iff ..).1 hp
  have haside := ((h.stands i c hc).aside ht).2
  rcases c with ⟨command, phase, aborted⟩
  cases phase with
  | attached | announcing | integrating | registered | refused | executing => exact haside
  | fresh | queued | returned | cancelled => exact hterminal rfl

theorem Step.orderly (hs : Step H s s') (hm : s.shared.Sound) (h : Orderly s) : Orderly s' := by
  cases hs with
  | exec command => exact h.exec command
  | abort i => exact h.abort i
  | post t events => exact h.post t events
  | hangUp t => exact h.hangUp t
  | host host => exact h.congr rfl rfl rfl rfl rfl (fun _ => rfl) fun _ hi => hi
  | run task hr =>
      cases task with
      | call i => exact (section_runCall ..).orderly h fun t => attached_of_dispatching hm
      | dispatcher t => exact h.runDispatcher hm t

theorem orderly_start (name : String) (host : σ) : Orderly ({ name, host } : Session σ) where
  turn_lt := by simp
  turn_notMem := by simp
  waiting_lt := by simp
  waiting_nodup := .nil
  free := fun _ => rfl
  stands := by simp

theorem Reachable.sound_orderly (h : Reachable H s) : s.shared.Sound ∧ Orderly s := by
  induction h with
  | start name host => exact ⟨sound_start name host, orderly_start name host⟩
  | step _ hs ih => exact ⟨ih.1.moves (hs.moves ih.1 ih.2.hasTurn), hs.orderly ih.1 ih.2⟩

theorem Reachable.sound (h : Reachable H s) : s.shared.Sound := h.sound_orderly.1

theorem Reachable.orderly (h : Reachable H s) : Orderly s := h.sound_orderly.2

end CMakeHelm.Session
