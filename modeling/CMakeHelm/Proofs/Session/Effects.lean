import CMakeHelm.Session

namespace CMakeHelm.Session

theorem map_modify {α β : Type} (φ : α → β) (f : α → α) (g : β → β) (h : ∀ a, φ (f a) = g (φ a)) (l : List α)
    (i : Nat) : (l.modify i f).map φ = (l.map φ).modify i g := by
  apply List.ext_getElem?
  intro j
  simp only [List.getElem?_map, List.getElem?_modify]
  cases l[j]? with
  | none => rfl
  | some a => by_cases hj : i = j <;> simp [hj, h]

variable {σ : Type} (s : Session σ) (i j t e : Nat)

def phases : List Phase := s.calls.map (·.phase)

theorem phases_getElem? : s.phases[i]? = s.phase? i := List.getElem?_map

theorem phases_setPhase (p : Phase) : (s.setPhase i p).phases = s.phases.modify i fun _ => p :=
  map_modify Call.phase ({ · with phase := p }) (fun _ => p) (fun _ => rfl) ..

theorem getElem?_setPhase (p : Phase) :
    (s.setPhase i p).calls[j]? = s.calls[j]?.map fun c => if i = j then { c with phase := p } else c :=
  List.getElem?_modify ..

theorem phase?_eq_some_iff {p : Phase} : s.phase? i = some p ↔ ∃ c, s.calls[i]? = some c ∧ c.phase = p := by
  simp [phase?]

theorem subset_wake (task : Task) : s.runnable ⊆ (s.wake task).runnable := by
  intro x hx
  simp only [wake]
  split
  · exact hx
  · exact List.mem_append_left _ hx

theorem mem_wake (task : Task) : task ∈ (s.wake task).runnable := by
  simp only [wake]
  split
  · assumption
  · simp

theorem foldl_wake_eq (tasks : List Task) :
    ∃ runnable, tasks.foldl wake s = { s with runnable } ∧ s.runnable ⊆ runnable ∧ tasks ⊆ runnable := by
  induction tasks generalizing s with
  | nil => exact ⟨s.runnable, rfl, fun _ h => h, by simp⟩
  | cons task tasks ih =>
      obtain ⟨runnable, he, hs, ht⟩ := ih (s.wake task)
      exact ⟨runnable, he, fun _ h => hs (s.subset_wake task h), List.cons_subset.2 ⟨hs (s.mem_wake task), ht⟩⟩

theorem wakeIntegrating_eq : ∃ runnable, s.wakeIntegrating t = { s with runnable } ∧ s.runnable ⊆ runnable ∧
    ∀ i, s.phase? i = some (.integrating t) → .call i ∈ runnable := by
  obtain ⟨runnable, he, hs, ht⟩ := s.foldl_wake_eq
    (((List.range s.calls.length).filter fun i => s.phase? i = some (.integrating t)).map Task.call)
  refine ⟨runnable, he, hs, ?_⟩
  intro i hi
  obtain ⟨c, hc, -⟩ := (s.phase?_eq_some_iff i).1 hi
  have hlt := (List.getElem?_eq_some_iff.1 hc).1
  exact ht (List.mem_map_of_mem (List.mem_filter.2 ⟨List.mem_range.2 hlt, by simpa using hi⟩))

theorem releaseTurn_eq : ∃ runnable, s.releaseTurn =
    { s with turn := s.waiting.head?, waiting := s.waiting.tail, runnable } ∧ s.runnable ⊆ runnable ∧
      ∀ i, s.waiting.head? = some i → .call i ∈ runnable := by
  cases hw : s.waiting with
  | nil => exact ⟨s.runnable, by simp [releaseTurn, hw], fun _ h => h, by simp⟩
  | cons i rest =>
      let next := { s with turn := some i, waiting := rest }
      refine ⟨(next.wake (.call i)).runnable, by simp [releaseTurn, hw, wake, next],
        next.subset_wake _, ?_⟩
      intro j hj
      cases hj
      exact next.mem_wake _

/-- A line without what is in its channel. -/
structure Status where
  dispatching : Bool
  integrated : Bool
  due : Bool

def Line.status (l : Line) : Status := ⟨l.dispatching, l.integrated, l.due⟩

def statuses : List Status := s.lines.map Line.status

theorem isDispatching_eq : s.isDispatching t = s.statuses[t]?.any (·.dispatching) := by
  simp [isDispatching, statuses, Line.status, Option.any_map]

theorem isIntegrated_eq : s.isIntegrated t = s.statuses[t]?.any (·.integrated) := by
  simp [isIntegrated, statuses, Line.status, Option.any_map]

theorem statuses_modifyLine (f : Line → Line) (g : Status → Status) (hf : ∀ l, (f l).status = g l.status) :
    (s.modifyLine t f).statuses = s.statuses.modify t g :=
  map_modify _ _ _ hf ..

theorem statuses_modifyLine_of_status (f : Line → Line) (hf : ∀ l, (f l).status = l.status) :
    (s.modifyLine t f).statuses = s.statuses := by
  rw [s.statuses_modifyLine t f id hf, List.modify_id]

theorem post_eq (events : List Event) : ∃ runnable lines, s.post t events = { s with runnable, lines } ∧
    s.runnable ⊆ runnable ∧ lines.map Line.status = s.statuses := by
  unfold post
  split
  · let posted := s.modifyLine t fun l => { l with mail := l.mail ++ events }
    exact ⟨(posted.wake (.dispatcher t)).runnable, posted.lines, rfl, posted.subset_wake _,
      s.statuses_modifyLine_of_status t _ fun _ => rfl⟩
  · exact ⟨s.runnable, s.lines, rfl, fun _ h => h, rfl⟩

def Phase.told (r : Outcome) (es : List Nat) : Phase → Phase
  | .registered t e none => .registered t e (if e ∈ es then some r else none)
  | .executing t e none => .executing t e (if e ∈ es then some r else none)
  | p => p

def Call.told (r : Outcome) (es : List Nat) (c : Call) : Call := { c with phase := c.phase.told r es }

theorem Phase.told_nil (r : Outcome) (p : Phase) : p.told r [] = p := by
  unfold told
  split <;> simp

theorem Call.told_nil (r : Outcome) (c : Call) : c.told r [] = c := by
  rw [told, Phase.told_nil]

theorem Phase.told_told (r : Outcome) (es fs : List Nat) (p : Phase) :
    (p.told r es).told r fs = p.told r (es ++ fs) := by
  cases p with
  | registered t e reply | executing t e reply =>
      cases reply with
      | none => by_cases h : e ∈ es <;> simp [told, h]
      | some _ => rfl
  | fresh | queued | attached | announcing | integrating | refused | returned | cancelled => rfl

theorem Phase.told_eq_self (r : Outcome) (es : List Nat) {p : Phase} (hr : ∀ t e, p = .registered t e none → e ∉ es)
    (he : ∀ t e, p = .executing t e none → e ∉ es) : p.told r es = p := by
  unfold told
  split
  · next t e => simp [hr t e rfl]
  · next t e => simp [he t e rfl]
  · rfl

theorem calls_setPhase_told {c : Call} {p : Phase} (r : Outcome) (hc : s.calls[i]? = some c)
    (hp : c.phase.told r [e] = p) : (s.setPhase i p).calls = s.calls.modify i (Call.told r [e]) := by
  apply List.ext_getElem?
  intro j
  rw [getElem?_setPhase, List.getElem?_modify]
  by_cases hj : i = j
  · subst hj
    simp [hc, Call.told, hp]
  · simp [hj]

theorem modify_told_eq_self (r : Outcome) (h : ∀ c, s.calls[i]? = some c → c.phase.told r [e] = c.phase) :
    s.calls.modify i (Call.told r [e]) = s.calls := by
  apply List.ext_getElem?
  intro j
  rw [List.getElem?_modify]
  by_cases hj : i = j
  · subst hj
    cases hc : s.calls[i]? with
    | none => rfl
    | some c => simp [Call.told, h c hc]
  · simp [hj]

theorem reply_eq (r : Outcome) : ∃ runnable, s.reply i e r =
    { s with calls := s.calls.modify i (Call.told r [e]), runnable } ∧ s.runnable ⊆ runnable ∧
      ∀ t, s.phase? i = some (.executing t e none) → .call i ∈ runnable := by
  unfold reply
  split
  · next t e' hp =>
    obtain ⟨c, hc, hcp⟩ := (s.phase?_eq_some_iff i).1 hp
    split
    · next he =>
      subst he
      refine ⟨s.runnable, ?_, fun _ h => h, by simp [hp]⟩
      rw [← s.calls_setPhase_told i e' r hc (p := .registered t e' (some r)) (by simp [Phase.told, hcp])]
      rfl
    · next he =>
      refine ⟨s.runnable, ?_, fun _ h => h, by simp [hp]⟩
      rw [s.modify_told_eq_self i e r]
      intro c' hc'
      obtain rfl : c = c' := Option.some.inj (hc.symm.trans hc')
      simp [Phase.told, hcp, he]
  · next t e' hp =>
    obtain ⟨c, hc, hcp⟩ := (s.phase?_eq_some_iff i).1 hp
    split
    · next he =>
      subst he
      let s' := s.setPhase i (.executing t e' (some r))
      refine ⟨(s'.wake (.call i)).runnable, ?_, s'.subset_wake _, fun _ _ => s'.mem_wake _⟩
      rw [← s.calls_setPhase_told i e' r hc (p := .executing t e' (some r)) (by simp [Phase.told, hcp])]
      rfl
    · next he =>
      refine ⟨s.runnable, ?_, fun _ h => h, fun u hu => absurd (hp.symm.trans hu) (by simp [he])⟩
      rw [s.modify_told_eq_self i e r]
      intro c' hc'
      obtain rfl : c = c' := Option.some.inj (hc.symm.trans hc')
      simp [Phase.told, hcp, he]
  · next hreg hexec =>
    refine ⟨s.runnable, ?_, fun _ h => h, fun t ht => absurd ht (hexec t e)⟩
    rw [s.modify_told_eq_self i e r]
    intro c hc
    apply Phase.told_eq_self
    · exact fun t e' hp => absurd ((s.phase?_eq_some_iff i).2 ⟨c, hc, hp⟩) (hreg t e')
    · exact fun t e' hp => absurd ((s.phase?_eq_some_iff i).2 ⟨c, hc, hp⟩) (hexec t e')

def executionsOf (lost : List (Nat × Nat)) (i : Nat) : List Nat := (lost.filter (·.2 = i)).map (·.1)

theorem mem_executionsOf {lost : List (Nat × Nat)} : e ∈ executionsOf lost i ↔ (e, i) ∈ lost := by
  simp [executionsOf]

def told (r : Outcome) (lost : List (Nat × Nat)) : List Call :=
  s.calls.mapIdx fun i c => c.told r (executionsOf lost i)

theorem getElem?_told (r : Outcome) (lost : List (Nat × Nat)) :
    (s.told r lost)[i]? = s.calls[i]?.map (Call.told r (executionsOf lost i)) :=
  List.getElem?_mapIdx

theorem phases_told (r : Outcome) (lost : List (Nat × Nat)) : (s.told r lost).map (·.phase) =
    s.phases.mapIdx fun i => Phase.told r (executionsOf lost i) := by
  refine (List.mapIdx_eq_iff.2 ?_).symm
  intro i
  rw [phases, List.getElem?_map, List.getElem?_map, getElem?_told]
  cases s.calls[i]? <;> rfl

theorem length_told (r : Outcome) (lost : List (Nat × Nat)) : (s.told r lost).length = s.calls.length :=
  List.length_mapIdx

theorem foldl_reply_eq (r : Outcome) (lost : List (Nat × Nat)) : ∃ runnable,
    lost.foldl (fun (s : Session σ) p => s.reply p.2 p.1 r) s = { s with calls := s.told r lost, runnable } ∧
      s.runnable ⊆ runnable ∧
        ∀ t e i, (e, i) ∈ lost → s.phase? i = some (.executing t e none) → .call i ∈ runnable := by
  induction lost generalizing s with
  | nil =>
      refine ⟨s.runnable, ?_, fun _ h => h, by simp⟩
      have hcalls : s.told r [] = s.calls := by
        apply List.ext_getElem?
        intro j
        rw [getElem?_told]
        cases s.calls[j]? with
        | none => rfl
        | some c => exact congrArg some (c.told_nil r)
      rw [List.foldl_nil, hcalls]
  | cons p lost ih =>
      obtain ⟨runnable₁, he₁, hs₁, hw₁⟩ := s.reply_eq p.2 p.1 r
      obtain ⟨runnable, he, hs, hw⟩ := ih (s.reply p.2 p.1 r)
      rw [List.foldl_cons]
      rw [he₁] at he hs hw ⊢
      refine ⟨runnable, he.trans ?_, fun _ h => hs (hs₁ h), ?_⟩
      · have hcalls : told { s with calls := s.calls.modify p.2 (Call.told r [p.1]), runnable := runnable₁ } r lost =
            s.told r (p :: lost) := by
          apply List.ext_getElem?
          intro j
          rw [getElem?_told, getElem?_told, List.getElem?_modify]
          cases s.calls[j]? with
          | none => rfl
          | some c =>
              by_cases hj : p.2 = j
              · simp [hj, Call.told, Phase.told_told, executionsOf]
              · simp [hj, executionsOf]
        rw [hcalls]
      · intro t e i hi hp
        by_cases hsame : p = (e, i)
        · subst hsame
          exact hs (hw₁ t hp)
        · refine hw t e i ((List.mem_cons.1 hi).resolve_left (Ne.symm hsame)) ?_
          obtain ⟨c, hc, hcp⟩ := (s.phase?_eq_some_iff i).1 hp
          refine (phase?_eq_some_iff ..).2 ⟨if p.2 = i then c.told r [p.1] else c, ?_, ?_⟩
          · show (s.calls.modify p.2 (Call.told r [p.1]))[i]? = _
            rw [List.getElem?_modify, hc]
            rfl
          · split
            · next hi =>
              have hne : e ≠ p.1 := fun he => hsame (Prod.ext he.symm hi)
              simp [Call.told, Phase.told, hcp, hne]
            · exact hcp

/-- Losing the attached terminal tells so to all that wait for it. -/
theorem detach_eq (ht : s.attached = some t) : ∃ runnable, s.detach t =
    { s with
      attached := none
      lifecycle := .absent
      pending := []
      lines := s.lines.modify t ({ · with dispatching := false })
      calls := s.told (.error .sessionLost) s.pending
      runnable } ∧ s.runnable ⊆ runnable ∧
    (∀ u e i, (e, i) ∈ s.pending → s.phase? i = some (.executing u e none) → .call i ∈ runnable) ∧
    ∀ i, s.phase? i = some (.integrating t) → .call i ∈ runnable := by
  let s₁ := { s.modifyLine t ({ · with dispatching := false }) with
    attached := none, lifecycle := .absent, pending := [] }
  obtain ⟨runnable₁, he₁, hs₁, hw⟩ := s₁.foldl_reply_eq (.error .sessionLost) s.pending
  let s₂ := { s₁ with calls := s₁.told (.error .sessionLost) s.pending, runnable := runnable₁ }
  obtain ⟨runnable, he, hs, hi⟩ := s₂.wakeIntegrating_eq t
  refine ⟨runnable, ?_, fun _ h => hs (hs₁ h), fun u e i hp h => hs (hw u e i hp h), ?_⟩
  · have hd : s.detach t = (s.pending.foldl (fun (s : Session σ) p => s.reply p.2 p.1 (.error .sessionLost))
        s₁).wakeIntegrating t := by
      simp only [detach, modifyLine, ht, if_true, s₁]
    rw [hd, he₁]
    exact he
  · intro i hp
    obtain ⟨c, hc, hcp⟩ := (s.phase?_eq_some_iff i).1 hp
    apply hi
    refine (phase?_eq_some_iff ..).2 ⟨_, (s.getElem?_told i _ _).trans (congrArg _ hc), ?_⟩
    simp [Call.told, Phase.told, hcp]

theorem mem_of_lookup_eq_some {l : List (Nat × Nat)} (h : l.lookup e = some i) : (e, i) ∈ l := by
  obtain ⟨l₁, l₂, rfl, -⟩ := List.lookup_eq_some_iff.1 h
  exact List.mem_append_right l₁ List.mem_cons_self

theorem not_mem_of_lookup_eq_none {l : List (Nat × Nat)} (h : l.lookup e = none) : (e, i) ∉ l := by
  intro hm
  simpa using List.lookup_eq_none_iff.1 h _ hm

inductive Heard : Event → Session σ → Prop
  | integrated (runnable : List Task) (hr : s.runnable ⊆ runnable)
      (hw : ∀ i, s.phase? i = some (.integrating t) → .call i ∈ runnable) :
      Heard .integrated { s.record (.heard t .integrated) with
        lines := s.lines.modify t ({ · with integrated := true, due := true })
        runnable }
  | stray (e : Nat) (code : Option Int) (hp : ∀ i, (e, i) ∉ s.pending) :
      Heard (.ended e code) (s.record (.heard t (.ended e code)))
  | subshell (e i : Nat) (hp : (e, i) ∈ s.pending) :
      Heard (.ended e none) { s.record (.heard t (.ended e none)) with lifecycle := .awaitingSubshellExit }
  | settled (e i : Nat) (code : Int) (runnable : List Task) (hp : (e, i) ∈ s.pending) (hr : s.runnable ⊆ runnable)
      (hw : ∀ u, s.phase? i = some (.executing u e none) → .call i ∈ runnable) :
      Heard (.ended e (some code)) { s.record (.heard t (.ended e (some code))) with
        calls := s.calls.modify i (Call.told (.ofCode code) [e])
        pending := s.pending.filter (·.1 ≠ e)
        lifecycle := .ready
        runnable }
  | closed : Heard .closed ((s.record (.heard t .closed)).detach t)

theorem heard_hear (event : Event) : s.Heard t event (s.hear t event) := by
  cases event with
  | integrated =>
      let s₁ := (s.record (.heard t .integrated)).modifyLine t ({ · with integrated := true, due := true })
      obtain ⟨runnable, he, hr, hw⟩ := s₁.wakeIntegrating_eq t
      rw [hear, handle, he]
      exact .integrated runnable hr hw
  | ended e code =>
      cases code with
      | none =>
          simp only [hear, handle]
          cases hl : (s.record (.heard t (.ended e none))).pending.lookup e with
          | none => exact .stray e none fun i => not_mem_of_lookup_eq_none i e hl
          | some i => exact .subshell e i (mem_of_lookup_eq_some i e hl)
      | some code =>
          simp only [hear, handle]
          cases hl : (s.record (.heard t (.ended e (some code)))).pending.lookup e with
          | none => exact .stray e _ fun i => not_mem_of_lookup_eq_none i e hl
          | some i =>
              obtain ⟨runnable, he, hr, hw⟩ := reply_eq
                { s.record (.heard t (.ended e (some code))) with
                  pending := s.pending.filter (·.1 ≠ e), lifecycle := .ready } i e (.ofCode code)
              have hs := Heard.settled (s := s) (t := t) e i code runnable (mem_of_lookup_eq_some i e hl) hr hw
              exact (congrArg (s.Heard t _) he).mpr hs
  | closed => exact .closed

def Line.Quiet (l : Line) : Prop := l.due = false ∧ l.mail = [] ∧ l.senderOpen = true

inductive Dispatched : Session σ → Prop
  | sleeps (hd : ∀ l, s.lines[t]? = some l → l.dispatching = true → l.Quiet) : Dispatched s
  | shown (l : Line) (hl : s.lines[t]? = some l) (hd : l.dispatching = true) (hdue : l.due = true) :
      Dispatched ((s.showIntegrated t).stay (.dispatcher t))
  | cutOff (l : Line) (hl : s.lines[t]? = some l) (hd : l.dispatching = true) (hdue : l.due = false)
      (hm : l.mail = []) (ho : l.senderOpen = false) : Dispatched (s.cutOff t)
  | heard (l : Line) (event : Event) (mail : List Event) (s' : Session σ) (hl : s.lines[t]? = some l)
      (hd : l.dispatching = true) (hdue : l.due = false) (hm : l.mail = event :: mail)
      (hh : (s.modifyLine t ({ · with mail })).Heard t event s') : Dispatched (s'.stay (.dispatcher t))

theorem dispatched_runDispatcher : s.Dispatched t (s.runDispatcher t) := by
  unfold runDispatcher
  cases hl : s.lines[t]? with
  | none => exact .sleeps (by simp [hl])
  | some l =>
      simp only
      split
      · next hd => exact .sleeps (by simp_all)
      · next hd =>
        have hd : l.dispatching = true := by simpa using hd
        split
        · next hdue => exact .shown l hl hd hdue
        · next hdue =>
          have hdue : l.due = false := by simpa using hdue
          split
          · next hm =>
            split
            · next ho => exact .sleeps (by simp [hl, Line.Quiet, hdue, hm, ho])
            · next ho => exact .cutOff l hl hd hdue hm (by simpa using ho)
          · next event mail hm => exact .heard l event mail _ hl hd hdue hm (heard_hear ..)

end CMakeHelm.Session
