import CMakeHelm.Proofs.Session.Order

namespace CMakeHelm.Session

open Shared (Move Moves)

variable {σ : Type} {H : Host σ} {s s' : Session σ} {i j t e : Nat} {r : Outcome} {x : Happening}
  {between : List Happening} {pending : List (Nat × Nat)}

/-- What was pending on terminal `t` and none of this has decided. -/
def undecided (t : Nat) (between : List Happening) (pending : List (Nat × Nat)) : List (Nat × Nat) :=
  pending.filter fun p => !between.any (·.decides t p.1)

theorem undecided_nil (t : Nat) : undecided t [] pending = pending := by simp [undecided]

theorem undecided_concat : undecided t (between ++ [x]) pending =
    (undecided t between pending).filter fun p => !x.decides t p.1 := by
  rw [undecided, undecided, List.filter_filter]
  apply List.filter_congr
  intro p _
  cases h : x.decides t p.1 <;> simp [h]

theorem undecided_concat_of_not (h : ∀ p ∈ undecided t between pending, x.decides t p.1 = false) :
    undecided t (between ++ [x]) pending = undecided t between pending := by
  rw [undecided_concat, List.filter_eq_self]
  intro p hp
  simp [h p hp]

namespace Shared

variable {m m' : Shared} {before : List Happening} {old : List (Nat × Nat)}

theorem Tells.returned {phases : List Phase} (h : Tells m.phases phases) (hi : phases[i]? = some (.returned r)) :
    m.phases[i]? = some (.returned r) := by
  obtain ⟨q, r', es, hq, he⟩ := h.exists_old hi
  cases q with
  | registered u f reply | executing u f reply => cases reply <;> simp [Phase.told] at he
  | fresh | queued | attached | announcing | integrating | refused | returned | cancelled =>
      rw [hq, he]
      rfl

theorem Move.returned (hm : Move m m') (hi : m'.phases[i]? = some (.returned r)) :
    m.phases[i]? = some (.returned r) ∨ .returned i r ∈ m'.history := by
  have hset {n : Shared} {j : Nat} {q : Phase} (hq : q ≠ .returned r)
      (hi : (n.setPhase j q).phases[i]? = some (.returned r)) : n.phases[i]? = some (.returned r) :=
    getElem?_of_setPhase hq hi
  have hover {n : Shared} {j : Nat} {r' : Outcome} (hmem : .returned j r' ∈ m'.history)
      (hi : (n.setPhase j (.returned r')).phases[i]? = some (.returned r)) :
      n.phases[i]? = some (.returned r) ∨ .returned i r ∈ m'.history := by
    by_cases hj : j = i
    · subst hj
      rw [setPhase, List.getElem?_modify_eq] at hi
      obtain ⟨-, -, he⟩ := Option.map_eq_some_iff.1 hi
      exact .inr (Phase.returned.inj he ▸ hmem)
    · exact .inl ((getElem?_setPhase_ne hj _).symm.trans hi)
  cases hm with
  | note | make | skip | integrate | shown | subshell | stray => exact .inl hi
  | call =>
      left
      by_cases hlt : i < m.phases.length
      · exact (List.getElem?_append_left hlt).symm.trans hi
      · rw [List.getElem?_append_right (Nat.le_of_not_lt hlt)] at hi
        exact absurd (List.mem_singleton.1 (List.mem_of_getElem? hi)) (by simp)
  | queue | attach | look => exact .inl (hset (by simp) hi)
  | announce j u => exact .inl (hset (n := m.record (.announced j u)) (by simp) hi)
  | register j u => exact .inl (hset (n := m.record (.registered j u m.nextExecution)) (by simp) hi)
  | send j u f reply command => exact .inl (hset (n := m.record (.sent j u f command)) (by simp) hi)
  | refuse j u f reply command => exact .inl (hset (n := m.record (.refused j u f command)) (by simp) hi)
  | drop j p => exact .inl (hset (n := m.record (.dropped j p)) (by simp) hi)
  | takeBack j u f cause =>
      exact hover (n := m.record (.returned j (.error (.send cause)))) (List.mem_append_right _ List.mem_cons_self) hi
  | finish j p r' => exact hover (n := m.record (.returned j r')) (List.mem_append_right _ List.mem_cons_self) hi
  | settle => exact .inl (Tells.returned (tells_modify _ _ _ _) hi)
  | leave => exact .inl (Tells.returned (tells_mapIdx _ _ _) hi)

/-- Since call `i` registered execution `e` for terminal `t`, nothing but the events of that terminal has changed what
is attached and what is pending. -/
def Holds (m : Shared) (before : List Happening) (old : List (Nat × Nat)) (i t e : Nat) : Prop :=
  ∃ between, m.history = before ++ .registered i t e :: between ∧
    m.pending = undecided t between (old ++ [(e, i)]) ∧
      (m.attached = some t ∧ ¬ Gone between t ∨ m.attached = none ∧ m.lifecycle = .absent ∧ Gone between t)

theorem Holds.congr (h : m.Holds before old i t e) (hh : m'.history = m.history) (hp : m'.pending = m.pending)
    (ha : m'.attached = m.attached) (hl : m.attached = none → m'.lifecycle = m.lifecycle) :
    m'.Holds before old i t e := by
  obtain ⟨between, hb, hpend, hat⟩ := h
  refine ⟨between, hh.trans hb, hp.trans hpend, ?_⟩
  rw [ha]
  exact hat.imp_right fun ⟨hn, habs, hg⟩ => ⟨hn, (hl hn).trans habs, hg⟩

theorem Holds.record (h : m.Holds before old i t e) (hx : ∀ p ∈ m.pending, x.decides t p.1 = false)
    (hg : x ≠ .heard t .closed ∧ x ≠ .cutOff t) : (m.record x).Holds before old i t e := by
  obtain ⟨between, hb, hpend, hat⟩ := h
  have hgone : Gone (between ++ [x]) t ↔ Gone between t := by
    simp [Gone, Ne.symm hg.1, Ne.symm hg.2]
  refine ⟨between ++ [x], by simp [Shared.record, hb], ?_, ?_⟩
  · rw [undecided_concat_of_not (hpend ▸ hx)]
    exact hpend
  · rw [hgone]
    exact hat

theorem Holds.decide (h : m.Holds before old i t e) (hh : m'.history = m.history ++ [x])
    (hp : m'.pending = m.pending.filter fun p => !x.decides t p.1)
    (ha : m'.attached = some t ∧ ¬ Gone [x] t ∧ m.attached = some t ∨
      m'.attached = none ∧ m'.lifecycle = .absent ∧ Gone [x] t) : m'.Holds before old i t e := by
  obtain ⟨between, hb, hpend, hat⟩ := h
  have hgone : Gone (between ++ [x]) t ↔ Gone between t ∨ Gone [x] t := by
    simp only [Gone, List.mem_append]
    tauto
  refine ⟨between ++ [x], by simp [hh, hb], by rw [hp, hpend, undecided_concat], ?_⟩
  rw [hgone]
  rcases ha with ⟨ha, hx, hold⟩ | ⟨ha, hl, hx⟩
  · have hnot := hat.resolve_right fun hn => absurd (hold.symm.trans hn.1) (by simp)
    exact .inl ⟨ha, not_or.2 ⟨hnot.2, hx⟩⟩
  · exact .inr ⟨ha, hl, .inr hx⟩

theorem Holds.move (h : m.Holds before old i t e) (hs : m.Sound) {p q : Phase} (hp : m.phases[i]? = some p)
    (he : p.execution? = some (t, e)) (hm : Move m m') (hq : m'.phases[i]? = some q) (hover : q.isOver = false) :
    m'.Holds before old i t e := by
  have hterminal : p.terminal? = some t := Phase.terminal?_of_execution? he
  -- Only this call has a terminal, and it has registered its execution.
  have honly {j : Nat} {q : Phase} (hj : m.phases[j]? = some q) (hne : q.terminal? ≠ none) : j = i ∧ q = p := by
    have hij : j = i := by
      by_contra hij
      exact hne (hs.solo i p hp (by simp [hterminal]) j q hij hj)
    subst hij
    exact ⟨rfl, Option.some.inj (hj.symm.trans hp)⟩
  cases hm with
  | note x hx =>
      refine h.record ?_ ?_
      · cases x with
        | asked => simp [Happening.decides]
        | heard u event => cases event with
          | ended f code => cases code <;> simp [Happening.isRemark, Happening.decides] at hx ⊢
          | integrated | closed => simp [Happening.isRemark] at hx
        | opened | announced | registered | sent | refused | shown | cutOff | returned | dropped =>
            simp [Happening.isRemark] at hx
      · constructor <;> rintro rfl <;> simp [Happening.isRemark] at hx
  | call | queue | attach | look | skip => exact h.congr rfl rfl rfl fun _ => rfl
  | make j ha hn => exact absurd (hterminal.symm.trans (hn i p hp)) (by simp)
  | announce j u hj =>
      obtain ⟨-, rfl⟩ := honly hj (by simp [Phase.terminal?])
      simp [Phase.execution?] at he
  | register j u x hj hx =>
      obtain ⟨-, rfl⟩ := honly hj (by rcases hx with rfl | rfl <;> simp [Phase.terminal?])
      rcases hx with rfl | rfl <;> simp [Phase.execution?] at he
  | send j u f reply command =>
      exact (h.record (x := .sent j u f command) (by simp [Happening.decides]) (by simp)).congr rfl rfl rfl fun _ => rfl
  | refuse j u f reply command =>
      exact (h.record (x := .refused j u f command) (by simp [Happening.decides]) (by simp)).congr rfl rfl rfl
        fun _ => rfl
  | takeBack j u f cause hj =>
      obtain ⟨rfl, -⟩ := honly hj (by simp [Phase.terminal?])
      have hr := getElem?_setPhase_eq (m := m.record (.returned j (.error (.send cause)))) hj
        (.returned (.error (.send cause)))
      obtain rfl := Option.some.inj (hr.symm.trans hq)
      simp [Phase.isOver] at hover
  | finish j x r =>
      exact (h.record (x := .returned j r) (by simp [Happening.decides]) (by simp)).congr rfl rfl rfl fun _ => rfl
  | drop j x =>
      exact (h.record (x := .dropped j x) (by simp [Happening.decides]) (by simp)).congr rfl rfl rfl fun _ => rfl
  | integrate u ha =>
      exact (h.record (x := .heard u .integrated) (by simp [Happening.decides]) (by simp)).congr rfl rfl rfl
        fun _ => rfl
  | shown u ha hi =>
      exact (h.record (x := .shown u) (by simp [Happening.decides]) (by simp)).congr rfl rfl rfl fun hn =>
        absurd (ha.symm.trans hn) (by simp)
  | subshell u f j hj =>
      refine (h.record (x := .heard u (.ended f none)) (by simp [Happening.decides]) (by simp)).congr rfl rfl rfl
        fun hn => ?_
      exact absurd (hs.pending_eq_nil hn) (List.ne_nil_of_mem hj)
  | stray u f code hf =>
      refine h.record ?_ (by simp)
      rintro ⟨g, k⟩ hg
      have hne : f ≠ g := fun heq => hf k (heq ▸ hg)
      simp [Happening.decides, hne]
  | settle u f j code ha hj =>
      rcases hs.attached_or_gone hp hterminal with hat | ⟨hat, -⟩
      · obtain rfl : t = u := Option.some.inj (hat.symm.trans ha)
        refine h.decide rfl ?_ (.inl ⟨ha, by simp [Gone], ha⟩)
        apply List.filter_congr
        intro p _
        simp [Happening.decides, eq_comm]
      · exact absurd (hat.symm.trans ha) (by simp)
  | leave u x ha hx =>
      rcases hs.attached_or_gone hp hterminal with hat | ⟨hat, -⟩
      · obtain rfl : t = u := Option.some.inj (hat.symm.trans ha)
        have hd : ∀ f, x.decides t f = true := fun f => Happening.decides_iff.2 (.inr hx)
        refine h.decide rfl (by simp [hd]) (.inr ⟨rfl, rfl, ?_⟩)
        rcases hx with rfl | rfl <;> simp [Gone]
      · exact absurd (hat.symm.trans ha) (by simp)

theorem Holds.moves (h : m.Holds before old i t e) (hs : m.Sound) {p q : Phase} (hp : m.phases[i]? = some p)
    (he : p.execution? = some (t, e)) (hm : Moves m m') (hq : m'.phases[i]? = some q) (hover : q.isOver = false) :
    m'.Holds before old i t e := by
  -- On the end of the run: the call is not over after it, hence not before its last move either.
  induction hm generalizing q with
  | refl => exact h
  | @tail n n' hms hm ih =>
      obtain ⟨x, hx, hbecome⟩ := Moves.canBecome hms i p hp
      obtain ⟨q', hq', hlast⟩ := hm.canBecome i x hx
      obtain rfl := Option.some.inj (hq'.symm.trans hq)
      have hlive : x.isOver = false := by
        rw [Bool.eq_false_iff]
        intro ho
        rw [hlast.stays ho] at hover
        exact absurd (ho.symm.trans hover) (by simp)
      have hexec := (hbecome.keeps (Phase.isEarly_of_execution? he)).resolve_left (by simp [hlive])
      exact (ih hx hlive).move (hs.moves hms) hx (hexec.trans he) hm hq hover

end Shared

theorem Reachable.exists_step_of_mem (h : Reachable H s) (hx : x ∈ s.history) :
    ∃ u v, Reachable H u ∧ Step H u v ∧ Steps H v s ∧ x ∉ u.history ∧ x ∈ v.history := by
  induction h with
  | start => exact absurd hx List.not_mem_nil
  | @step u v h hs ih =>
      by_cases hu : x ∈ u.history
      · obtain ⟨a, b, ha, hab, hb, hn, hm⟩ := ih hu
        exact ⟨a, b, ha, hab, hb.tail hs, hn, hm⟩
      · exact ⟨u, v, h, hs, .refl, hu, hx⟩

theorem Reachable.returned_mem (h : Reachable H s) (hr : s.result? i = some r) : .returned i r ∈ s.history := by
  have hmoves {m m' : Shared} (hm : Moves m m') (hold : ∀ i r, m.phases[i]? = some (.returned r) → .returned i r ∈ m.history)
      (i : Nat) (r : Outcome) (hi : m'.phases[i]? = some (.returned r)) : .returned i r ∈ m'.history := by
    induction hm generalizing i r with
    | refl => exact hold i r hi
    | tail _ hm ih => exact (hm.returned hi).elim (fun hi => hm.history_grows.subset (ih i r hi)) id
  have hall : ∀ i r, s.shared.phases[i]? = some (.returned r) → .returned i r ∈ s.history := by
    clear hr
    induction h with
    | start => simp [shared, phases]
    | step h hs ih => exact hmoves (hs.moves h.sound h.orderly.hasTurn) ih
  exact hall i r ((s.phases_getElem? i).trans (result?_eq_some_iff.1 hr))

/-- What others can see of a session, apart from the turn and the history, is as before. -/
structure Untouched (i : Nat) (s s' : Session σ) : Prop where
  lifecycle_eq : s'.lifecycle = s.lifecycle
  attached_eq : s'.attached = s.attached
  pending_eq : s'.pending = s.pending
  nextExecution_eq : s'.nextExecution = s.nextExecution
  lines_eq : s'.lines = s.lines
  others : ∀ j, j ≠ i → s'.calls[j]? = s.calls[j]?

theorem untouched_finish (i : Nat) (r : Outcome) : Untouched i s (s.finish i r) := by
  obtain ⟨runnable, he, -⟩ := ((s.record (.returned i r)).setPhase i (.returned r)).releaseTurn_eq
  rw [finish, he]
  exact ⟨rfl, rfl, rfl, rfl, rfl, fun j hj => List.getElem?_modify_ne _ _ (Ne.symm hj)⟩

inductive Returned (s : Session σ) (i : Nat) (s' : Session σ) : Outcome → Prop
  | unmade (cause : List String) (p : Phase) (hp : s.phase? i = some p) (he : p.isEarly = true)
      (ha : s.attached = none) (hs : Untouched i s s') : Returned s i s' (.error (.start cause))
  | lost : Returned s i s' (.error .sessionLost)
  | takenBack (t e : Nat) (cause : List String) (hp : s.phase? i = some (.refused t e cause))
      (hs : Untouched i
        { s with
          pending := s.pending.filter (·.1 ≠ e)
          lifecycle := if s.attached = some t then .ready else s.lifecycle } s')
      (hh : s'.history = s.history ++ [.returned i (.error (.send cause))]) : Returned s i s' (.error (.send cause))
  | replied (t e : Nat) (r : Outcome) (hp : s.phase? i = some (.executing t e (some r))) : Returned s i s' r

theorem eq_of_returned_mem {history : List Happening} {r' : Outcome} (hx : .returned i r ∈ history ++ [.returned j r'])
    (hn : .returned i r ∉ history) : i = j ∧ r = r' := by
  simpa using List.mem_singleton.1 ((List.mem_append.1 hx).resolve_left hn)

theorem Begun.returned (hb : Begun H s j s') (hn : .returned i r ∉ s.history) (hx : .returned i r ∈ s'.history) :
    i = j ∧ ∃ cause, r = .error (.start cause) ∧ s.attached = none ∧ Untouched j s s' := by
  cases hb with
  | present => exact absurd hx hn
  | made host mail =>
      have hx : .returned i r ∈ s.history ++ [.opened j s.lines.length] := hx
      exact absurd hx (by simp [hn])
  | unmade host cause ha =>
      rw [history_finish] at hx
      obtain ⟨rfl, rfl⟩ := eq_of_returned_mem hx hn
      exact ⟨rfl, cause, rfl, ha, { untouched_finish (s := { s with host }) i _ with }⟩

theorem Section.returned (hsec : Section H s j s') (hn : .returned i r ∉ s.history)
    (hx : .returned i r ∈ s'.history) : i = j ∧ Returned s i s' r := by
  have hphase {c : Call} {p : Phase} (hc : s.calls[j]? = some c) (hp : c.phase = p) : s.phase? j = some p :=
    (s.phase?_eq_some_iff j).2 ⟨c, hc, hp⟩
  have hother {x : Happening} (hne : ∀ k q, x ≠ .returned k q) (hx : .returned i r ∈ s.history ++ [x]) : False :=
    hne i r (List.mem_singleton.1 ((List.mem_append.1 hx).resolve_left hn)).symm
  cases hsec with
  | sleeps | looked => exact absurd hx hn
  | dropped c => exact (hother (by simp) (history_cancel (s := s) j c.phase ▸ hx)).elim
  | queued => exact (hother (x := .asked j) (by simp) hx).elim
  | announced c t => exact (hother (x := .announced j t) (by simp) hx).elim
  | registered c t => exact (hother (x := .registered j t s.nextExecution) (by simp) hx).elim
  | started c hc hp ht hb =>
      have hn : .returned i r ∉ s.history ++ [.asked j] := by simp [hn]
      obtain ⟨rfl, cause, rfl, ha, hs⟩ := hb.returned hn hx
      exact ⟨rfl, .unmade cause .fresh (hphase hc hp) rfl ha { hs with }⟩
  | resumed c hc hp ht hb =>
      obtain ⟨rfl, cause, rfl, ha, hs⟩ := hb.returned hn hx
      exact ⟨rfl, .unmade cause .queued (hphase hc hp) rfl ha hs⟩
  | lost =>
      rw [history_finish] at hx
      obtain ⟨rfl, rfl⟩ := eq_of_returned_mem hx hn
      exact ⟨rfl, .lost⟩
  | sent c t e reply host events =>
      rw [history_post] at hx
      exact (hother (x := .sent j t e c.command) (by simp) hx).elim
  | refused c t e reply host events =>
      rw [history_post] at hx
      exact (hother (x := .refused j t e c.command) (by simp) hx).elim
  | takenBack c t e cause hc hp =>
      rw [takeBack, history_finish] at hx
      obtain ⟨rfl, rfl⟩ := eq_of_returned_mem hx hn
      exact ⟨rfl, .takenBack t e cause (hphase hc hp) (untouched_finish ..) (history_finish ..)⟩
  | replied c t e r' hc hp =>
      rw [history_finish] at hx
      obtain ⟨rfl, rfl⟩ := eq_of_returned_mem hx hn
      exact ⟨rfl, .replied t e r (hphase hc hp)⟩

theorem Dispatched.returned (hd : s.Dispatched t s') (hs : s.shared.Sound) (hx : .returned i r ∈ s'.history) :
    .returned i r ∈ s.history := by
  rcases hd.callQueue_eq hs with he | ⟨x, -, hend, -, he⟩
  · have hh : s'.history = s.history := congrArg CallQueue.history he
    exact hh ▸ hx
  · have hh : s'.history = s.history ++ [x] := congrArg CallQueue.history he
    rw [hh, List.mem_append] at hx
    refine hx.resolve_right fun hx => ?_
    rw [← List.mem_singleton.1 hx] at hend
    simp [Happening.ender?] at hend

theorem Step.returned (hs : Step H s s') (h : Reachable H s) (hn : .returned i r ∉ s.history)
    (hx : .returned i r ∈ s'.history) : .call i ∈ s.runnable ∧ s' = s.proceed H (.call i) ∧ Returned s i s' r := by
  have hsame (hh : s'.history = s.history) : False := hn (hh ▸ hx)
  cases hs with
  | exec | host => exact absurd hx hn
  | abort j => exact (hsame (congrArg Shared.history (shared_abort j))).elim
  | post t events => exact (hsame (congrArg Shared.history (shared_post t events))).elim
  | hangUp t => exact (hsame (congrArg Shared.history (shared_hangUp t))).elim
  | run task hr =>
      cases task with
      | call j =>
          have hsec := section_runCall (H := H) { s with runnable := s.runnable.erase (.call j) } j
          obtain ⟨rfl, hret⟩ := hsec.returned hn hx
          refine ⟨hr, rfl, ?_⟩
          cases hret with
          | unmade cause p hp he ha hs => exact .unmade cause p hp he ha { hs with }
          | lost => exact .lost
          | takenBack t e cause hp hs hh => exact .takenBack t e cause hp { hs with } hh
          | replied t e r hp => exact .replied t e r hp
      | dispatcher t =>
          have hd := dispatched_runDispatcher { s with runnable := s.runnable.erase (.dispatcher t) } t
          exact absurd (hd.returned h.sound hx) hn

/-- A call that could not send its command has left things as the events of its terminal made them since it registered
its execution. If none of them decided that or another execution, all is as it was. -/
structure GaveUp (i t e : Nat) (between : List Happening) (s s' : Session σ) : Prop where
  was_attached : s.attached = some t
  number_eq : e = s.nextExecution
  history_eq : s'.history = s.history ++ .registered i t e :: between
  attached : ¬ Gone between t → s'.attached = some t ∧ s'.lifecycle = .ready
  detached : Gone between t → s'.attached = none ∧ s'.lifecycle = .absent
  pending_eq : s'.pending = undecided t between s.pending

theorem GaveUp.pending_eq_self (h : GaveUp i t e between s s')
    (hn : ∀ p ∈ s.pending, ∀ x ∈ between, x.decides t p.1 = false) : s'.pending = s.pending := by
  rw [h.pending_eq, undecided, List.filter_eq_self]
  intro p hp
  simpa using hn p hp

theorem Step.registered (hs : Step H s s') (h : Reachable H s) (hn : .registered i t e ∉ s.history)
    (hx : .registered i t e ∈ s'.history) : s.attached = some t ∧ e = s.nextExecution ∧
      s'.shared.phases[i]? = some (.registered t e none) ∧ s'.shared.Holds s.history s.pending i t e := by
  have hother {x : Happening} (hne : x ≠ .registered i t e) : .registered i t e ∉ s.history ++ [x] := by
    simp [hn, Ne.symm hne]
  rcases hs.addsAside_or_move h.sound with ⟨more, he, hmore⟩ | hm
  · have hm := hmore (.registered i t e) ((List.mem_append.1 (he ▸ hx)).resolve_left hn)
    simp [Happening.isAside] at hm
  · have hx : .registered i t e ∈ s'.shared.history := hx
    generalize hm' : s'.shared = m' at hm hx
    cases hm with
    | register j u p hp he ha hi =>
        obtain ⟨rfl, rfl, rfl⟩ : i = j ∧ t = u ∧ e = s.shared.nextExecution := by
          simpa using List.mem_singleton.1 ((List.mem_append.1 hx).resolve_left hn)
        have ha : s.attached = some t := ha
        refine ⟨ha, rfl, Shared.getElem?_setPhase_eq (m := s.shared.record _) hp _, [], rfl, ?_, .inl ⟨ha, ?_⟩⟩
        · exact (undecided_nil t).symm
        · simp [Gone]
    | call | queue | attach | look | skip => exact absurd hx hn
    | note x hx' => exact absurd hx (hother (by rintro rfl; simp [Happening.isRemark] at hx'))
    | leave u x ha hx' => exact absurd hx (hother (by rcases hx' with rfl | rfl <;> simp))
    | make | announce | send | refuse | takeBack | finish | drop | integrate | shown | subshell | stray | settle =>
        exact absurd hx (hother (by simp))

theorem Reachable.gaveUp (h : Reachable H s) {cause : List String} (hp : s.phase? i = some (.refused t e cause))
    (hs : Untouched i
      { s with
        pending := s.pending.filter (·.1 ≠ e)
        lifecycle := if s.attached = some t then .ready else s.lifecycle } s')
    (hh : s'.history = s.history ++ [.returned i (.error (.send cause))]) :
    ∃ s₀ between, Reachable H s₀ ∧ Steps H s₀ s ∧ GaveUp i t e between s₀ s' := by
  have hp' := (s.phases_getElem? i).trans hp
  -- `a` is the session right before the call registered its execution, and `b` the one right after.
  obtain ⟨a, b, ha, hab, hbs, hn, hreg⟩ := h.exists_step_of_mem (h.sound.taken i _ t e hp' rfl).2
  obtain ⟨hat, rfl, hphase, hholds⟩ := hab.registered ha hn hreg
  have hb := ha.step hab
  obtain ⟨between, hbetween, hpend, hattached⟩ := hholds.moves hb.sound hphase rfl (hbs.moves hb) hp' rfl
  let x : Happening := .returned i (.error (.send cause))
  have hnone : Gone (between ++ [x]) t ↔ Gone between t := by simp [Gone, x]
  have hold : ∀ p ∈ a.pending, p.1 ≠ a.nextExecution :=
    fun p hp => Nat.ne_of_lt (ha.sound.lt_next_of_mem_pending hp)
  refine ⟨a, between ++ [x], ha, .head hab hbs,
    { was_attached := hat, number_eq := rfl, history_eq := ?_, attached := ?_, detached := ?_, pending_eq := ?_ }⟩
  · have hbetween : s.history = a.history ++ .registered i t a.nextExecution :: between := hbetween
    simp [hh, hbetween, x]
  · intro hg
    have hat' : s.attached = some t := (hattached.resolve_right fun hn => hg (hnone.2 hn.2.2)).1
    exact ⟨hs.attached_eq.trans hat', hs.lifecycle_eq.trans (if_pos hat')⟩
  · intro hg
    obtain ⟨hat', habs, -⟩ := hattached.resolve_left fun hn => hn.2 (hnone.1 hg)
    have hat' : s.attached = none := hat'
    exact ⟨hs.attached_eq.trans hat', hs.lifecycle_eq.trans ((if_neg (by simp [hat'])).trans habs)⟩
  · have hpend : s.pending = undecided t between (a.pending ++ [(a.nextExecution, i)]) := hpend
    rw [hs.pending_eq, undecided_concat_of_not fun _ _ => rfl]
    have hkeep : (a.pending ++ [(a.nextExecution, i)]).filter (·.1 ≠ a.nextExecution) = a.pending := by
      rw [List.filter_append, List.filter_eq_self.2 fun p hp => by simpa using hold p hp]
      simp
    show s.pending.filter (·.1 ≠ a.nextExecution) = _
    rw [hpend, undecided, List.filter_comm, hkeep]
    rfl

/-- Call `i` has taken `e` as the number of its execution, whether or not it could register it. -/
def Took (H : Host σ) (i e : Nat) (s : Session σ) : Prop :=
  ∃ s₀, Reachable H s₀ ∧ .call i ∈ s₀.runnable ∧ s₀.nextExecution = e ∧
    (s₀.proceed H (.call i)).nextExecution = e + 1 ∧ Steps H (s₀.proceed H (.call i)) s

theorem Steps.took (hs : Steps H s s') (h : Took H i e s) : Took H i e s' := by
  obtain ⟨s₀, h₀, hrun, hfrom, hto, hsteps⟩ := h
  exact ⟨s₀, h₀, hrun, hfrom, hto, hsteps.trans hs⟩

theorem Section.took (hsec : Section H s i s') (hn : s'.nextExecution ≠ s.nextExecution) :
    (∃ t, .registered i t s.nextExecution ∈ s'.history) ∨
      s'.result? i = some (.error .sessionLost) ∧ s'.pending = s.pending := by
  have hfinish (s : Session σ) (r : Outcome) : (s.finish i r).nextExecution = s.nextExecution :=
    (untouched_finish i r).nextExecution_eq
  have hpost (s : Session σ) (t : Nat) (events : List Event) : (s.post t events).nextExecution = s.nextExecution :=
    congrArg Shared.nextExecution (shared_post t events)
  have hbegun {s s' : Session σ} (hb : Begun H s i s') : s'.nextExecution = s.nextExecution := by
    cases hb with
    | present | made => rfl
    | unmade => exact hfinish ..
  cases hsec with
  | sleeps | queued | looked | announced => exact absurd rfl hn
  | dropped c => exact absurd (congrArg Shared.nextExecution (shared_cancel i c.phase)) hn
  | started c hc hp ht hb => exact absurd (hbegun hb) hn
  | resumed c hc hp ht hb => exact absurd (hbegun hb) hn
  | registered c t => exact .inl ⟨t, List.mem_append_right _ List.mem_cons_self⟩
  | lost c t next hc =>
      exact .inr ⟨(finish_returns (s := { s with nextExecution := next }) _ hc).1, (untouched_finish ..).pending_eq⟩
  | sent | refused => exact absurd (hpost ..) hn
  | takenBack => exact absurd (hfinish ..) hn
  | replied => exact absurd (hfinish ..) hn

theorem Took.cases (h : Took H i e s) : (∃ t, .registered i t e ∈ s.history) ∨
    s.result? i = some (.error .sessionLost) ∧ ∀ j, (e, j) ∉ s.pending := by
  obtain ⟨u, hu, hrun, rfl, hto, hsteps⟩ := h
  have hv : Reachable H (u.proceed H (.call i)) := hu.step (.run _ hrun)
  have hne : (u.proceed H (.call i)).nextExecution ≠ u.nextExecution := by omega
  have hsec := section_runCall (H := H) { u with runnable := u.runnable.erase (.call i) } i
  refine (hsec.took hne).imp ?_ ?_
  · rintro ⟨t, hreg⟩
    exact ⟨t, (hsteps.history_grows hv).subset hreg⟩
  · rintro ⟨hr, hpend⟩
    refine ⟨hsteps.result? hv hr, fun j hj => ?_⟩
    have hlt : u.nextExecution < (u.proceed H (.call i)).nextExecution := by omega
    have hold := ((hsteps.moves hv).pending_of_lt hlt).2 hj
    have hpend : (u.proceed H (.call i)).shared.pending = u.pending := hpend
    rw [hpend] at hold
    exact absurd (hu.sound.lt_next_of_mem_pending hold) (Nat.lt_irrefl _)

theorem hear_of_not_pending (hp : ∀ j, (e, j) ∉ s.pending) (t : Nat) (code : Option Int) :
    s.hear t (.ended e code) = s.record (.heard t (.ended e code)) := by
  have hh := s.heard_hear t (.ended e code)
  generalize s.hear t (.ended e code) = u at hh
  cases hh with
  | stray => rfl
  | subshell _ j hj => exact absurd hj (hp j)
  | settled _ j code _ hj => exact absurd hj (hp j)

theorem Reachable.not_mem_pending (h : Reachable H s) (hr : s.result? i = some r) : (e, i) ∉ s.pending := by
  rw [result?_eq_some_iff] at hr
  intro hmem
  rcases h.execution_of_pending hmem with hp | ⟨p, t, hp, he⟩
  · exact absurd (hr.symm.trans hp) (by simp)
  · obtain rfl := Option.some.inj (hr.symm.trans hp)
    simp [Phase.execution?] at he

theorem Reachable.not_mem_pending_of_registered (h : Reachable H s) (hr : s.result? i = some r)
    (hreg : .registered i t e ∈ s.history) (j : Nat) : (e, j) ∉ s.pending := by
  intro hmem
  obtain ⟨u, -, hreg'⟩ := h.sound.registered_of_pending e j hmem
  obtain ⟨rfl, -⟩ := h.sound.numbered.unique hreg hreg'
  exact h.not_mem_pending hr hmem

theorem Reachable.ne_start (h : Reachable H s) (hreg : .registered i t e ∈ s.history) (cause : List String) :
    s.result? i ≠ some (.error (.start cause)) := by
  rw [ne_eq, result?_eq_some_iff]
  intro hr
  have hr' := (s.phases_getElem? i).trans hr
  obtain ⟨before, after, he⟩ := List.append_of_mem hreg
  have hstance : ∀ o, s.shared.Stance i t e after o → o = some (.error (.start cause)) := by
    intro o hi
    cases hi with
    | returned r ho hp =>
        cases hr'.symm.trans hp
        exact ho
    | registered hp | refused _ hp | executing hp | cancelled _ _ hp => exact absurd (hr'.symm.trans hp) (by simp)
  cases h.fate he with
  | waits _ _ _ hi => exact absurd (hstance _ hi) (by simp)
  | decided x _ _ hi => exact (x.verdict_ne cause).1 (Option.some.inj (hstance _ hi))
  | takenBack _ _ hi => exact absurd (hr'.symm.trans hi) (by simp)

theorem Reachable.exists_verdict (h : Reachable H s) (hp : s.phase? i = some (.executing t e (some r))) :
    ∃ x : Happening, x.verdict = r := by
  have hp' := (s.phases_getElem? i).trans hp
  obtain ⟨before, after, he⟩ := List.append_of_mem (h.sound.taken i _ t e hp' rfl).2
  have hstance : ∀ o, s.shared.Stance i t e after o → o = some r := by
    intro o hi
    cases hi with
    | executing hq =>
        cases hp'.symm.trans hq
        rfl
    | registered hq | refused _ hq | returned _ _ hq | cancelled _ _ hq => exact absurd (hp'.symm.trans hq) (by simp)
  cases h.fate he with
  | waits _ _ _ hi => exact absurd (hstance _ hi) (by simp)
  | decided x _ _ hi => exact ⟨x, Option.some.inj (hstance _ hi)⟩
  | takenBack _ _ hi => exact absurd (hp'.symm.trans hi) (by simp)

theorem Reachable.exists_returning (h : Reachable H s) (hr : s.result? i = some r) :
    ∃ s₁, Reachable H s₁ ∧ .call i ∈ s₁.runnable ∧ s₁.result? i = none ∧
      (s₁.proceed H (.call i)).result? i = some r ∧ Steps H (s₁.proceed H (.call i)) s ∧
        Returned s₁ i (s₁.proceed H (.call i)) r := by
  obtain ⟨u, v, hu, huv, hvs, hn, hx⟩ := h.exists_step_of_mem (h.returned_mem hr)
  obtain ⟨hrun, rfl, hret⟩ := huv.returned hu hn hx
  have hv := hu.step huv
  refine ⟨u, hu, hrun, ?_, ?_, hvs, hret⟩
  · rw [Option.eq_none_iff_forall_ne_some]
    intro r' hr'
    have hstays := Steps.result? (.head huv hvs) hu hr'
    obtain rfl : r' = r := Option.some.inj (hstays.symm.trans hr)
    exact hn (hu.returned_mem hr')
  · obtain ⟨command, hended⟩ := hv.ordered.ended i (mem_enders.2 (.inl ⟨r, hx⟩))
    rw [entries_getElem?, Option.map_eq_some_iff] at hended
    obtain ⟨c, hc, hentry⟩ := hended
    have hover : c.phase.isOver = true := by
      have hstage : c.phase.stage = .ended := congrArg Entry.stage hentry
      cases hp : c.phase <;> simp [hp, Phase.stage] at hstage <;> rfl
    have hphase := ((u.proceed H (.call i)).phase?_eq_some_iff i).2 ⟨c, hc, rfl⟩
    obtain ⟨q, hq, hbecome⟩ := hvs.phase? hv hphase
    rw [hbecome.stays hover] at hq
    rw [result?_eq_some_iff] at hr ⊢
    exact hphase.trans (hq.symm.trans hr)

/-- However a call has returned, no execution of its own is pending then or later, and a late end of one changes
nothing. If it could not start, the session is as it was before, without a terminal, and the call has taken no number.
If it could not send its command, the events of its terminal alone have changed what is attached and what is pending
since it registered its execution. -/
theorem returned_call_leaves_nothing (h : Reachable H s) (hr : s.result? i = some r) :
    (∀ s', Steps H s s' → s'.result? i = some r ∧ (∀ e, (e, i) ∉ s'.pending) ∧
      ∀ e, (Took H i e s ∨ ∃ t, .registered i t e ∈ s.history) → (∀ j, (e, j) ∉ s'.pending) ∧
        ∀ t code, s'.hear t (.ended e code) = s'.record (.heard t (.ended e code))) ∧
    ∃ s₁, Reachable H s₁ ∧ .call i ∈ s₁.runnable ∧ s₁.result? i = none ∧
      (s₁.proceed H (.call i)).result? i = some r ∧ Steps H (s₁.proceed H (.call i)) s ∧
      (∀ cause, r = .error (.start cause) →
        (¬ AnnouncedLate s₁.history → s₁.lifecycle = .absent) ∧ s₁.attached = none ∧ s₁.pending = [] ∧
          (∀ t, s₁.isDispatching t = false) ∧ Untouched i s₁ (s₁.proceed H (.call i)) ∧ ∀ e, ¬ Took H i e s) ∧
      ∀ cause, r = .error (.send cause) → ∃ s₀ t e between, Reachable H s₀ ∧ Steps H s₀ s₁ ∧
        GaveUp i t e between s₀ (s₁.proceed H (.call i)) := by
  constructor
  · intro s' hs
    have h' := h.steps hs
    have hr' := hs.result? h hr
    refine ⟨hr', fun e => h'.not_mem_pending hr', fun e he => ?_⟩
    have hnot : ∀ j, (e, j) ∉ s'.pending := by
      have hreg (hreg : ∃ t, .registered i t e ∈ s'.history) : ∀ j, (e, j) ∉ s'.pending := by
        obtain ⟨t, hreg⟩ := hreg
        exact h'.not_mem_pending_of_registered hr' hreg
      rcases he with htook | ⟨t, hmem⟩
      · exact (hs.took htook).cases.elim hreg And.right
      · exact hreg ⟨t, (hs.history_grows h).subset hmem⟩
    exact ⟨hnot, hear_of_not_pending hnot⟩
  · obtain ⟨s₁, h₁, hrun, hnone, hgo, hsteps, hret⟩ := h.exists_returning hr
    refine ⟨s₁, h₁, hrun, hnone, hgo, hsteps, ?_, ?_⟩
    · rintro cause rfl
      cases hret with
      | unmade _ p hp he ha hs =>
          refine ⟨fun hn => (h₁.sound.detached ha).resolve_right fun hl => hn hl.2, ha, h₁.sound.pending_eq_nil ha,
            fun t => ?_, hs, fun e htook => ?_⟩
          · rw [Bool.eq_false_iff]
            intro hd
            exact absurd (ha.symm.trans (attached_of_dispatching h₁.sound hd)) (by simp)
          · rcases htook.cases with ⟨t, hreg⟩ | ⟨hlost, -⟩
            · exact h.ne_start hreg cause hr
            · exact absurd (hr.symm.trans hlost) (by simp)
      | replied t e _ hp =>
          obtain ⟨x, hx⟩ := h₁.exists_verdict hp
          exact absurd hx (x.verdict_ne cause).1
    · rintro cause rfl
      cases hret with
      | takenBack t e _ hp hs hh =>
          obtain ⟨s₀, between, h₀, hsteps, hgave⟩ := h₁.gaveUp hp hs hh
          exact ⟨s₀, t, e, between, h₀, hsteps, hgave⟩
      | replied t e _ hp =>
          obtain ⟨x, hx⟩ := h₁.exists_verdict hp
          exact absurd hx (x.verdict_ne cause).2

def threeFailures : Session Script :=
  let s : Session Script :=
    { name := "helm"
      host := { integrates := true, failure := some ["no host"], replies := [.fail ["busy"], .ended (some 3)] } }
  (((s.exec "cmake").exec "make").exec "ctest").settle Script.host

theorem threeFailures_leave_nothing : threeFailures.result? 0 = some (.error (.start ["no host"])) ∧
    (∀ e, ¬ Took Script.host 0 e threeFailures) ∧
    threeFailures.result? 1 = some (.error (.send ["busy"])) ∧
    (∃ s₀ s₁ t e between, Steps Script.host s₁ threeFailures ∧ GaveUp 1 t e between s₀ s₁) ∧
    threeFailures.result? 2 = some (.error (.commandFailed 3)) ∧
    ∀ s', Steps Script.host threeFailures s' → ∀ t code,
      s'.hear t (.ended 2 code) = s'.record (.heard t (.ended 2 code)) := by
  have h : Reachable Script.host threeFailures :=
    ((((Reachable.start ..).step (.exec "cmake")).step (.exec "make")).step (.exec "ctest")).settle
  obtain ⟨-, _, -, -, -, -, -, hstart, -⟩ := returned_call_leaves_nothing h (i := 0) rfl
  obtain ⟨-, s₁, -, -, -, -, hsteps, -, hsend⟩ := returned_call_leaves_nothing h (i := 1) rfl
  obtain ⟨hlate, -⟩ := returned_call_leaves_nothing h (i := 2) rfl
  obtain ⟨s₀, t, e, between, -, -, hgave⟩ := hsend ["busy"] rfl
  have hreg : .registered 2 0 2 ∈ threeFailures.history := by decide
  refine ⟨rfl, (hstart ["no host"] rfl).2.2.2.2.2, rfl, ⟨s₀, _, t, e, between, hsteps, hgave⟩, rfl, ?_⟩
  intro s' hs'
  exact ((hlate s' hs').2.2 2 (.inr ⟨0, hreg⟩)).2

def registeredMake : Session Script :=
  let s : Session Script := { name := "helm", host := { integrates := true, replies := [.fail ["busy"]] } }
  (s.exec "make").interleave Script.host [.call 0, .dispatcher 0, .dispatcher 0, .call 0]

def closedBeforeRefusing : Session Script :=
  (registeredMake.post 0 [.closed]).interleave Script.host [.dispatcher 0, .call 0, .call 0, .dispatcher 0]

theorem reachable_registeredMake : Reachable Script.host registeredMake :=
  ((Reachable.start ..).step (.exec "make")).interleave _

/-- The call returns that it could not send, and its terminal is not attached any more. -/
theorem closedBeforeRefusing_detached :
    Reachable Script.host registeredMake ∧ registeredMake.phase? 0 = some (.registered 0 1 none) ∧
      registeredMake.attached = some 0 ∧ Steps Script.host registeredMake closedBeforeRefusing ∧
        closedBeforeRefusing.result? 0 = some (.error (.send ["busy"])) ∧ closedBeforeRefusing.attached = none :=
  ⟨reachable_registeredMake, rfl, rfl, .head (.post 0 [.closed]) (steps_interleave _ _), rfl, rfl⟩

end CMakeHelm.Session
