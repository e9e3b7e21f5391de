import CMakeHelm.Proofs.Session.Turn

namespace CMakeHelm.Session

open Shared (Move Moves)

structure Phase.CanBecome (p q : Phase) : Prop where
  stays : p.isOver = true → q = p
  keeps : p.isEarly = false → q.isOver = true ∨ q.execution? = p.execution?

theorem Phase.isEarly_of_isOver {p : Phase} (h : p.isOver = true) : p.isEarly = false := by
  cases p <;> simp [isOver] at h <;> rfl

theorem Phase.isOver_of_waits {p : Phase} (h : p.waits = true) : p.isOver = false := by
  cases p <;> simp [waits] at h <;> rfl

theorem Phase.isEarly_of_execution? {p : Phase} {x : Nat × Nat} (h : p.execution? = some x) : p.isEarly = false := by
  cases p <;> simp [execution?] at h <;> rfl

theorem Phase.exists_execution {p : Phase} (he : p.isEarly = false) (ho : p.isOver = false) :
    ∃ x, p.execution? = some x := by
  cases p <;> simp [isEarly, isOver] at he ho <;> exact ⟨_, rfl⟩

namespace Phase.CanBecome

variable {p q : Phase}

theorem refl (p : Phase) : CanBecome p p := ⟨fun _ => rfl, fun _ => .inr rfl⟩

theorem of_early (he : p.isEarly = true) : CanBecome p q where
  stays ho := absurd (he.symm.trans (isEarly_of_isOver ho)) (by simp)
  keeps hl := absurd (he.symm.trans hl) (by simp)

theorem of_over (ho : p.isOver = false) (hq : q.isOver = true) : CanBecome p q where
  stays h := absurd (ho.symm.trans h) (by simp)
  keeps _ := .inl hq

theorem of_execution (ho : p.isOver = false) (hq : q.execution? = p.execution?) : CanBecome p q where
  stays h := absurd (ho.symm.trans h) (by simp)
  keeps _ := .inr hq

theorem told (r : Outcome) (es : List Nat) (p : Phase) : CanBecome p (p.told r es) := by
  cases p with
  | registered | executing => exact of_execution rfl (execution?_told ..)
  | fresh | queued | attached | announcing | integrating | refused | returned | cancelled => exact refl _

theorem late (h : CanBecome p q) (hp : p.isEarly = false) : q.isEarly = false := by
  rcases h.keeps hp with ho | he
  · exact isEarly_of_isOver ho
  · cases hover : p.isOver with
    | true =>
        obtain rfl := h.stays hover
        exact hp
    | false =>
        obtain ⟨x, hx⟩ := exists_execution hp hover
        exact isEarly_of_execution? (he.trans hx)

theorem trans {x : Phase} (h : CanBecome p q) (h' : CanBecome q x) : CanBecome p x where
  stays ho := by
    obtain rfl := h.stays ho
    exact h'.stays ho
  keeps hp := by
    rcases h.keeps hp with ho | he
    · exact .inl (by rw [h'.stays ho]; exact ho)
    · exact (h'.keeps (h.late hp)).imp_right fun he' => he'.trans he

end Phase.CanBecome

namespace Shared

variable {m m' : Shared} {i j e : Nat}

def CanBecome (m m' : Shared) : Prop :=
  ∀ (i : Nat) (p : Phase), m.phases[i]? = some p → ∃ q, m'.phases[i]? = some q ∧ p.CanBecome q

theorem canBecome_of_eq (h : m'.phases = m.phases) : CanBecome m m' := fun _ p hp => ⟨p, h ▸ hp, .refl p⟩

theorem canBecome_setPhase {p q : Phase} (hp : m.phases[j]? = some p) (h : p.CanBecome q) :
    CanBecome m (m.setPhase j q) := by
  intro i x hx
  by_cases hj : j = i
  · subst hj
    cases hp.symm.trans hx
    exact ⟨q, getElem?_setPhase_eq hp q, h⟩
  · exact ⟨x, (getElem?_setPhase_ne hj q).trans hx, .refl x⟩

theorem canBecome_of_tells (h : Tells m.phases m'.phases) : CanBecome m m' := by
  intro i p hp
  obtain ⟨r, es, he⟩ := h i
  exact ⟨p.told r es, by rw [he, hp, Option.map_some], .told r es p⟩

theorem Move.canBecome (hm : Move m m') : CanBecome m m' := by
  cases hm with
  | note | make | skip | integrate | shown | subshell | stray => exact canBecome_of_eq rfl
  | call => exact fun i p hp => ⟨p, (List.getElem?_append_left (List.getElem?_eq_some_iff.1 hp).1).trans hp, .refl p⟩
  | queue j p hp he => exact canBecome_setPhase hp (.of_early he)
  | attach j t p hp he hs ha => exact canBecome_setPhase hp (.of_early he)
  | look j t hp hi => exact canBecome_setPhase hp (.of_early rfl)
  | announce j t hp => exact canBecome_setPhase hp (.of_early rfl)
  | register j t p hp he ha hi => exact canBecome_setPhase hp (.of_early (by rcases he with rfl | rfl <;> rfl))
  | send j t e reply command hp => exact canBecome_setPhase hp (.of_execution rfl rfl)
  | refuse j t e reply command cause hp => exact canBecome_setPhase hp (.of_execution rfl rfl)
  | takeBack j t e cause hp => exact canBecome_setPhase hp (.of_over rfl rfl)
  | finish j p r hp he =>
      rcases he with he | ⟨t, e, rfl⟩
      · exact canBecome_setPhase hp (.of_early he)
      · exact canBecome_setPhase hp (.of_over rfl rfl)
  | drop j p hp hw => exact canBecome_setPhase hp (.of_over (Phase.isOver_of_waits hw) rfl)
  | settle t e j code ha hp => exact canBecome_of_tells (tells_modify _ _ _ _)
  | leave t x ha hx => exact canBecome_of_tells (tells_mapIdx _ _ _)

theorem Moves.canBecome (hm : Moves m m') : CanBecome m m' := by
  induction hm with
  | refl => exact canBecome_of_eq rfl
  | tail _ hm ih =>
      intro i p hp
      obtain ⟨q, hq, h⟩ := ih i p hp
      obtain ⟨x, hx, h'⟩ := hm.canBecome i q hq
      exact ⟨x, hx, h.trans h'⟩

theorem Move.history_grows (hm : Move m m') : m.history <+: m'.history := by
  cases hm <;> first | exact List.prefix_rfl | exact List.prefix_append ..

theorem Moves.history_grows (hm : Moves m m') : m.history <+: m'.history := by
  induction hm with
  | refl => exact List.prefix_rfl
  | tail _ hm ih => exact ih.trans hm.history_grows

/-- Numbers of executions are not used again: what is pending with an old one was so before. -/
theorem Move.pending_of_lt (hm : Move m m') (he : e < m.nextExecution) :
    e < m'.nextExecution ∧ ((e, j) ∈ m'.pending → (e, j) ∈ m.pending) := by
  cases hm with
  | note | call | queue | attach | look | announce | make | send | refuse | finish | drop | integrate | shown | subshell |
    stray => exact ⟨he, id⟩
  | skip => exact ⟨Nat.lt_succ_of_lt he, id⟩
  | register i t p hp hearly ha hi =>
      refine ⟨Nat.lt_succ_of_lt he, fun hmem => (List.mem_append.1 hmem).resolve_right ?_⟩
      intro hnew
      have heq : e = m.nextExecution := congrArg Prod.fst (List.mem_singleton.1 hnew)
      omega
  | takeBack i t e' cause hp => exact ⟨he, fun hmem => (List.mem_filter.1 hmem).1⟩
  | settle t e' i code ha hp => exact ⟨he, fun hmem => (List.mem_filter.1 hmem).1⟩
  | leave t x ha hx => exact ⟨he, fun hmem => absurd hmem List.not_mem_nil⟩

theorem Moves.pending_of_lt (hm : Moves m m') (he : e < m.nextExecution) :
    e < m'.nextExecution ∧ ((e, j) ∈ m'.pending → (e, j) ∈ m.pending) := by
  induction hm with
  | refl => exact ⟨he, id⟩
  | tail _ hm ih =>
      have hlater := hm.pending_of_lt (j := j) ih.1
      exact ⟨hlater.1, fun hmem => ih.2 (hlater.2 hmem)⟩

end Shared

variable {σ : Type} {H : Host σ} {s s' : Session σ} {i : Nat} {r : Outcome}

theorem Steps.moves (hs : Steps H s s') (h : Reachable H s) : Moves s.shared s'.shared := by
  induction hs with
  | refl => exact .refl
  | tail hs hstep ih =>
      have hmid := h.steps hs
      exact ih.trans (hstep.moves hmid.sound hmid.orderly.hasTurn)

theorem Steps.phase? (hs : Steps H s s') (h : Reachable H s) {p : Phase} (hp : s.phase? i = some p) :
    ∃ q, s'.phase? i = some q ∧ p.CanBecome q := by
  obtain ⟨q, hq, hbecome⟩ := (hs.moves h).canBecome i p ((s.phases_getElem? i).trans hp)
  exact ⟨q, (s'.phases_getElem? i).symm.trans hq, hbecome⟩

theorem result?_eq_some_iff : s.result? i = some r ↔ s.phase? i = some (.returned r) := by
  unfold result?
  split <;> simp_all

theorem finish_returns (r : Outcome) {c : Call} (hc : s.calls[i]? = some c) :
    (s.finish i r).result? i = some r ∧ (s.finish i r).history = s.history ++ [.returned i r] ∧
      (s.finish i r).host = s.host := by
  obtain ⟨runnable, he, -⟩ := ((s.record (.returned i r)).setPhase i (.returned r)).releaseTurn_eq
  rw [finish, he]
  refine ⟨?_, rfl, rfl⟩
  have hset := getElem?_setPhase (s.record (.returned i r)) i i (.returned r)
  rw [show (s.record (.returned i r)).calls[i]? = some c from hc, Option.map_some, if_pos rfl] at hset
  rw [result?_eq_some_iff, phase?_eq_some_iff]
  exact ⟨_, hset, rfl⟩

theorem Steps.result? (hs : Steps H s s') (h : Reachable H s) (hr : s.result? i = some r) :
    s'.result? i = some r := by
  obtain ⟨q, hq, hbecome⟩ := hs.phase? h (result?_eq_some_iff.1 hr)
  rw [hbecome.stays rfl] at hq
  exact result?_eq_some_iff.2 hq

theorem Steps.history_grows (hs : Steps H s s') (h : Reachable H s) : s.history <+: s'.history :=
  (hs.moves h).history_grows

end CMakeHelm.Session
