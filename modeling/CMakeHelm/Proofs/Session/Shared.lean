import CMakeHelm.Proofs.Session.Effects
import Mathlib.Data.List.Nodup
import Mathlib.Logic.Relation
import Mathlib.Tactic.ByContra

namespace CMakeHelm.Session

def Phase.isOver : Phase → Bool
  | .returned _ | .cancelled => true
  | .fresh | .queued | .attached _ | .announcing _ | .integrating _ | .registered .. | .refused .. | .executing .. =>
    false

def Phase.isEarly : Phase → Bool
  | .fresh | .queued | .attached _ | .announcing _ | .integrating _ => true
  | .registered .. | .refused .. | .executing .. | .returned _ | .cancelled => false

def Phase.terminal? : Phase → Option Nat
  | .attached t | .announcing t | .integrating t | .registered t _ _ | .refused t _ _ | .executing t _ _ => some t
  | .fresh | .queued | .returned _ | .cancelled => none

def Phase.execution? : Phase → Option (Nat × Nat)
  | .registered t e _ | .refused t e _ | .executing t e _ => some (t, e)
  | .fresh | .queued | .attached _ | .announcing _ | .integrating _ | .returned _ | .cancelled => none

theorem Phase.terminal?_of_execution? {p : Phase} {t e : Nat} (h : p.execution? = some (t, e)) :
    p.terminal? = some t := by
  cases p with
  | registered | refused | executing => exact congrArg (Option.map Prod.fst) h
  | fresh | queued | attached | announcing | integrating | returned | cancelled => simp [execution?] at h

theorem Phase.terminal?_told (r : Outcome) (es : List Nat) (p : Phase) : (p.told r es).terminal? = p.terminal? := by
  unfold told
  split <;> rfl

theorem Phase.execution?_told (r : Outcome) (es : List Nat) (p : Phase) :
    (p.told r es).execution? = p.execution? := by
  unfold told
  split <;> rfl

def Tells (old new : List Phase) : Prop := ∀ i : Nat, ∃ r es, new[i]? = old[i]?.map (Phase.told r es)

theorem Tells.exists_old {old new : List Phase} (h : Tells old new) {i : Nat} {p : Phase} (hp : new[i]? = some p) :
    ∃ q r es, old[i]? = some q ∧ p = q.told r es := by
  obtain ⟨r, es, he⟩ := h i
  obtain ⟨q, hq, hqp⟩ := Option.map_eq_some_iff.1 (he.symm.trans hp)
  exact ⟨q, r, es, hq, hqp.symm⟩

theorem Tells.registered {old new : List Phase} (h : Tells old new) {i t e : Nat} {reply : Option Outcome}
    (hi : new[i]? = some (.registered t e reply)) : ∃ reply, old[i]? = some (.registered t e reply) := by
  obtain ⟨q, r, es, hq, he⟩ := h.exists_old hi
  cases q with
  | registered u f reply' =>
      obtain ⟨rfl, rfl⟩ : t = u ∧ e = f := by cases reply' <;> simp [Phase.told] at he <;> simp [he]
      exact ⟨reply', hq⟩
  | executing u f reply' => cases reply' <;> simp [Phase.told] at he
  | fresh | queued | attached | announcing | integrating | refused | returned | cancelled => simp [Phase.told] at he

theorem tells_modify (old : List Phase) (i : Nat) (r : Outcome) (es : List Nat) :
    Tells old (old.modify i (Phase.told r es)) := by
  intro j
  rw [List.getElem?_modify]
  by_cases hj : i = j
  · exact ⟨r, es, by simp [hj]⟩
  · refine ⟨r, [], ?_⟩
    cases old[j]? with
    | none => rfl
    | some q => simp [hj, Phase.told_nil]

theorem tells_mapIdx (old : List Phase) (r : Outcome) (es : Nat → List Nat) :
    Tells old (old.mapIdx fun i => Phase.told r (es i)) :=
  fun i => ⟨r, es i, List.getElem?_mapIdx⟩

/-- The end of terminal `t` has been heard. -/
def Gone (history : List Happening) (t : Nat) : Prop :=
  .heard t .closed ∈ history ∨ .cutOff t ∈ history

theorem Gone.append {history : List Happening} {t : Nat} (h : Gone history t) (more : List Happening) :
    Gone (history ++ more) t :=
  h.imp (List.mem_append_left _) (List.mem_append_left _)

/-- A call has said that it waits for a terminal to integrate which was gone by then, or shown to have integrated. -/
def AnnouncedLate (history : List Happening) : Prop :=
  ∃ before i t after, history = before ++ .announced i t :: after ∧ (.shown t ∈ before ∨ Gone before t)

theorem AnnouncedLate.append {history : List Happening} (h : AnnouncedLate history) (more : List Happening) :
    AnnouncedLate (history ++ more) := by
  obtain ⟨before, i, t, after, rfl, hl⟩ := h
  exact ⟨before, i, t, after ++ more, by simp, hl⟩

def Happening.registers? : Happening → Option Nat
  | .registered _ _ e => some e
  | _ => none

structure Numbered (history : List Happening) (next : Nat) : Prop where
  lt : ∀ x ∈ history, ∀ e, x.registers? = some e → e < next
  sorted : history.Pairwise fun x y => ∀ e e', x.registers? = some e → y.registers? = some e' → e < e'

namespace Numbered

variable {history : List Happening} {next : Nat}

theorem lt_next (h : Numbered history next) {i t e : Nat} (hs : .registered i t e ∈ history) : e < next :=
  h.lt _ hs e rfl

theorem append (h : Numbered history next) {x : Happening} (hx : x.registers? = none) :
    Numbered (history ++ [x]) next := by
  refine ⟨?_, List.pairwise_append.2 ⟨h.sorted, List.pairwise_singleton .., ?_⟩⟩
  · intro y hy e he
    rcases List.mem_append.1 hy with hy | hy
    · exact h.lt y hy e he
    · simp [List.mem_singleton.1 hy, hx] at he
  · intro y _ z hz e e' _ he'
    simp [List.mem_singleton.1 hz, hx] at he'

theorem skip (h : Numbered history next) : Numbered history (next + 1) :=
  ⟨fun x hx e he => Nat.lt_succ_of_lt (h.lt x hx e he), h.sorted⟩

theorem register (h : Numbered history next) (i t : Nat) :
    Numbered (history ++ [.registered i t next]) (next + 1) := by
  refine ⟨?_, List.pairwise_append.2 ⟨h.sorted, List.pairwise_singleton .., ?_⟩⟩
  · intro y hy e he
    rcases List.mem_append.1 hy with hy | hy
    · exact h.skip.lt y hy e he
    · rw [List.mem_singleton.1 hy] at he
      cases he
      exact Nat.lt_succ_self _
  · intro y hy z hz e e' he he'
    rw [List.mem_singleton.1 hz] at he'
    cases he'
    exact h.lt y hy e he

theorem unique (h : Numbered history next) {i t e i' t' : Nat} (hs : .registered i t e ∈ history)
    (hs' : .registered i' t' e ∈ history) : i = i' ∧ t = t' := by
  have hlt := h.sorted
  obtain ⟨k, hk, hx⟩ := List.mem_iff_getElem.1 hs
  obtain ⟨k', hk', hx'⟩ := List.mem_iff_getElem.1 hs'
  rw [List.pairwise_iff_getElem] at hlt
  rcases Nat.lt_trichotomy k k' with hlt' | rfl | hlt'
  · exact absurd (hlt k k' hk hk' hlt' e e (hx ▸ rfl) (hx' ▸ rfl)) (Nat.lt_irrefl e)
  · have heq := hx.symm.trans hx'
    simp at heq
    exact heq
  · exact absurd (hlt k' k hk' hk hlt' e e (hx' ▸ rfl) (hx ▸ rfl)) (Nat.lt_irrefl e)

end Numbered

/-- A session without its turn, its tasks and its host. -/
structure Shared where
  phases : List Phase
  lifecycle : Lifecycle
  attached : Option Nat
  pending : List (Nat × Nat)
  nextExecution : Nat
  statuses : List Status
  history : List Happening

/-- Happenings that say what terminal is gone or has integrated, or what has been registered. -/
def Happening.isLandmark : Happening → Bool
  | .registered .. | .heard _ .integrated | .heard _ .closed | .shown _ | .cutOff _ => true
  | .asked _ | .opened .. | .announced .. | .sent .. | .refused .. | .heard _ (.ended ..) | .returned .. | .dropped .. =>
    false

def Happening.isRemark : Happening → Bool
  | .asked _ | .heard _ (.ended _ none) => true
  | _ => false

namespace Shared

variable (m : Shared)

def isDispatching (t : Nat) : Bool := m.statuses[t]?.any (·.dispatching)

def isIntegrated (t : Nat) : Bool := m.statuses[t]?.any (·.integrated)

def record (x : Happening) : Shared := { m with history := m.history ++ [x] }

def setPhase (i : Nat) (p : Phase) : Shared := { m with phases := m.phases.modify i fun _ => p }

def Solo (i : Nat) : Prop := ∀ (j : Nat) (p : Phase), j ≠ i → m.phases[j]? = some p → p.terminal? = none

/-- All that calls and dispatchers can do to what they share. -/
inductive Move : Shared → Shared → Prop
  | note (m : Shared) (x : Happening) (hx : x.isRemark = true) : Move m (m.record x)
  | call (m : Shared) : Move m { m with phases := m.phases ++ [.fresh] }
  | queue (m : Shared) (i : Nat) (p : Phase) (hp : m.phases[i]? = some p) (he : p.isEarly = true) :
      Move m (m.setPhase i .queued)
  | make (m : Shared) (i : Nat) (ha : m.attached = none)
      (hn : ∀ (j : Nat) (p : Phase), m.phases[j]? = some p → p.terminal? = none) :
      Move m { m.record (.opened i m.statuses.length) with
        attached := some m.statuses.length
        lifecycle := .created
        statuses := m.statuses ++ [⟨true, false, false⟩] }
  | attach (m : Shared) (i t : Nat) (p : Phase) (hp : m.phases[i]? = some p) (he : p.isEarly = true) (hs : m.Solo i)
      (ha : m.attached = some t) : Move m (m.setPhase i (.attached t))
  | look (m : Shared) (i t : Nat) (hp : m.phases[i]? = some (.attached t)) (hi : m.isIntegrated t = false) :
      Move m (m.setPhase i (.announcing t))
  | announce (m : Shared) (i t : Nat) (hp : m.phases[i]? = some (.announcing t)) :
      Move m { (m.record (.announced i t)).setPhase i (.integrating t) with lifecycle := .awaitingIntegration }
  | skip (m : Shared) : Move m { m with nextExecution := m.nextExecution + 1 }
  | register (m : Shared) (i t : Nat) (p : Phase) (hp : m.phases[i]? = some p)
      (he : p = .attached t ∨ p = .integrating t) (ha : m.attached = some t) (hi : m.isIntegrated t = true) :
      Move m { (m.record (.registered i t m.nextExecution)).setPhase i (.registered t m.nextExecution none) with
        pending := m.pending ++ [(m.nextExecution, i)]
        nextExecution := m.nextExecution + 1
        lifecycle := .executing }
  | send (m : Shared) (i t e : Nat) (reply : Option Outcome) (command : String)
      (hp : m.phases[i]? = some (.registered t e reply)) :
      Move m ((m.record (.sent i t e command)).setPhase i (.executing t e reply))
  | refuse (m : Shared) (i t e : Nat) (reply : Option Outcome) (command : String) (cause : List String)
      (hp : m.phases[i]? = some (.registered t e reply)) :
      Move m ((m.record (.refused i t e command)).setPhase i (.refused t e cause))
  | takeBack (m : Shared) (i t e : Nat) (cause : List String) (hp : m.phases[i]? = some (.refused t e cause)) :
      Move m { (m.record (.returned i (.error (.send cause)))).setPhase i (.returned (.error (.send cause))) with
        pending := m.pending.filter (·.1 ≠ e)
        lifecycle := if m.attached = some t then .ready else m.lifecycle }
  | finish (m : Shared) (i : Nat) (p : Phase) (r : Outcome) (hp : m.phases[i]? = some p)
      (he : p.isEarly = true ∨ ∃ t e, p = .executing t e (some r)) :
      Move m ((m.record (.returned i r)).setPhase i (.returned r))
  | drop (m : Shared) (i : Nat) (p : Phase) (hp : m.phases[i]? = some p) (hw : p.waits = true) :
      Move m ((m.record (.dropped i p)).setPhase i .cancelled)
  | integrate (m : Shared) (t : Nat) (ha : m.attached = some t) :
      Move m { m.record (.heard t .integrated) with
        statuses := m.statuses.modify t ({ · with integrated := true, due := true }) }
  | shown (m : Shared) (t : Nat) (ha : m.attached = some t) (hi : m.isIntegrated t = true) :
      Move m { m.record (.shown t) with
        statuses := m.statuses.modify t ({ · with due := false })
        lifecycle := m.lifecycle.integrated }
  | subshell (m : Shared) (t e i : Nat) (hp : (e, i) ∈ m.pending) :
      Move m { m.record (.heard t (.ended e none)) with lifecycle := .awaitingSubshellExit }
  | stray (m : Shared) (t e : Nat) (code : Int) (hp : ∀ i, (e, i) ∉ m.pending) :
      Move m (m.record (.heard t (.ended e (some code))))
  | settle (m : Shared) (t e i : Nat) (code : Int) (ha : m.attached = some t) (hp : (e, i) ∈ m.pending) :
      Move m { m.record (.heard t (.ended e (some code))) with
        phases := m.phases.modify i (Phase.told (.ofCode code) [e])
        pending := m.pending.filter (·.1 ≠ e)
        lifecycle := .ready }
  | leave (m : Shared) (t : Nat) (x : Happening) (ha : m.attached = some t)
      (hx : x = .heard t .closed ∨ x = .cutOff t) :
      Move m { m.record x with
        phases := m.phases.mapIdx fun i => Phase.told (.error .sessionLost) (executionsOf m.pending i)
        attached := none
        lifecycle := .absent
        pending := []
        statuses := m.statuses.modify t ({ · with dispatching := false }) }

abbrev Moves : Shared → Shared → Prop := Relation.ReflTransGen Move

/-- How the lifecycle, the attached terminal, the calls, their executions and the history agree. A late
announcement is all that can make the lifecycle wrong. -/
structure Sound (m : Shared) : Prop where
  dispatching_iff : ∀ t, m.isDispatching t = true ↔ m.attached = some t
  last : ∀ t, m.attached = some t → t + 1 = m.statuses.length
  gone : ∀ t < m.statuses.length, m.attached = some t ∨ Gone m.history t
  ended : ∀ t, Gone m.history t → t < m.statuses.length ∧ m.attached ≠ some t
  integrated_iff : ∀ t, m.isIntegrated t = true ↔ .heard t .integrated ∈ m.history
  integrated_of_shown : ∀ t, .shown t ∈ m.history → m.isIntegrated t = true
  integrated_of_due : ∀ l ∈ m.statuses, l.due = true → l.integrated = true
  attached_of_absent : m.lifecycle = .absent → m.attached = none
  detached : m.attached = none →
    m.lifecycle = .absent ∨ m.lifecycle = .awaitingIntegration ∧ AnnouncedLate m.history
  unready : ∀ t, m.attached = some t → m.isIntegrated t = false →
    m.pending = [] ∧ (m.lifecycle = .created ∨ m.lifecycle = .awaitingIntegration)
  ready : ∀ t, m.attached = some t → .shown t ∈ m.history →
    m.lifecycle = .ready ∨ m.lifecycle = .executing ∨ m.lifecycle = .awaitingSubshellExit ∨
      m.lifecycle = .awaitingIntegration ∧ AnnouncedLate m.history
  busy : m.lifecycle = .executing ∨ m.lifecycle = .awaitingSubshellExit → m.pending ≠ []
  registered_of_pending : ∀ e i, (e, i) ∈ m.pending → ∃ t, m.attached = some t ∧ .registered i t e ∈ m.history
  pending_nodup : (m.pending.map (·.1)).Nodup
  numbered : Numbered m.history m.nextExecution
  terminal_last : ∀ (i : Nat) (p : Phase) (t : Nat), m.phases[i]? = some p → p.terminal? = some t →
    t + 1 = m.statuses.length
  solo : ∀ (i : Nat) (p : Phase), m.phases[i]? = some p → p.terminal? ≠ none → m.Solo i
  announcing : ∀ i t : Nat, m.phases[i]? = some (.announcing t) → m.pending = []
  taken : ∀ (i : Nat) (p : Phase) (t e : Nat), m.phases[i]? = some p → p.execution? = some (t, e) →
    m.isIntegrated t = true ∧ .registered i t e ∈ m.history

variable {m : Shared} {i t e : Nat} {x : Happening}

theorem getElem?_setPhase_ne {j : Nat} (hj : j ≠ i) (p : Phase) : (m.setPhase j p).phases[i]? = m.phases[i]? :=
  List.getElem?_modify_ne _ _ hj

theorem getElem?_setPhase_eq {p : Phase} (hp : m.phases[i]? = some p) (q : Phase) :
    (m.setPhase i q).phases[i]? = some q := by
  simp [setPhase, hp]

theorem getElem?_of_setPhase {j : Nat} {p q : Phase} (hq : q ≠ p) (hi : (m.setPhase j q).phases[i]? = some p) :
    m.phases[i]? = some p := by
  by_cases hj : j = i
  · subst hj
    rw [setPhase, List.getElem?_modify_eq] at hi
    obtain ⟨-, -, he⟩ := Option.map_eq_some_iff.1 hi
    exact absurd he hq
  · exact (getElem?_setPhase_ne hj q).symm.trans hi

theorem mem_record_of_ne {y : Happening} (h : y ≠ x) : y ∈ (m.record x).history ↔ y ∈ m.history := by
  simp [record, h]

theorem isIntegrated_modify (f : Status → Status) (hf : ∀ l, (f l).integrated = l.integrated) (u : Nat) :
    isIntegrated { m with statuses := m.statuses.modify t f } u = m.isIntegrated u := by
  simp only [isIntegrated, List.getElem?_modify]
  cases m.statuses[u]? with
  | none => rfl
  | some l => by_cases hu : t = u <;> simp [hu, hf]

theorem isDispatching_modify (f : Status → Status) (hf : ∀ l, (f l).dispatching = l.dispatching) (u : Nat) :
    isDispatching { m with statuses := m.statuses.modify t f } u = m.isDispatching u := by
  simp only [isDispatching, List.getElem?_modify]
  cases m.statuses[u]? with
  | none => rfl
  | some l => by_cases hu : t = u <;> simp [hu, hf]

namespace Sound

theorem lt_length (h : m.Sound) (ha : m.attached = some t) : t < m.statuses.length := by
  have hlast := h.last t ha
  omega

theorem pending_eq_nil (h : m.Sound) (ha : m.attached = none) : m.pending = [] := by
  rw [List.eq_nil_iff_forall_not_mem]
  rintro ⟨e, i⟩ hm
  obtain ⟨t, ht, -⟩ := h.registered_of_pending e i hm
  simp [ha] at ht

theorem attached_or_gone (h : m.Sound) {p : Phase} (hp : m.phases[i]? = some p) (ht : p.terminal? = some t) :
    m.attached = some t ∨ m.attached = none ∧ Gone m.history t := by
  have hlast := h.terminal_last i p t hp ht
  cases ha : m.attached with
  | none => exact .inr ⟨rfl, (h.gone t (by omega)).resolve_left (by simp [ha])⟩
  | some u =>
      have hlast' := h.last u ha
      obtain rfl : t = u := by omega
      exact .inl rfl

theorem registered_record (h : m.Sound) (x : Happening) (e i : Nat) (hp : (e, i) ∈ m.pending) :
    ∃ t, m.attached = some t ∧ .registered i t e ∈ m.history ++ [x] := by
  obtain ⟨t, ha, hr⟩ := h.registered_of_pending e i hp
  exact ⟨t, ha, List.mem_append_left _ hr⟩

theorem lt_next_of_mem_pending (h : m.Sound) (hp : (e, i) ∈ m.pending) : e < m.nextExecution := by
  obtain ⟨t, -, hr⟩ := h.registered_of_pending e i hp
  exact h.numbered.lt_next hr

theorem nodup_register (h : m.Sound) (i : Nat) : ((m.pending ++ [(m.nextExecution, i)]).map (·.1)).Nodup := by
  have hfresh : m.nextExecution ∉ m.pending.map (·.1) := by
    intro hmem
    obtain ⟨⟨e, j⟩, hj, he⟩ := List.mem_map.1 hmem
    exact absurd he (Nat.ne_of_lt (h.lt_next_of_mem_pending hj))
  rw [List.map_append, List.map_singleton, ← List.concat_eq_append]
  exact h.pending_nodup.concat hfresh

theorem integrated_of_due_modify (h : m.Sound) (t : Nat) {f : Status → Status}
    (hf : ∀ l, (l.due = true → l.integrated = true) → (f l).due = true → (f l).integrated = true) :
    ∀ l ∈ m.statuses.modify t f, l.due = true → l.integrated = true := by
  intro l hl hdue
  obtain ⟨u, hu⟩ := List.mem_iff_getElem?.1 hl
  rw [List.getElem?_modify] at hu
  obtain ⟨l₀, hl₀, rfl⟩ := Option.map_eq_some_iff.1 hu
  have hold := h.integrated_of_due l₀ (List.mem_of_getElem? hl₀)
  by_cases htu : t = u
  · rw [if_pos htu] at hdue ⊢
    exact hf l₀ hold hdue
  · rw [if_neg htu] at hdue ⊢
    exact hold hdue

theorem note (h : m.Sound) (x : Happening) (hx : x.isLandmark = false) : (m.record x).Sound := by
  have hexec : x.registers? = none := by
    cases x with
    | registered => simp [Happening.isLandmark] at hx
    | asked | opened | announced | sent | refused | heard | shown | cutOff | returned | dropped => rfl
  have hold : ∀ y : Happening, y.isLandmark = true → y ∈ (m.record x).history → y ∈ m.history := by
    intro y hy hm
    refine (mem_record_of_ne ?_).1 hm
    rintro rfl
    exact absurd (hx.symm.trans hy) (by simp)
  exact { h with
    gone := fun t ht => (h.gone t ht).imp_right fun hg => hg.append [x]
    ended := fun t hg => h.ended t (hg.imp (hold _ rfl) (hold _ rfl))
    integrated_iff := fun t => (h.integrated_iff t).trans ⟨List.mem_append_left _, hold _ rfl⟩
    integrated_of_shown := fun t hs => h.integrated_of_shown t (hold _ rfl hs)
    detached := fun ha => (h.detached ha).imp_right fun hl => ⟨hl.1, hl.2.append [x]⟩
    ready := fun t ha hs =>
      (h.ready t ha (hold _ rfl hs)).imp_right (Or.imp_right (Or.imp_right fun hl => ⟨hl.1, hl.2.append [x]⟩))
    registered_of_pending := h.registered_record x
    numbered := h.numbered.append hexec
    taken := fun i p t e hp he => ⟨(h.taken i p t e hp he).1, List.mem_append_left _ (h.taken i p t e hp he).2⟩ }

theorem setPhase (h : m.Sound) (i : Nat) (q : Phase)
    (ht : ∀ t, q.terminal? = some t → t + 1 = m.statuses.length ∧ m.Solo i)
    (hn : ∀ t, q = .announcing t → m.pending = [])
    (he : ∀ t e, q.execution? = some (t, e) → m.isIntegrated t = true ∧ .registered i t e ∈ m.history) :
    (m.setPhase i q).Sound := by
  -- Only call `i` is in another phase than before.
  have hcases {j : Nat} {p : Phase} (hp : (m.setPhase i q).phases[j]? = some p) :
      i = j ∧ p = q ∨ i ≠ j ∧ m.phases[j]? = some p := by
    by_cases hj : i = j
    · subst hj
      rw [Shared.setPhase, List.getElem?_modify_eq] at hp
      obtain ⟨-, -, rfl⟩ := Option.map_eq_some_iff.1 hp
      exact .inl ⟨rfl, rfl⟩
    · exact .inr ⟨hj, (getElem?_setPhase_ne hj q).symm.trans hp⟩
  refine { h with terminal_last := ?_, solo := ?_, announcing := ?_, taken := ?_ }
  · intro j p t hp hterminal
    rcases hcases hp with ⟨rfl, rfl⟩ | ⟨-, hp⟩
    · exact (ht t hterminal).1
    · exact h.terminal_last j p t hp hterminal
  · intro j p hp hterminal k x hk hx
    obtain ⟨t, hpt⟩ := Option.ne_none_iff_exists'.1 hterminal
    by_contra hxt
    obtain ⟨u, hxu⟩ := Option.ne_none_iff_exists'.1 hxt
    rcases hcases hp with ⟨rfl, rfl⟩ | ⟨hj, hold⟩
    · rcases hcases hx with ⟨hik, -⟩ | ⟨-, hx⟩
      · exact hk hik.symm
      · exact hxt ((ht t hpt).2 k x hk hx)
    · rcases hcases hx with ⟨rfl, rfl⟩ | ⟨-, hx⟩
      · exact hterminal ((ht u hxu).2 j p (Ne.symm hj) hold)
      · exact hxt (h.solo j p hold hterminal k x hk hx)
  · intro j t hp
    rcases hcases hp with ⟨rfl, hq⟩ | ⟨-, hp⟩
    · exact hn t hq.symm
    · exact h.announcing j t hp
  · intro j p t e hp hexec
    rcases hcases hp with ⟨rfl, rfl⟩ | ⟨-, hp⟩
    · exact he t e hexec
    · exact h.taken j p t e hp hexec

theorem goOn (h : m.Sound) {p q : Phase} (hp : m.phases[i]? = some p)
    (ht : ∀ t, q.terminal? = some t → p.terminal? = some t) (hn : ∀ t, q = .announcing t → m.pending = [])
    (he : ∀ t e, q.execution? = some (t, e) → p.execution? = some (t, e)) : (m.setPhase i q).Sound :=
  h.setPhase i q (fun t hq => ⟨h.terminal_last i p t hp (ht t hq), h.solo i p hp (by simp [ht t hq])⟩) hn
    fun t e hq => h.taken i p t e hp (he t e hq)

theorem setOver (h : m.Sound) (i : Nat) {q : Phase} (hq : q.isOver = true) : (m.setPhase i q).Sound := by
  cases q with
  | returned | cancelled => exact h.setPhase i _ (by simp [Phase.terminal?]) (by simp) (by simp [Phase.execution?])
  | fresh | queued | attached | announcing | integrating | registered | refused | executing =>
      simp [Phase.isOver] at hq

theorem told_eq_announcing {p : Phase} {r : Outcome} {es : List Nat} (h : p.told r es = .announcing t) :
    p = .announcing t := by
  unfold Phase.told at h
  split at h
  · simp at h
  · simp at h
  · exact h

theorem tell (h : m.Sound) {phases : List Phase} (ht : Tells m.phases phases) : Sound { m with phases } := by
  refine { h with terminal_last := ?_, solo := ?_, announcing := ?_, taken := ?_ }
  · intro i p t hi hterminal
    obtain ⟨q, r, es, hq, rfl⟩ := ht.exists_old hi
    exact h.terminal_last i q t hq ((q.terminal?_told r es).symm.trans hterminal)
  · intro i p hi hterminal j x hj hx
    obtain ⟨q, r, es, hq, rfl⟩ := ht.exists_old hi
    obtain ⟨y, r', es', hy, rfl⟩ := ht.exists_old hx
    rw [Phase.terminal?_told] at hterminal ⊢
    exact h.solo i q hq hterminal j y hj hy
  · intro i t hi
    obtain ⟨q, r, es, hq, he⟩ := ht.exists_old hi
    exact h.announcing i t (hq.trans (congrArg some (told_eq_announcing he.symm)))
  · intro i p t e hi he
    obtain ⟨q, r, es, hq, rfl⟩ := ht.exists_old hi
    exact h.taken i q t e hq ((q.execution?_told r es).symm.trans he)

theorem make (h : m.Sound) (i : Nat) (ha : m.attached = none)
    (hn : ∀ (j : Nat) (p : Phase), m.phases[j]? = some p → p.terminal? = none) :
    Sound { m.record (.opened i m.statuses.length) with
      attached := some m.statuses.length
      lifecycle := .created
      statuses := m.statuses ++ [⟨true, false, false⟩] } := by
  have hnote := h.note (.opened i m.statuses.length) rfl
  have hp := h.pending_eq_nil ha
  have hnew : ∀ t < m.statuses.length, (m.statuses ++ [⟨true, false, false⟩])[t]? = m.statuses[t]? :=
    fun t ht => List.getElem?_append_left ht
  have hint : ∀ t, ((m.statuses ++ [⟨true, false, false⟩])[t]?.any (·.integrated)) = m.isIntegrated t := by
    intro t
    by_cases ht : t < m.statuses.length
    · rw [hnew t ht, isIntegrated]
    · rw [isIntegrated, List.getElem?_eq_none (l := m.statuses) (by omega), List.getElem?_append_right (by omega)]
      cases t - m.statuses.length <;> simp
  refine
    { dispatching_iff := ?_, last := by simp [eq_comm], gone := ?_, ended := ?_
      integrated_iff := fun t => (Eq.congr_left (hint t)).trans (hnote.integrated_iff t)
      integrated_of_shown := fun t hs => (hint t).trans (hnote.integrated_of_shown t hs), integrated_of_due := ?_
      attached_of_absent := by simp, detached := by simp, unready := fun t _ _ => ⟨hp, .inl rfl⟩, ready := ?_
      busy := by simp, registered_of_pending := by simp [record, hp], pending_nodup := h.pending_nodup
      numbered := hnote.numbered, terminal_last := ?_, solo := fun _ _ _ _ j p _ hp => hn j p hp, announcing := ?_
      taken := ?_ }
  · intro t
    rw [isDispatching, Option.some.injEq]
    by_cases hlt : t < m.statuses.length
    · have hd : m.isDispatching t ≠ true := fun hd => by simpa [ha] using (h.dispatching_iff t).1 hd
      rw [hnew t hlt]
      exact ⟨fun h' => absurd h' hd, fun h' => absurd h' (by omega)⟩
    · by_cases he : m.statuses.length = t
      · simp [← he]
      · rw [List.getElem?_eq_none (by simp; omega)]
        simp [he]
  · intro t ht
    rw [List.length_append, List.length_singleton] at ht
    by_cases he : t = m.statuses.length
    · exact .inl (congrArg some he.symm)
    · exact .inr ((hnote.gone t (show t < m.statuses.length by omega)).resolve_left (by simp [record, ha]))
  · intro t hg
    have hlt : t < m.statuses.length := (hnote.ended t hg).1
    exact ⟨by simp; omega, by simp; omega⟩
  · intro l hl
    rcases List.mem_append.1 hl with hl | hl
    · exact h.integrated_of_due l hl
    · rw [List.mem_singleton.1 hl]
      simp
  · intro t ht hs
    cases ht
    have hi := (hint _).trans (hnote.integrated_of_shown _ hs)
    simp at hi
  · exact fun j p t hp ht => absurd ((hn j p hp).symm.trans ht) (by simp)
  · exact fun j t hp => absurd (hn j _ hp) (by simp [Phase.terminal?])
  · exact fun j p t e hp he => absurd ((hn j p hp).symm.trans (Phase.terminal?_of_execution? he)) (by simp)

theorem announce (h : m.Sound) (hp : m.phases[i]? = some (.announcing t)) :
    Sound { (m.record (.announced i t)).setPhase i (.integrating t) with lifecycle := .awaitingIntegration } := by
  have hnote := (h.note (.announced i t) rfl).goOn (q := .integrating t) hp (by simp [Phase.terminal?]) (by simp)
    (by simp [Phase.execution?])
  have hlate (hl : .shown t ∈ m.history ∨ Gone m.history t) : AnnouncedLate (m.history ++ [.announced i t]) :=
    ⟨m.history, i, t, [], rfl, hl⟩
  have hat := h.attached_or_gone hp rfl
  -- Where the lifecycle is wrong from now on, the terminal was gone or shown before, so this announcement is late.
  refine { hnote with
    attached_of_absent := by simp, detached := ?_, unready := ?_, ready := ?_, busy := by simp }
  · intro ha
    refine .inr ⟨rfl, hlate (.inr ?_)⟩
    have ha : m.attached = none := ha
    exact (hat.resolve_left (by simp [ha])).2
  · exact fun u hu hi => ⟨(hnote.unready u hu hi).1, .inr rfl⟩
  · intro u hu hs
    have hu : m.attached = some u := hu
    obtain rfl : u = t := by
      rcases hat with hat | hat
      · exact Option.some.inj (hu.symm.trans hat)
      · exact absurd (hu.symm.trans hat.1) (by simp)
    have hs : .shown u ∈ m.history := by simpa [record, Shared.setPhase] using hs
    exact .inr (.inr (.inr ⟨rfl, hlate (.inl hs)⟩))

theorem skip (h : m.Sound) : Sound { m with nextExecution := m.nextExecution + 1 } :=
  { h with numbered := h.numbered.skip }

theorem register (h : m.Sound) {p : Phase} (hp : m.phases[i]? = some p) (he : p = .attached t ∨ p = .integrating t)
    (ha : m.attached = some t) (hi : m.isIntegrated t = true) :
    Sound { (m.record (.registered i t m.nextExecution)).setPhase i (.registered t m.nextExecution none) with
      pending := m.pending ++ [(m.nextExecution, i)]
      nextExecution := m.nextExecution + 1
      lifecycle := .executing } := by
  let x : Happening := .registered i t m.nextExecution
  have hold : ∀ y : Happening, y ≠ x → y ∈ m.history ++ [x] → y ∈ m.history := fun y hy => (mem_record_of_ne hy).1
  have hmem : x ∈ m.history ++ [x] := List.mem_append_right _ List.mem_cons_self
  have hgone : ∀ u, Gone (m.history ++ [x]) u → Gone m.history u :=
    fun u hg => hg.imp (hold _ (by simp [x])) (hold _ (by simp [x]))
  have hsolo : m.Solo i := h.solo i p hp (by rcases he with rfl | rfl <;> simp [Phase.terminal?])
  have hrec : Sound { m.record x with
      pending := m.pending ++ [(m.nextExecution, i)]
      nextExecution := m.nextExecution + 1
      lifecycle := .executing } := by
    refine { h with
      gone := fun u hu => (h.gone u hu).imp_right fun hg => hg.append [x], ended := fun u hg => h.ended u (hgone u hg)
      integrated_iff := fun u => (h.integrated_iff u).trans (mem_record_of_ne (by simp [x])).symm
      integrated_of_shown := fun u hs => h.integrated_of_shown u (hold _ (by simp [x]) hs)
      attached_of_absent := by simp, detached := by simp [record, ha], unready := ?_
      ready := fun _ _ _ => .inr (.inl rfl), busy := by simp, registered_of_pending := ?_
      pending_nodup := h.nodup_register i, numbered := h.numbered.register i t, announcing := ?_
      taken := fun j p u e hp he => ⟨(h.taken j p u e hp he).1, List.mem_append_left _ (h.taken j p u e hp he).2⟩ }
    · intro u hu hi'
      cases ha.symm.trans hu
      exact absurd (hi.symm.trans hi') (by simp)
    · intro e j hj
      rcases List.mem_append.1 hj with hj | hj
      · exact h.registered_record x e j hj
      · obtain ⟨rfl, rfl⟩ : e = m.nextExecution ∧ j = i := by simpa using hj
        exact ⟨t, ha, hmem⟩
    · intro j u hj
      by_cases hij : j = i
      · subst hij
        cases hp.symm.trans hj
        simp at he
      · exact absurd (hsolo j _ hij hj) (by simp [Phase.terminal?])
  refine hrec.setPhase i (.registered t m.nextExecution none) ?_ (by simp) ?_
  · intro u hu
    obtain rfl : t = u := Option.some.inj hu
    exact ⟨h.last t ha, hsolo⟩
  · intro u e hu
    obtain ⟨rfl, rfl⟩ := Prod.mk.inj (Option.some.inj hu)
    exact ⟨hi, hmem⟩

theorem takeBack (h : m.Sound) {cause : List String} (hp : m.phases[i]? = some (.refused t e cause))
    (r : Outcome) : Sound { (m.record (.returned i r)).setPhase i (.returned r) with
      pending := m.pending.filter (·.1 ≠ e)
      lifecycle := if m.attached = some t then .ready else m.lifecycle } := by
  have hnote := (h.note (.returned i r) rfl).setOver i (q := .returned r) rfl
  have hpending : ∀ e' j, (e', j) ∈ m.pending.filter (·.1 ≠ e) → (e', j) ∈ m.pending :=
    fun e' j hj => (List.mem_filter.1 hj).1
  have hsub := h.pending_nodup.sublist ((List.filter_sublist (p := (·.1 ≠ e))).map Prod.fst)
  have hann : ∀ j u : Nat, ((m.record (.returned i r)).setPhase i (.returned r)).phases[j]? = some (.announcing u) →
      m.pending.filter (·.1 ≠ e) = [] := by
    intro j u hj
    rw [show m.pending = [] from hnote.announcing j u hj, List.filter_nil]
  rcases h.attached_or_gone hp rfl with ha | ⟨ha, -⟩
  · have hint := (h.taken i _ t e hp rfl).1
    rw [if_pos ha]
    refine { hnote with
      attached_of_absent := by simp, detached := by simp [Shared.setPhase, record, ha], unready := ?_
      ready := fun _ _ _ => .inl rfl, busy := by simp
      registered_of_pending := fun e' j hj => hnote.registered_of_pending e' j (hpending e' j hj)
      pending_nodup := hsub, announcing := hann }
    intro u hu hi'
    cases ha.symm.trans hu
    exact absurd (hint.symm.trans hi') (by simp)
  · rw [if_neg (by simp [ha])]
    have hnil := h.pending_eq_nil ha
    exact { hnote with
      unready := fun u hu => absurd (ha.symm.trans hu) (by simp)
      busy := fun hb => absurd hnil (h.busy hb)
      registered_of_pending := fun e' j hj => hnote.registered_of_pending e' j (hpending e' j hj)
      pending_nodup := hsub, announcing := hann }

theorem integrate (h : m.Sound) (ha : m.attached = some t) :
    Sound { m.record (.heard t .integrated) with
      statuses := m.statuses.modify t ({ · with integrated := true, due := true }) } := by
  let x : Happening := .heard t .integrated
  have hold : ∀ y : Happening, y ≠ x → y ∈ m.history ++ [x] → y ∈ m.history := fun y hy => (mem_record_of_ne hy).1
  have hint : ∀ u, isIntegrated { m.record x with
      statuses := m.statuses.modify t ({ · with integrated := true, due := true }) } u = (t == u || m.isIntegrated u) := by
    intro u
    simp only [isIntegrated, List.getElem?_modify]
    by_cases hu : t = u
    · subst hu
      simp [h.lt_length ha]
    · simp [hu]
  have hkeep : ∀ u, m.isIntegrated u = true → isIntegrated { m.record x with
      statuses := m.statuses.modify t ({ · with integrated := true, due := true }) } u = true := by
    intro u hu
    rw [hint, hu, Bool.or_true]
  have hdisp : ∀ u, isDispatching { m.record x with
      statuses := m.statuses.modify t ({ · with integrated := true, due := true }) } u = m.isDispatching u :=
    isDispatching_modify (m := m.record x) _ fun _ => rfl
  refine { h with
    dispatching_iff := fun u => (Eq.congr_left (hdisp u)).trans (h.dispatching_iff u)
    last := fun u hu => (h.last u hu).trans (List.length_modify ..).symm
    gone := fun u hu => (h.gone u (by simpa using hu)).imp_right fun hg => hg.append [x]
    ended := fun u hg => ?_, integrated_iff := ?_
    integrated_of_shown := fun u hs => hkeep u (h.integrated_of_shown u (hold _ (by simp [x]) hs))
    integrated_of_due := h.integrated_of_due_modify t fun _ _ _ => rfl
    detached := fun hn => absurd (ha.symm.trans hn) (by simp), unready := ?_, ready := ?_
    registered_of_pending := h.registered_record x, numbered := h.numbered.append rfl
    terminal_last := fun i p u hp hu => (h.terminal_last i p u hp hu).trans (List.length_modify ..).symm
    taken := fun i p u e hp he => ⟨hkeep u (h.taken i p u e hp he).1, List.mem_append_left _ (h.taken i p u e hp he).2⟩ }
  · have hg := h.ended u (hg.imp (hold _ (by simp [x])) (hold _ (by simp [x])))
    exact ⟨by simpa using hg.1, hg.2⟩
  · intro u
    rw [hint, Bool.or_eq_true, h.integrated_iff u, beq_iff_eq]
    simp only [record, List.mem_append, List.mem_singleton, Happening.heard.injEq, and_true]
    rw [or_comm, eq_comm]
  · intro u hu hi
    have hu : m.attached = some u := hu
    obtain rfl : t = u := Option.some.inj (ha.symm.trans hu)
    rw [hint] at hi
    simp at hi
  · intro u hu hs
    exact (h.ready u hu (hold _ (by simp [x]) hs)).imp_right (Or.imp_right (Or.imp_right fun hl => ⟨hl.1, hl.2.append [x]⟩))

theorem shown (h : m.Sound) (ha : m.attached = some t) (hi : m.isIntegrated t = true) :
    Sound { m.record (.shown t) with
      statuses := m.statuses.modify t ({ · with due := false })
      lifecycle := m.lifecycle.integrated } := by
  let x : Happening := .shown t
  have hold : ∀ y : Happening, y ≠ x → y ∈ m.history ++ [x] → y ∈ m.history := fun y hy => (mem_record_of_ne hy).1
  have hint : ∀ u, isIntegrated { m.record x with
      statuses := m.statuses.modify t ({ · with due := false }) } u = m.isIntegrated u :=
    isIntegrated_modify (m := m.record x) _ fun _ => rfl
  have hdisp : ∀ u, isDispatching { m.record x with
      statuses := m.statuses.modify t ({ · with due := false }) } u = m.isDispatching u :=
    isDispatching_modify (m := m.record x) _ fun _ => rfl
  -- An attached terminal rules out `absent`, so only while it is busy does the lifecycle not become `ready`.
  have hlife : m.lifecycle.integrated = .ready ∨ m.lifecycle.integrated = m.lifecycle ∧
      (m.lifecycle = .executing ∨ m.lifecycle = .awaitingSubshellExit) := by
    have hne : m.lifecycle ≠ .absent := fun hl => by simpa [ha] using h.attached_of_absent hl
    cases hl : m.lifecycle <;> simp [Lifecycle.integrated, hl] at hne ⊢
  refine { h with
    dispatching_iff := fun u => (Eq.congr_left (hdisp u)).trans (h.dispatching_iff u)
    last := fun u hu => (h.last u hu).trans (List.length_modify ..).symm
    gone := fun u hu => (h.gone u (by simpa using hu)).imp_right fun hg => hg.append [x]
    ended := fun u hg => ?_
    integrated_iff := fun u => (Eq.congr_left (hint u)).trans
      ((h.integrated_iff u).trans (mem_record_of_ne (by simp)).symm)
    integrated_of_shown := fun u hs => (hint u).trans ?_
    integrated_of_due := h.integrated_of_due_modify t fun _ _ hdue => absurd hdue Bool.false_ne_true
    attached_of_absent := ?_
    detached := fun hn => absurd (ha.symm.trans hn) (by simp), unready := ?_, ready := ?_, busy := ?_
    registered_of_pending := h.registered_record x, numbered := h.numbered.append rfl
    terminal_last := fun i p u hp hu => (h.terminal_last i p u hp hu).trans (List.length_modify ..).symm
    taken := fun i p u e hp he =>
      ⟨(hint u).trans (h.taken i p u e hp he).1, List.mem_append_left _ (h.taken i p u e hp he).2⟩ }
  · have hg := h.ended u (hg.imp (hold _ (by simp [x])) (hold _ (by simp [x])))
    exact ⟨by simpa using hg.1, hg.2⟩
  · by_cases hu : u = t
    · exact hu ▸ hi
    · exact h.integrated_of_shown u (hold _ (by simp [x, hu]) hs)
  · intro hl
    have hl : m.lifecycle.integrated = .absent := hl
    rcases hlife with hr | ⟨he, hb⟩
    · simp [hr] at hl
    · rw [← he, hl] at hb
      simp at hb
  · intro u hu hn
    cases ha.symm.trans hu
    exact absurd (hi.symm.trans ((hint t).symm.trans hn)) (by simp)
  · intro u _ _
    rcases hlife with hr | ⟨he, hb | hb⟩ <;> simp_all
  · intro hb
    rcases hlife with hr | ⟨he, -⟩
    · simp [hr] at hb
    · exact h.busy (he ▸ hb)

theorem subshell (h : m.Sound) (hp : (e, i) ∈ m.pending) : Sound { m with lifecycle := .awaitingSubshellExit } := by
  obtain ⟨t, ha, -⟩ := h.registered_of_pending e i hp
  refine { h with
    attached_of_absent := by simp, detached := by simp [ha], unready := ?_
    ready := fun _ _ _ => .inr (.inr (.inl rfl)), busy := fun _ => List.ne_nil_of_mem hp }
  intro u hu hi
  simp [(h.unready u hu hi).1] at hp

theorem settle (h : m.Sound) (hp : (e, i) ∈ m.pending) :
    Sound { m with pending := m.pending.filter (·.1 ≠ e), lifecycle := .ready } := by
  obtain ⟨t, ha, -⟩ := h.registered_of_pending e i hp
  refine { h with
    attached_of_absent := by simp, detached := by simp [ha], unready := ?_, ready := fun _ _ _ => .inl rfl
    busy := by simp, registered_of_pending := ?_, pending_nodup := ?_, announcing := ?_ }
  · intro u hu hi
    simp [(h.unready u hu hi).1] at hp
  · intro e' j hj
    exact h.registered_of_pending e' j (List.mem_filter.1 hj).1
  · exact h.pending_nodup.sublist (List.filter_sublist.map _)
  · intro j u hj
    simp [h.announcing j u hj] at hp

theorem leave (h : m.Sound) (ha : m.attached = some t) (hx : x = .heard t .closed ∨ x = .cutOff t) :
    Sound { m.record x with
      attached := none
      lifecycle := .absent
      pending := []
      statuses := m.statuses.modify t ({ · with dispatching := false }) } := by
  have hexec : x.registers? = none := by rcases hx with rfl | rfl <;> rfl
  have hgone : Gone (m.history ++ [x]) t := by
    rcases hx with rfl | rfl
    · exact .inl (List.mem_append_right _ List.mem_cons_self)
    · exact .inr (List.mem_append_right _ List.mem_cons_self)
  have hint : ∀ u, isIntegrated { m.record x with
      statuses := m.statuses.modify t ({ · with dispatching := false }) } u = m.isIntegrated u :=
    isIntegrated_modify (m := m.record x) _ fun _ => rfl
  refine
    { dispatching_iff := ?_, last := by simp, gone := ?_, ended := ?_
      integrated_iff := fun u => (Eq.congr_left (hint u)).trans ((h.integrated_iff u).trans
        (mem_record_of_ne (by rcases hx with rfl | rfl <;> simp)).symm)
      integrated_of_shown := fun u hs => (hint u).trans (h.integrated_of_shown u
        ((mem_record_of_ne (by rcases hx with rfl | rfl <;> simp)).1 hs))
      integrated_of_due := h.integrated_of_due_modify t fun _ hold hdue => hold hdue
      attached_of_absent := by simp, detached := by simp, unready := by simp
      ready := by simp, busy := by simp, registered_of_pending := by simp, pending_nodup := .nil
      numbered := h.numbered.append hexec
      terminal_last := fun i p u hp hu => (h.terminal_last i p u hp hu).trans (List.length_modify ..).symm
      solo := h.solo, announcing := fun _ _ _ => rfl
      taken := fun i p u e hp he =>
        ⟨(hint u).trans (h.taken i p u e hp he).1, List.mem_append_left _ (h.taken i p u e hp he).2⟩ }
  · intro u
    have hd := h.dispatching_iff u
    simp only [isDispatching, List.getElem?_modify] at hd ⊢
    by_cases hu : t = u
    · subst hu
      simp [h.lt_length ha]
    · have hne : m.attached ≠ some u := by
        rw [ha]
        simpa using hu
      simpa [hu, hne] using hd
  · intro u hu
    rcases h.gone u (by simpa using hu) with hat | hg
    · obtain rfl : t = u := Option.some.inj (ha.symm.trans hat)
      exact .inr hgone
    · exact .inr (hg.append [x])
  · intro u hg
    refine ⟨?_, by simp⟩
    have hu : u = t ∨ Gone m.history u := by
      rcases hx with rfl | rfl <;> simp [Gone, record] at hg ⊢ <;> tauto
    rw [List.length_modify]
    rcases hu with rfl | hu
    · exact h.lt_length ha
    · exact (h.ended u hu).1

theorem move {m' : Shared} (h : m.Sound) (hm : Move m m') : m'.Sound := by
  cases hm with
  | note x hx =>
      refine h.note x ?_
      cases x with
      | heard t e => cases e <;> simp [Happening.isRemark, Happening.isLandmark] at hx ⊢
      | asked | opened | announced | registered | sent | refused | shown | cutOff | returned | dropped =>
          simp [Happening.isRemark, Happening.isLandmark] at hx ⊢
  | call =>
      have hnew : ∀ (i : Nat) (p : Phase), (m.phases ++ [.fresh])[i]? = some p → m.phases[i]? = some p ∨ p = .fresh := by
        intro i p hp
        by_cases hi : i < m.phases.length
        · exact .inl ((List.getElem?_append_left hi).symm.trans hp)
        · rw [List.getElem?_append_right (Nat.le_of_not_lt hi)] at hp
          exact .inr (List.mem_singleton.1 (List.mem_of_getElem? hp))
      refine { h with terminal_last := ?_, solo := ?_, announcing := ?_, taken := ?_ }
      · intro i p t hp ht
        rcases hnew i p hp with hp | rfl
        · exact h.terminal_last i p t hp ht
        · simp [Phase.terminal?] at ht
      · intro i p hp ht j q hj hq
        rcases hnew j q hq with hq | rfl
        · rcases hnew i p hp with hp | rfl
          · exact h.solo i p hp ht j q hj hq
          · simp [Phase.terminal?] at ht
        · rfl
      · intro i t hp
        exact h.announcing i t ((hnew i _ hp).resolve_right (by simp))
      · intro i p t e hp he
        rcases hnew i p hp with hp | rfl
        · exact h.taken i p t e hp he
        · simp [Phase.execution?] at he
  | queue i p hp he => exact h.setPhase i .queued (by simp [Phase.terminal?]) (by simp) (by simp [Phase.execution?])
  | make i ha hn => exact h.make i ha hn
  | attach i t p hp he hs ha =>
      refine h.setPhase i (.attached t) ?_ (by simp) (by simp [Phase.execution?])
      intro u hu
      obtain rfl : t = u := Option.some.inj hu
      exact ⟨h.last t ha, hs⟩
  | look i t hp hi =>
      refine h.goOn hp (by simp [Phase.terminal?]) (fun _ _ => ?_) (by simp [Phase.execution?])
      rcases h.attached_or_gone hp rfl with ha | ⟨ha, -⟩
      · exact (h.unready t ha hi).1
      · exact h.pending_eq_nil ha
  | announce i t hp => exact h.announce hp
  | skip => exact h.skip
  | register i t p hp he ha hi => exact h.register hp he ha hi
  | send i t e reply command hp =>
      exact (h.note (.sent i t e command) rfl).goOn hp (by simp [Phase.terminal?]) (by simp) (by simp [Phase.execution?])
  | refuse i t e reply command cause hp =>
      exact (h.note (.refused i t e command) rfl).goOn hp (by simp [Phase.terminal?]) (by simp)
        (by simp [Phase.execution?])
  | takeBack i t e cause hp => exact h.takeBack hp _
  | finish i p r hp he => exact (h.note (.returned i r) rfl).setOver i rfl
  | drop i p hp hw => exact (h.note (.dropped i p) rfl).setOver i rfl
  | integrate t ha => exact h.integrate ha
  | shown t ha hi => exact h.shown ha hi
  | subshell t e i hp => exact (h.note (.heard t (.ended e none)) rfl).subshell hp
  | stray t e code hp => exact h.note _ rfl
  | settle t e i code ha hp =>
      exact ((h.note (.heard t (.ended e (some code))) rfl).settle hp).tell (tells_modify _ _ _ _)
  | leave t x ha hx => exact (h.leave ha hx).tell (tells_mapIdx _ _ _)

theorem moves {m' : Shared} (h : m.Sound) (hm : Moves m m') : m'.Sound := by
  induction hm with
  | refl => exact h
  | tail _ hm ih => exact ih.move hm

end Sound

end Shared

end CMakeHelm.Session
