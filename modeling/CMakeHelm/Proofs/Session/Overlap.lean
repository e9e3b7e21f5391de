import CMakeHelm.Proofs.Session.Attempt
import Mathlib.Data.List.Induction

namespace CMakeHelm.Session

def Lifecycle.isBusy : Lifecycle → Bool
  | .executing | .awaitingSubshellExit => true
  | .absent | .created | .awaitingIntegration | .ready => false

theorem Lifecycle.isBusy_iff {l : Lifecycle} : l.isBusy = true ↔ l = .executing ∨ l = .awaitingSubshellExit := by
  cases l <;> simp [isBusy]

theorem Lifecycle.isBusy_integrated {l : Lifecycle} (h : l.isBusy = true) : l.integrated.isBusy = true := by
  cases l <;> simp [isBusy, integrated] at h ⊢

/-- Terminal `t` is taken for a command, or given one, which it may refuse. -/
def Happening.triesOn (t : Nat) : Happening → Bool
  | .registered _ u _ | .sent _ u _ _ | .refused _ u _ _ => u = t
  | _ => false

/-- Since call `i` registered execution `e` for terminal `t` this has happened, its sending included, and then that
terminal was taken for a command or given one. -/
def TriedAfter (history : List Happening) (i t e : Nat) (between : List Happening) : Prop :=
  (∃ command, .sent i t e command ∈ between) ∧
    ∃ before x after, history = before ++ .registered i t e :: (between ++ x :: after) ∧ x.triesOn t = true

/-- A command was on its way to a terminal before the end of one sent to it was heard. -/
def Overlaps (history : List Happening) : Prop :=
  ∃ i t e between, TriedAfter history i t e between ∧ ∀ code, .heard t (.ended e (some code)) ∉ between

theorem TriedAfter.mono {history history' between : List Happening} {i t e : Nat}
    (h : TriedAfter history i t e between) (hp : history <+: history') : TriedAfter history' i t e between := by
  obtain ⟨hsent, before, x, after, rfl, hx⟩ := h
  obtain ⟨rest, rfl⟩ := hp
  exact ⟨hsent, before, x, after ++ rest, by simp, hx⟩

theorem Overlaps.mono {history history' : List Happening} (h : Overlaps history) (hp : history <+: history') :
    Overlaps history' := by
  obtain ⟨i, t, e, between, ht, hn⟩ := h
  exact ⟨i, t, e, between, ht.mono hp, hn⟩

theorem append_cons_of_not_mem {l₁ l₂ r₁ r₂ : List Happening} {x y : Happening}
    (h : l₁ ++ x :: r₁ = l₂ ++ y :: r₂) (hy : y ∉ x :: r₁) : ∃ l, l₁ = l₂ ++ y :: l ∧ r₂ = l ++ x :: r₁ := by
  rcases List.append_eq_append_iff.1 h with ⟨l, rfl, hl⟩ | ⟨l, rfl, hl⟩
  · exact absurd (hl ▸ List.mem_append_right l List.mem_cons_self) hy
  · cases l with
    | nil =>
        rw [List.nil_append] at hl
        exact absurd (hl ▸ List.mem_cons_self) hy
    | cons z l =>
        obtain ⟨rfl, rfl⟩ := List.cons.inj hl
        exact ⟨l, rfl, rfl⟩

theorem tried_of_concat {history between : List Happening} {x : Happening} {i t e : Nat}
    (h : TriedAfter (history ++ [x]) i t e between) :
    TriedAfter history i t e between ∨ x.triesOn t = true ∧ ∃ before, history = before ++ .registered i t e :: between := by
  obtain ⟨hsent, before, y, after, he, hy⟩ := h
  rw [← List.cons_append, ← List.append_assoc] at he
  rcases concat_eq_append_cons he with ⟨after', rfl, he'⟩ | ⟨rfl, rfl, he'⟩
  · exact .inl ⟨hsent, before, y, after', by simpa using he', hy⟩
  · exact .inr ⟨hy, before, he'⟩

namespace Shared

variable {m m' : Shared} {i t e : Nat} {between : List Happening} {x : Happening}

theorem RegisteredBefore.tried (h : m.RegisteredBefore i t e between)
    (hsent : ∃ command, .sent i t e command ∈ between) (hx : x.triesOn t = true) :
    TriedAfter (m.history ++ [x]) i t e between := by
  obtain ⟨before, he⟩ := h
  exact ⟨hsent, before, x, [], by simp [he], hx⟩

theorem pending_of_unended (hs : m.Sound) (hf : m.Fated) (ha : m.attached = some t)
    (hb : m.RegisteredBefore i t e between) (hsent : ∃ command, .sent i t e command ∈ between)
    (hn : ∀ code, .heard t (.ended e (some code)) ∉ between) :
    (e, i) ∈ m.pending ∧
      (m.phases[i]? = some (.executing t e none) ∨ .dropped i (.executing t e none) ∈ between) := by
  obtain ⟨command, hsent⟩ := hsent
  cases hf i t e between hb with
  | waits _ _ hp hi =>
      refine ⟨hp, ?_⟩
      cases hi with
      | registered hi hns => exact absurd hsent (hns command)
      | refused cause hi hns => exact absurd hsent (hns command)
      | executing hi => exact .inl hi
      | returned r ho => simp at ho
      | cancelled o ho hi hd => exact .inr (ho rfl ▸ hd)
  | decided x hx hp hi =>
      have hmem := List.mem_of_find?_eq_some hx
      have hover : .heard t .closed ∉ m.history ∧ .cutOff t ∉ m.history :=
        not_or.1 fun ho => (hs.ended t ho).2 ha
      obtain ⟨before, he⟩ := hb
      have hlate : x ∈ m.history := by
        rw [he]
        exact List.mem_append_right _ (List.mem_cons_of_mem _ hmem)
      obtain ⟨code, rfl⟩ | rfl | rfl := Happening.decides_iff.1 (List.find?_some hx)
      · exact absurd hmem (hn code)
      · exact absurd hlate hover.1
      · exact absurd hlate hover.2
  | takenBack cause hp hi hns => exact absurd hsent (hns command)

theorem unended_of_pending (hs : m.Sound) (hf : m.Fated) (hp : (e, i) ∈ m.pending) :
    ∃ t between, m.attached = some t ∧ m.RegisteredBefore i t e between ∧
      (∀ code, .heard t (.ended e (some code)) ∉ between) ∧
      ((∃ command, .sent i t e command ∈ between) ∨
        ∃ p, m.phases[i]? = some p ∧ p.terminal? = some t) := by
  obtain ⟨t, ha, hreg⟩ := hs.registered_of_pending e i hp
  obtain ⟨before, between, he⟩ := List.append_of_mem hreg
  refine ⟨t, between, ha, ⟨before, he⟩, ?_⟩
  cases hf i t e between ⟨before, he⟩ with
  | waits hn _ _ hi =>
      refine ⟨fun code hmem => List.find?_eq_none.1 hn _ hmem (by simp [Happening.decides]), ?_⟩
      cases hi with
      | registered hi | refused _ hi => exact .inr ⟨_, hi, rfl⟩
      | executing hi hsent => exact .inl hsent
      | returned r ho => simp at ho
      | cancelled o ho hi hd hsent => exact .inl hsent
  | decided x hx hnp hi => exact absurd hp (hnp i)
  | takenBack cause hnp hi => exact absurd hp (hnp i)

theorem overlaps_of_register (hs : m.Sound) (hf : m.Fated) {j : Nat} {p : Phase} (hj : m.phases[j]? = some p)
    (hearly : p.isEarly = true) (hterminal : p.terminal? = some t) (ha : m.attached = some t)
    (hx : x.triesOn t = true) (hp : m.pending ≠ []) : Overlaps (m.history ++ [x]) := by
  obtain ⟨⟨e, i⟩, hp⟩ := List.exists_mem_of_ne_nil _ hp
  obtain ⟨u, between, hu, hb, hn, hsent | ⟨q, hq, hqt⟩⟩ := unended_of_pending hs hf hp
  · obtain rfl : t = u := Option.some.inj (ha.symm.trans hu)
    exact ⟨i, t, e, between, hb.tried hsent hx, hn⟩
  · -- The call of the other one would have the terminal, too.
    have hij : j = i := by
      by_contra hij
      exact absurd (hs.solo j p hj (by simp [hterminal]) i q (Ne.symm hij) hq) (by simp [hqt])
    subst hij
    obtain ⟨before, he⟩ := hb
    obtain ⟨r, hr, hlate⟩ := (hf j u e between ⟨before, he⟩).phase
    cases hj.symm.trans hr
    exact absurd (hearly.symm.trans hlate) (by simp)

theorem tried_of_give (hs : m.Successive) {j u f : Nat} {reply : Option Outcome}
    (hj : m.phases[j]? = some (.registered u f reply)) (hx : ∀ t, x.triesOn t = true → t = u)
    (h : TriedAfter (m.history ++ [x]) i t e between) :
    ∃ between', TriedAfter m.history i t e between' ∧ between' ⊆ between := by
  obtain ⟨command, hsent⟩ := h.1
  rcases tried_of_concat h with ht | ⟨hxt, before, he⟩
  · exact ⟨between, ht, fun _ hy => hy⟩
  · obtain rfl := hx t hxt
    obtain ⟨front, back, rfl⟩ := List.append_of_mem hsent
    obtain ⟨earlier, later, hlast, hquiet⟩ := (hs.latest j t f reply hj).quiet
    have hnot : .sent i t e command ∉ .registered j t f :: later := by
      intro hm
      have hm := (List.mem_cons.1 hm).resolve_left (by simp)
      have hattempt : ⟨i, t, e, command⟩ ∈ attempts later := List.mem_filterMap.2 ⟨_, hm, rfl⟩
      simp [hquiet] at hattempt
    have hsplit : earlier ++ .registered j t f :: later =
        (before ++ .registered i t e :: front) ++ .sent i t e command :: back := by
      rw [← hlast, he, List.append_assoc, List.cons_append]
    obtain ⟨middle, -, rfl⟩ := append_cons_of_not_mem hsplit hnot
    refine ⟨front ++ .sent i t e command :: middle, ⟨⟨command, by simp⟩, before, .registered j t f, later, ?_, ?_⟩, ?_⟩
    · simp [he]
    · simp [Happening.triesOn]
    · intro y hy
      simp only [List.mem_append, List.mem_cons] at hy ⊢
      tauto

theorem Move.tried (hs : m.Successive) (hm : Move m m') (h : TriedAfter m'.history i t e between) :
    (∃ between', TriedAfter m.history i t e between' ∧ between' ⊆ between) ∨
      m.RegisteredBefore i t e between ∧ m.attached = some t ∧ m'.pending.length = m.pending.length + 1 ∧
        ∃ (j : Nat) (p : Phase), m.phases[j]? = some p ∧ p.isEarly = true ∧ p.terminal? = some t := by
  have hold (h : TriedAfter m.history i t e between) :
      ∃ between', TriedAfter m.history i t e between' ∧ between' ⊆ between := ⟨between, h, fun _ hy => hy⟩
  cases hm with
  | register j u p hp he ha hi =>
      refine (tried_of_concat h).imp hold fun hx => ?_
      obtain rfl : u = t := by simpa [Happening.triesOn] using hx.1
      refine ⟨hx.2, ha, List.length_append, j, p, hp, ?_⟩
      rcases he with rfl | rfl <;> exact ⟨rfl, rfl⟩
  | send j u f reply command hp =>
      exact .inl (tried_of_give hs (x := .sent j u f command) hp (by simp [Happening.triesOn, eq_comm]) h)
  | refuse j u f reply command cause hp =>
      exact .inl (tried_of_give hs (x := .refused j u f command) hp (by simp [Happening.triesOn, eq_comm]) h)
  | call | queue | attach | look | skip => exact .inl (hold h)
  | note x hx =>
      refine (tried_of_concat h).imp hold fun ht => ?_
      have ht := ht.1
      cases x <;> simp [Happening.isRemark, Happening.triesOn] at hx ht
  | leave u x ha hx =>
      refine (tried_of_concat h).imp hold fun ht => ?_
      have ht := ht.1
      rcases hx with rfl | rfl <;> simp [Happening.triesOn] at ht
  | make | announce | takeBack | finish | drop | integrate | shown | subshell | stray | settle =>
      refine (tried_of_concat h).imp hold fun ht => ?_
      simp [Happening.triesOn] at ht

/-- A terminal that is tried too early was sent a command by a call that has been dropped since. -/
def Blamed (m : Shared) : Prop :=
  ∀ i t e between, TriedAfter m.history i t e between →
    (∃ code, .heard t (.ended e (some code)) ∈ between) ∨ .dropped i (.executing t e none) ∈ between

theorem Blamed.move (h : m.Blamed) (hs : m.Sound) (hf : m.Fated) (hsucc : m.Successive) (hm : Move m m') :
    m'.Blamed := by
  intro i t e between ht
  rcases hm.tried hsucc ht with ⟨between', ht', hsub⟩ | ⟨hb, ha, -, j, p, hj, hearly, hterminal⟩
  · exact (h i t e between' ht').imp (fun ⟨code, hc⟩ => ⟨code, hsub hc⟩) fun hd => hsub hd
  · by_cases hn : ∃ code, .heard t (.ended e (some code)) ∈ between
    · exact .inl hn
    · right
      refine (pending_of_unended hs hf ha hb ht.1 (not_exists.1 hn)).2.resolve_left fun hi => ?_
      by_cases hij : i = j
      · subst hij
        cases hj.symm.trans hi
        simp [Phase.isEarly] at hearly
      · exact absurd (hs.solo j p hj (by simp [hterminal]) i _ hij hi) (by simp [Phase.terminal?])

def Alone (m : Shared) : Prop :=
  ∀ (i : Nat) (p : Phase) (t e : Nat), m.phases[i]? = some p → p.execution? = some (t, e) → ∀ q ∈ m.pending, q.1 = e

theorem Alone.congr (h : m.Alone) (hp : m'.phases = m.phases) (hpend : m'.pending = m.pending) : m'.Alone := by
  intro i p t e hi he q hq
  exact h i p t e (hp ▸ hi) he q (hpend ▸ hq)

theorem Alone.setPhase (h : m.Alone) {p q : Phase} (hp : m.phases[i]? = some p)
    (hq : ∀ x, q.execution? = some x → p.execution? = some x) : (m.setPhase i q).Alone := by
  intro j r t e hj he
  by_cases hij : i = j
  · subst hij
    obtain rfl : q = r := Option.some.inj ((getElem?_setPhase_eq hp q).symm.trans hj)
    exact h i p t e hp (hq _ he)
  · exact h j r t e ((getElem?_setPhase_ne hij q).symm.trans hj) he

theorem Alone.tell (h : m.Alone) {phases : List Phase} (ht : Tells m.phases phases) : Alone { m with phases } := by
  intro i p t e hi he
  obtain ⟨q, r, es, hq, rfl⟩ := ht.exists_old hi
  exact h i q t e hq ((Phase.execution?_told ..).symm.trans he)

theorem Alone.filter (h : m.Alone) (f : Nat × Nat → Bool) : Alone { m with pending := m.pending.filter f } :=
  fun i p t e hi he q hq => h i p t e hi he q (List.mem_filter.1 hq).1

theorem alone_of_pending_eq_nil (h : m.pending = []) : m.Alone := by
  intro _ _ _ _ _ _ q hq
  simp [h] at hq

theorem Alone.register (hs : m.Sound) (hn : m.pending = []) {p : Phase} (hp : m.phases[i]? = some p)
    (hterminal : p.terminal? = some t) :
    Alone { (m.record (.registered i t m.nextExecution)).setPhase i (.registered t m.nextExecution none) with
      pending := m.pending ++ [(m.nextExecution, i)]
      nextExecution := m.nextExecution + 1
      lifecycle := .executing } := by
  intro j q u e hj he x hx
  obtain rfl : x = (m.nextExecution, i) := by simpa [hn] using hx
  by_cases hij : i = j
  · subst hij
    obtain rfl := Option.some.inj ((getElem?_setPhase_eq (m := m.record _) hp _).symm.trans hj)
    exact congrArg Prod.snd (Option.some.inj he)
  · have hj := (getElem?_setPhase_ne (m := m.record _) hij _).symm.trans hj
    have hnone := hs.solo i p hp (by simp [hterminal]) j q (Ne.symm hij) hj
    exact absurd ((Phase.terminal?_of_execution? he).symm.trans hnone) (by simp)

def Truthful (m : Shared) : Prop := m.pending.length ≤ 1 ∧ (m.pending ≠ [] ↔ m.lifecycle.isBusy = true)

theorem pending_eq_nil_of_register (hs : m.Sound) (hf : m.Fated) {j f : Nat} {p : Phase}
    (hj : m.phases[j]? = some p) (he : p = .attached t ∨ p = .integrating t) (ha : m.attached = some t)
    (hn : ¬ Overlaps (m.history ++ [.registered j t f])) : m.pending = [] := by
  have hearly : p.isEarly = true := by rcases he with rfl | rfl <;> rfl
  have hterminal : p.terminal? = some t := by rcases he with rfl | rfl <;> rfl
  by_contra hp
  exact hn (overlaps_of_register hs hf hj hearly hterminal ha (by simp [Happening.triesOn]) hp)

theorem Move.shows (hs : m.Sound) (hf : m.Fated) (hsucc : m.Successive) (hm : Move m m') (h : Overlaps m'.history) :
    Overlaps m.history ∨ ¬ m'.Truthful := by
  obtain ⟨i, t, e, between, ht, hn⟩ := h
  rcases hm.tried hsucc ht with ⟨between', ht', hsub⟩ | ⟨hb, ha, hlen, -⟩
  · exact .inl ⟨i, t, e, between', ht', fun code hc => hn code (hsub hc)⟩
  · right
    intro htruth
    have hpos := List.length_pos_of_mem (pending_of_unended hs hf ha hb ht.1 hn).1
    have hle := htruth.1
    omega

theorem Alone.move (h : m.Alone) (hs : m.Sound) (hf : m.Fated) (hm : Move m m') (hn : ¬ Overlaps m'.history) :
    m'.Alone := by
  cases hm with
  | note | make | skip | integrate | shown | subshell | stray => exact h.congr rfl rfl
  | call =>
      intro i p t e hi he
      by_cases hlt : i < m.phases.length
      · exact h i p t e ((List.getElem?_append_left hlt).symm.trans hi) he
      · rw [List.getElem?_append_right (Nat.le_of_not_lt hlt)] at hi
        obtain rfl := List.mem_singleton.1 (List.mem_of_getElem? hi)
        simp [Phase.execution?] at he
  | queue i p hp => exact h.setPhase hp (by simp [Phase.execution?])
  | attach i t p hp => exact h.setPhase hp (by simp [Phase.execution?])
  | look i t hp => exact h.setPhase hp (by simp [Phase.execution?])
  | announce i t hp => exact (h.setPhase hp (q := .integrating t) (by simp [Phase.execution?])).congr rfl rfl
  | register i t p hp he ha hi =>
      have hterminal : p.terminal? = some t := by rcases he with rfl | rfl <;> rfl
      exact Alone.register hs (pending_eq_nil_of_register hs hf hp he ha hn) hp hterminal
  | send i t e reply command hp =>
      exact (h.setPhase hp (q := .executing t e reply) (by simp [Phase.execution?])).congr rfl rfl
  | refuse i t e reply command cause hp =>
      exact (h.setPhase hp (q := .refused t e cause) (by simp [Phase.execution?])).congr rfl rfl
  | takeBack i t e cause hp =>
      have hover := h.setPhase hp (q := .returned (.error (.send cause))) (by simp [Phase.execution?])
      exact (hover.filter _).congr rfl rfl
  | finish i p r hp => exact (h.setPhase hp (q := .returned r) (by simp [Phase.execution?])).congr rfl rfl
  | drop i p hp => exact (h.setPhase hp (q := .cancelled) (by simp [Phase.execution?])).congr rfl rfl
  | settle t e i code => exact ((h.tell (tells_modify _ _ _ _)).filter _).congr rfl rfl
  | leave t x => exact alone_of_pending_eq_nil rfl

theorem Truthful.move (h : m.Truthful) (halone : m.Alone) (hs : m.Sound) (hf : m.Fated) (hm : Move m m')
    (hn : ¬ Overlaps m'.history) : m'.Truthful := by
  obtain ⟨hl, hb⟩ := h
  -- The other direction, that a busy lifecycle has something pending, holds of every sound session.
  have hkeep : m'.pending.length ≤ 1 ∧ (m'.pending ≠ [] → m'.lifecycle.isBusy = true) := by
    cases hm with
    | note | call | queue | attach | look | skip | send | refuse | finish | drop | stray => exact ⟨hl, hb.1⟩
    | announce i t hp => simp [setPhase, record, hs.announcing i t hp]
    | make i ha hnone => simp [record, hs.pending_eq_nil ha]
    | register i t p hp he ha hi => simp [pending_eq_nil_of_register hs hf hp he ha hn, Lifecycle.isBusy]
    | takeBack i t e cause hp =>
        have hnil : m.pending.filter (·.1 ≠ e) = [] :=
          List.filter_eq_nil_iff.2 fun q hq => by simp [halone i _ t e hp rfl q hq]
        simp only [hnil]
        simp
    | integrate t ha => exact ⟨hl, hb.1⟩
    | shown t ha hi => exact ⟨hl, fun hp => Lifecycle.isBusy_integrated (hb.1 hp)⟩
    | subshell t e i hp => exact ⟨hl, fun _ => rfl⟩
    | settle t e i code ha hp =>
        obtain ⟨p, hone⟩ := List.length_eq_one_iff.1 (Nat.le_antisymm hl (List.length_pos_of_mem hp))
        rw [hone, List.mem_singleton] at hp
        simp [hone, ← hp]
    | leave t x ha hx => simp
  exact ⟨hkeep.1, hkeep.2, fun hb => (hs.move hm).busy (Lifecycle.isBusy_iff.1 hb)⟩

theorem Blamed.moves (h : m.Blamed) (hs : m.Sound) (hf : m.Fated) (hsucc : m.Successive) (hm : Moves m m') :
    m'.Blamed := by
  induction hm with
  | refl => exact h
  | tail hms hm ih => exact ih.move (hs.moves hms) (hf.moves hs hms) (hsucc.moves hs hms) hm

theorem Truthful.moves (h : m.Truthful ∧ m.Alone) (hs : m.Sound) (hf : m.Fated) (hm : Moves m m')
    (hn : ¬ Overlaps m'.history) : m'.Truthful ∧ m'.Alone := by
  induction hm with
  | refl => exact h
  | tail hms hm ih =>
      obtain ⟨ht, ha⟩ := ih fun ho => hn (ho.mono hm.history_grows)
      have hs := hs.moves hms
      have hf := hf.moves ‹_› hms
      exact ⟨ht.move ha hs hf hm hn, ha.move hs hf hm hn⟩

end Shared

variable {σ : Type} {H : Host σ} {s s' : Session σ} {x : Happening}

/-- At most one execution is pending, and the lifecycle says whether one is. -/
def TellsTruth (s : Session σ) : Prop :=
  s.pending.length ≤ 1 ∧ (s.pending ≠ [] ↔ s.lifecycle.isBusy = true)

theorem overlaps_of_append {history more : List Happening} (hx : ∀ x ∈ more, ∀ t, x.triesOn t = false)
    (h : Overlaps (history ++ more)) : Overlaps history := by
  induction more using List.reverseRecOn with
  | nil => rwa [List.append_nil] at h
  | append_singleton more x ih =>
      obtain ⟨hmore, hlast⟩ := List.forall_mem_append.1 hx
      obtain ⟨i, t, e, between, ht, hn⟩ := h
      rw [← List.append_assoc] at ht
      rcases tried_of_concat ht with ht | ⟨hxt, -⟩
      · exact ih hmore ⟨i, t, e, between, ht, hn⟩
      · exact absurd ((hlast x (List.mem_singleton_self x) t).symm.trans hxt) (by simp)

theorem Happening.triesOn_of_isAside (hx : x.isAside = true) (t : Nat) : x.triesOn t = false := by
  cases x <;> simp [isAside] at hx <;> rfl

theorem Step.shows (hs : Step H s s') (h : Reachable H s) (ho : Overlaps s'.history) :
    Overlaps s.history ∨ ¬ s'.shared.Truthful := by
  rcases hs.addsAside_or_move h.sound with ⟨more, he, hmore⟩ | hm
  · left
    rw [he] at ho
    exact overlaps_of_append (fun x hx t => Happening.triesOn_of_isAside (hmore x hx) t) ho
  · exact hm.shows h.sound h.fated h.successive ho

theorem Reachable.blamed (h : Reachable H s) : s.shared.Blamed := by
  induction h with
  | start name host =>
      rintro i t e between ⟨-, before, x, after, he, hx⟩
      exact absurd he (by simp [shared])
  | step h hs ih => exact ih.moves h.sound h.fated h.successive (hs.moves h.sound h.orderly.hasTurn)

theorem Throughout.not_overlaps (h : Throughout H TellsTruth s) : ¬ Overlaps s.history := by
  induction h with
  | start name host hp =>
      rintro ⟨i, t, e, between, ⟨-, before, x, after, he, hx⟩, hn⟩
      exact absurd he (by simp)
  | step h hs hp ih => exact fun ho => (hs.shows h.reachable ho).elim ih fun hn => hn hp

theorem Reachable.truthful (h : Reachable H s) (hn : ¬ Overlaps s.history) :
    Throughout H TellsTruth s ∧ s.shared.Truthful ∧ s.shared.Alone := by
  induction h with
  | start name host =>
      have htruth : ({ name, host } : Session σ).shared.Truthful := by
        simp [Shared.Truthful, shared, Lifecycle.isBusy]
      exact ⟨.start name host htruth, htruth, Shared.alone_of_pending_eq_nil rfl⟩
  | step h hs ih =>
      have hm := hs.moves h.sound h.orderly.hasTurn
      obtain ⟨hall, ht⟩ := ih fun ho => hn (ho.mono hm.history_grows)
      have ht' := Shared.Truthful.moves ht h.sound h.fated hm hn
      exact ⟨hall.step hs ht'.1, ht'⟩

theorem Reachable.pending_unique (h : Reachable H s) {e i e' i' : Nat} (hp : (e, i) ∈ s.pending)
    (hp' : (e', i') ∈ s.pending) (hc : s.phase? i ≠ some .cancelled) (hc' : s.phase? i' ≠ some .cancelled) :
    (e, i) = (e', i') := by
  obtain ⟨p, t, hi, he⟩ := (h.execution_of_pending hp).resolve_left hc
  obtain ⟨p', t', hi', he'⟩ := (h.execution_of_pending hp').resolve_left hc'
  have hturn := h.orderly.hasTurn i p hi (by simp [Phase.terminal?_of_execution? he])
  have hturn' := h.orderly.hasTurn i' p' hi' (by simp [Phase.terminal?_of_execution? he'])
  obtain rfl : i = i' := Option.some.inj (hturn.symm.trans hturn')
  obtain rfl : p = p' := Option.some.inj (hi.symm.trans hi')
  have heq := he.symm.trans he'
  simp at heq
  rw [heq.2]

theorem Reachable.pending_of_busy (h : Reachable H s) (hb : s.lifecycle.isBusy = true) : s.pending ≠ [] :=
  h.sound.busy (Lifecycle.isBusy_iff.1 hb)

/-- All along, at most one execution has been pending and the lifecycle has said whether one is, exactly
if no terminal was taken for a command before the end of one sent to it was heard. That one was taken
so early has one cause only: the call that sent the other was dropped while it waited. Even then all but
one of those pending are of calls that were dropped, and a lifecycle that says so is right. -/
theorem tells_truth_iff_no_overlap (h : Reachable H s) :
    (Throughout H TellsTruth s ↔ ¬ Overlaps s.history) ∧
    (∀ i t e between, TriedAfter s.history i t e between →
      (∃ code, .heard t (.ended e (some code)) ∈ between) ∨ .dropped i (.executing t e none) ∈ between) ∧
    (∀ e i e' i', (e, i) ∈ s.pending → (e', i') ∈ s.pending → s.phase? i ≠ some .cancelled →
      s.phase? i' ≠ some .cancelled → (e, i) = (e', i')) ∧
    (s.lifecycle.isBusy = true → s.pending ≠ []) :=
  ⟨⟨Throughout.not_overlaps, fun hn => (h.truthful hn).1⟩, h.blamed, fun _ _ _ _ => h.pending_unique,
    h.pending_of_busy⟩

def droppedMake : Session Script :=
  let s : Session Script := { name := "helm", host := { integrates := true } }
  (((((s.exec "make").settle Script.host).abort 0).settle Script.host).exec "ctest").settle Script.host

theorem reachable_droppedMake : Reachable Script.host droppedMake :=
  ((((((Reachable.start ..).step (.exec "make")).settle).step (.abort 0)).settle).step (.exec "ctest")).settle

theorem droppedMake_lies : ¬ Throughout Script.host TellsTruth droppedMake ∧
    droppedMake.pending = [(1, 0), (2, 1)] ∧ .dropped 0 (.executing 0 1 none) ∈ droppedMake.history := by
  have ht : TriedAfter droppedMake.history 0 0 1
      [.sent 0 0 1 "make", .dropped 0 (.executing 0 1 none), .asked 1] := by
    refine ⟨⟨"make", by simp⟩, droppedMake.history.take 5, .registered 1 0 2, [.sent 1 0 2 "ctest"], rfl, rfl⟩
  have hend : ∀ code, Happening.heard 0 (.ended 1 (some code)) ∉
      [.sent 0 0 1 "make", .dropped 0 (.executing 0 1 none), .asked 1] := by simp
  have hiff := (tells_truth_iff_no_overlap reachable_droppedMake).1
  exact ⟨fun hall => hiff.1 hall ⟨0, 0, 1, _, ht, hend⟩, rfl, by decide⟩

/-- Two executions are pending; and when the second one ends, the session says that it is ready while the
first one still runs. -/
theorem pending_twice_and_ready_while_pending :
    (∃ s : Session Script, Reachable Script.host s ∧ s.lifecycle = .executing ∧ s.pending = [(1, 0), (2, 1)]) ∧
    ∃ s : Session Script, Reachable Script.host s ∧ s.lifecycle = .ready ∧ s.pending = [(1, 0)] := by
  refine ⟨⟨droppedMake, reachable_droppedMake, rfl, rfl⟩, ?_⟩
  let testEnded := (droppedMake.post 0 [.ended 2 (some 0)]).settle Script.host
  exact ⟨testEnded, (reachable_droppedMake.step (.post 0 _)).settle, rfl, rfl⟩

end CMakeHelm.Session
