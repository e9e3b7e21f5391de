import CMakeHelm.Proofs.Session.Completion

namespace CMakeHelm.Session

structure Attempt where
  call : Nat
  terminal : Nat
  execution : Nat
  command : String
deriving DecidableEq

def Happening.attempt? : Happening → Option Attempt
  | .sent i t e command | .refused i t e command => some ⟨i, t, e, command⟩
  | _ => none

def Happening.opened? : Happening → Option Nat
  | .opened _ t => some t
  | _ => none

def attempts (history : List Happening) : List Attempt := history.filterMap Happening.attempt?

def opened (history : List Happening) : List Nat := history.filterMap Happening.opened?

/-- Terminal `t` takes commands: it has integrated and not ended, for all that has been heard. -/
def InWindow (history : List Happening) (t : Nat) : Prop :=
  .heard t .integrated ∈ history ∧ ¬ Gone history t

/-- What holds of each happening and all that came before it. -/
def AtEach (P : List Happening → Happening → Prop) (history : List Happening) : Prop :=
  ∀ before x after, history = before ++ x :: after → P before x

variable {history : List Happening} {x : Happening} {P : List Happening → Happening → Prop}

theorem AtEach.nil : AtEach P [] := by
  intro before x after he
  simp at he

theorem AtEach.concat (h : AtEach P history) (hx : P history x) : AtEach P (history ++ [x]) := by
  intro before y after he
  rcases concat_eq_append_cons he with ⟨after', -, he'⟩ | ⟨-, rfl, rfl⟩
  · exact h before y after' he'
  · exact hx

theorem attempts_concat : attempts (history ++ [x]) = attempts history ++ x.attempt?.toList := by
  cases hx : x.attempt? <;> simp [attempts, hx]

theorem opened_concat : opened (history ++ [x]) = opened history ++ x.opened?.toList := by
  cases hx : x.opened? <;> simp [opened, hx]

structure Timely (before : List Happening) (x : Happening) : Prop where
  registered : ∀ i t e, x = .registered i t e → InWindow before t
  attempted : ∀ a, x.attempt? = some a → .registered a.call a.terminal a.execution ∈ before
  opened : ∀ t, x.opened? = some t → ∀ u ∈ opened before, Gone before u

/-- No command has been given to a terminal with this or a later execution, or at all since this one was registered. -/
structure IsLatest (history : List Happening) (i t e : Nat) : Prop where
  lt : ∀ a ∈ attempts history, a.execution < e
  quiet : ∃ before after, history = before ++ .registered i t e :: after ∧ attempts after = []

theorem IsLatest.concat {i t e : Nat} (h : IsLatest history i t e) (hx : x.attempt? = none) :
    IsLatest (history ++ [x]) i t e where
  lt := by simpa [attempts_concat, hx] using h.lt
  quiet := by
    obtain ⟨before, after, rfl, hn⟩ := h.quiet
    exact ⟨before, after ++ [x], by simp, by simp [attempts_concat, hx, hn]⟩

namespace Shared

variable {m m' : Shared}

structure Successive (m : Shared) : Prop where
  opened_eq : opened m.history = List.range m.statuses.length
  lt : ∀ a ∈ attempts m.history, a.terminal < m.statuses.length ∧ a.execution < m.nextExecution
  sorted : (attempts m.history).Pairwise fun a b => a.terminal ≤ b.terminal ∧ a.execution < b.execution
  latest : ∀ (i t e : Nat) (reply : Option Outcome), m.phases[i]? = some (.registered t e reply) →
    IsLatest m.history i t e
  timely : AtEach Timely m.history

theorem Successive.congr (h : m.Successive) (hh : m'.history = m.history)
    (hs : m'.statuses.length = m.statuses.length) (he : m.nextExecution ≤ m'.nextExecution)
    (hp : ∀ (i t e : Nat) (reply : Option Outcome), m'.phases[i]? = some (.registered t e reply) →
      ∃ reply, m.phases[i]? = some (.registered t e reply)) : m'.Successive where
  opened_eq := by rw [hh, hs]; exact h.opened_eq
  lt := by
    rw [hh, hs]
    exact fun a ha => ⟨(h.lt a ha).1, Nat.lt_of_lt_of_le (h.lt a ha).2 he⟩
  sorted := hh ▸ h.sorted
  latest := by
    rw [hh]
    intro i t e reply hi
    obtain ⟨reply', hi'⟩ := hp i t e reply hi
    exact h.latest i t e reply' hi'
  timely := hh ▸ h.timely

theorem Successive.setPhase (h : m.Successive) (i : Nat) {q : Phase} (hq : ∀ t e reply, q ≠ .registered t e reply) :
    (m.setPhase i q).Successive :=
  h.congr rfl rfl (Nat.le_refl _) fun _ t e reply hj => ⟨reply, getElem?_of_setPhase (hq t e reply) hj⟩

theorem Successive.tell (h : m.Successive) {phases : List Phase} (ht : Tells m.phases phases) :
    Successive { m with phases } :=
  h.congr rfl rfl (Nat.le_refl _) fun _ _ _ _ hi => ht.registered hi

theorem Successive.note (h : m.Successive) {x : Happening} (hr : x.registers? = none) (ha : x.attempt? = none)
    (ho : x.opened? = none) : (m.record x).Successive where
  opened_eq := by
    rw [record, opened_concat, ho]
    simpa using h.opened_eq
  lt := by
    rw [record, attempts_concat, ha]
    simpa using h.lt
  sorted := by
    rw [record, attempts_concat, ha]
    simpa using h.sorted
  latest i t e reply hi := (h.latest i t e reply hi).concat ha
  timely := by
    refine h.timely.concat ⟨?_, by simp [ha], by simp [ho]⟩
    rintro i t e rfl
    simp [Happening.registers?] at hr

theorem Successive.make (h : m.Successive) (hs : m.Sound) (i : Nat) (ha : m.attached = none)
    (hn : ∀ (j : Nat) (p : Phase), m.phases[j]? = some p → p.terminal? = none) :
    Successive { m.record (.opened i m.statuses.length) with
      attached := some m.statuses.length
      lifecycle := .created
      statuses := m.statuses ++ [⟨true, false, false⟩] } := by
  refine
    { opened_eq := ?_, lt := ?_, sorted := ?_, latest := ?_
      timely := h.timely.concat ⟨by simp, by simp [Happening.attempt?], ?_⟩ }
  · rw [record, opened_concat, h.opened_eq, List.length_append, List.length_singleton, List.range_succ]
    rfl
  · intro a hmem
    rw [record, attempts_concat] at hmem
    obtain ⟨ht, he⟩ := h.lt a (by simpa [Happening.attempt?] using hmem)
    exact ⟨by simp only [List.length_append]; omega, he⟩
  · rw [record, attempts_concat]
    simpa [Happening.attempt?] using h.sorted
  · exact fun j t e reply hj => absurd (hn j _ hj) (by simp [Phase.terminal?])
  · intro t _ u hu
    rw [h.opened_eq] at hu
    exact (hs.gone u (List.mem_range.1 hu)).resolve_left (by simp [ha])

theorem Successive.give (h : m.Successive) (hs : m.Sound) {x : Happening} {i t e : Nat} {command : String}
    {reply : Option Outcome} {q : Phase} (hx : x.attempt? = some ⟨i, t, e, command⟩)
    (hp : m.phases[i]? = some (.registered t e reply)) (hq : ∀ t e reply, q ≠ .registered t e reply) :
    ((m.record x).setPhase i q).Successive := by
  have hkinds : x.opened? = none ∧ x.registers? = none := by
    cases x <;> simp [Happening.attempt?] at hx <;> exact ⟨rfl, rfl⟩
  have hreg := (hs.taken i _ t e hp rfl).2
  have hattempts : attempts (m.history ++ [x]) = attempts m.history ++ [⟨i, t, e, command⟩] := by
    rw [attempts_concat, hx]
    rfl
  have hlast := hs.terminal_last i _ t hp rfl
  refine { opened_eq := ?_, lt := ?_, sorted := ?_, latest := ?_, timely := h.timely.concat ⟨?_, ?_, ?_⟩ }
  · rw [Shared.setPhase, record, opened_concat, hkinds.1]
    simpa using h.opened_eq
  · intro a hmem
    rw [Shared.setPhase, record, hattempts, List.mem_append, List.mem_singleton] at hmem
    rcases hmem with hmem | rfl
    · exact h.lt a hmem
    · exact ⟨show t < m.statuses.length by omega, hs.numbered.lt_next hreg⟩
  · rw [Shared.setPhase, record, hattempts, List.pairwise_append]
    refine ⟨h.sorted, List.pairwise_singleton .., ?_⟩
    intro a hmem b hb
    obtain rfl := List.mem_singleton.1 hb
    have hlt := (h.lt a hmem).1
    exact ⟨show a.terminal ≤ t by omega, (h.latest i t e reply hp).lt a hmem⟩
  · intro j u f reply' hj'
    have hj : m.phases[j]? = some (.registered u f reply') :=
      getElem?_of_setPhase (m := m.record x) (hq u f reply') hj'
    have hij : i = j := by
      by_contra hij
      exact absurd (hs.solo i _ hp (by simp [Phase.terminal?]) j _ (Ne.symm hij) hj) (by simp [Phase.terminal?])
    subst hij
    have hphase := getElem?_setPhase_eq (m := m.record x) hp q
    exact absurd (Option.some.inj (hphase.symm.trans hj')) (hq u f reply')
  · rintro j u f rfl
    simp [Happening.registers?] at hkinds
  · intro a ha
    obtain rfl := Option.some.inj (hx.symm.trans ha)
    exact hreg
  · simp [hkinds.1]

theorem Successive.register (h : m.Successive) (hs : m.Sound) {i t : Nat} {p : Phase} (hp : m.phases[i]? = some p)
    (ha : m.attached = some t) (hi : m.isIntegrated t = true) :
    Successive { (m.record (.registered i t m.nextExecution)).setPhase i (.registered t m.nextExecution none) with
      pending := m.pending ++ [(m.nextExecution, i)]
      nextExecution := m.nextExecution + 1
      lifecycle := .executing } := by
  have hattempts : attempts (m.history ++ [.registered i t m.nextExecution]) = attempts m.history := by
    simp [attempts_concat, Happening.attempt?]
  refine
    { opened_eq := ?_, lt := ?_, sorted := ?_, latest := ?_
      timely := h.timely.concat ⟨?_, by simp [Happening.attempt?], by simp [Happening.opened?]⟩ }
  · simpa [Shared.setPhase, record, opened_concat, Happening.opened?] using h.opened_eq
  · intro a hmem
    obtain ⟨ht, he⟩ := h.lt a (hattempts ▸ hmem)
    exact ⟨ht, Nat.lt_succ_of_lt he⟩
  · exact hattempts.symm ▸ h.sorted
  · intro j u f reply hj
    by_cases hij : i = j
    · subst hij
      have hphase := getElem?_setPhase_eq hp (.registered t m.nextExecution none)
      obtain ⟨rfl, rfl, -⟩ : t = u ∧ m.nextExecution = f ∧ none = reply := by simpa using hphase.symm.trans hj
      exact ⟨fun a hmem => (h.lt a (hattempts ▸ hmem)).2, m.history, [], rfl, rfl⟩
    · exact (h.latest j u f reply ((getElem?_setPhase_ne hij _).symm.trans hj)).concat rfl
  · intro j u f he
    obtain ⟨-, rfl, -⟩ : i = j ∧ t = u ∧ m.nextExecution = f := by simpa using he
    exact ⟨(hs.integrated_iff t).1 hi, fun hg => (hs.ended t hg).2 ha⟩

theorem Successive.move (h : m.Successive) (hs : m.Sound) (hm : Move m m') : m'.Successive := by
  have hsame {m' : Shared} (hp : m'.phases = m.phases) (i t e : Nat) (reply : Option Outcome)
      (hi : m'.phases[i]? = some (.registered t e reply)) : ∃ reply, m.phases[i]? = some (.registered t e reply) :=
    ⟨reply, hp ▸ hi⟩
  cases hm with
  | note x hx =>
      have hnone : x.registers? = none ∧ x.attempt? = none ∧ x.opened? = none := by
        cases x with
        | heard t e => exact ⟨rfl, rfl, rfl⟩
        | asked i => exact ⟨rfl, rfl, rfl⟩
        | opened | announced | registered | sent | refused | shown | cutOff | returned | dropped =>
            simp [Happening.isRemark] at hx
      exact h.note hnone.1 hnone.2.1 hnone.2.2
  | call =>
      refine h.congr rfl rfl (Nat.le_refl _) ?_
      intro i t e reply hi
      by_cases hlt : i < m.phases.length
      · exact ⟨reply, (List.getElem?_append_left hlt).symm.trans hi⟩
      · rw [List.getElem?_append_right (Nat.le_of_not_lt hlt)] at hi
        exact absurd (List.mem_singleton.1 (List.mem_of_getElem? hi)) (by simp)
  | queue i p hp he => exact h.setPhase i (by simp)
  | attach i t p hp he hsolo ha => exact h.setPhase i (by simp)
  | look i t hp hi => exact h.setPhase i (by simp)
  | announce i t hp =>
      exact ((h.note (x := .announced i t) rfl rfl rfl).setPhase i (q := .integrating t) (by simp)).congr rfl rfl
        (Nat.le_refl _) fun _ _ _ reply hi => ⟨reply, hi⟩
  | make i ha hn => exact h.make hs i ha hn
  | skip => exact h.congr rfl rfl (Nat.le_succ _) (hsame rfl)
  | register i t p hp he ha hi => exact h.register hs hp ha hi
  | send i t e reply command hp => exact h.give hs (x := .sent i t e command) rfl hp (by simp)
  | refuse i t e reply command cause hp => exact h.give hs (x := .refused i t e command) rfl hp (by simp)
  | takeBack i t e cause hp =>
      have hn := h.note (x := .returned i (.error (.send cause))) rfl rfl rfl
      exact (hn.setPhase i (q := .returned (.error (.send cause))) (by simp)).congr rfl rfl (Nat.le_refl _)
        fun _ _ _ reply hi => ⟨reply, hi⟩
  | finish i p r hp he => exact (h.note (x := .returned i r) rfl rfl rfl).setPhase i (by simp)
  | drop i p hp hw => exact (h.note (x := .dropped i p) rfl rfl rfl).setPhase i (by simp)
  | integrate t ha =>
      exact (h.note (x := .heard t .integrated) rfl rfl rfl).congr rfl (List.length_modify ..) (Nat.le_refl _) (hsame rfl)
  | shown t ha hi =>
      exact (h.note (x := .shown t) rfl rfl rfl).congr rfl (List.length_modify ..) (Nat.le_refl _) (hsame rfl)
  | subshell t e i hp =>
      exact (h.note (x := .heard t (.ended e none)) rfl rfl rfl).congr rfl rfl (Nat.le_refl _) (hsame rfl)
  | stray t e code hp => exact h.note rfl rfl rfl
  | settle t e i code ha hp =>
      exact ((h.note (x := .heard t (.ended e (some code))) rfl rfl rfl).tell (tells_modify _ _ _ _)).congr rfl rfl
        (Nat.le_refl _) fun _ _ _ reply hi => ⟨reply, hi⟩
  | leave t x ha hx =>
      have hn : (m.record x).Successive := by rcases hx with rfl | rfl <;> exact h.note rfl rfl rfl
      exact (hn.tell (tells_mapIdx _ _ _)).congr rfl (List.length_modify ..) (Nat.le_refl _)
        fun _ _ _ reply hi => ⟨reply, hi⟩

theorem Successive.moves (h : m.Successive) (hs : m.Sound) (hm : Moves m m') : m'.Successive := by
  induction hm with
  | refl => exact h
  | tail hms hm ih => exact ih.move (hs.moves hms) hm

end Shared

variable {σ : Type} {H : Host σ} {s : Session σ}

theorem Reachable.successive (h : Reachable H s) : s.shared.Successive := by
  induction h with
  | start name host =>
      exact
        { opened_eq := rfl, lt := by simp [shared, attempts], sorted := .nil
          latest := by simp [shared, phases], timely := .nil }
  | step h hs ih => exact ih.moves h.sound (hs.moves h.sound h.orderly.hasTurn)

end CMakeHelm.Session
