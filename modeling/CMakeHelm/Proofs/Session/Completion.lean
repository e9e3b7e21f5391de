import CMakeHelm.Proofs.Session.PhaseOrder
import CMakeHelm.Session.Script

namespace CMakeHelm.Session

/-- The happening decides what becomes of execution `e`, which is registered for terminal `t`. -/
def Happening.decides (t e : Nat) : Happening → Bool
  | .heard u (.ended e' (some _)) => u = t && e' = e
  | .heard u .closed | .cutOff u => u = t
  | _ => false

/-- What a happening that decides makes of the execution. -/
def Happening.verdict : Happening → Outcome
  | .heard _ (.ended _ (some code)) => .ofCode code
  | _ => .error .sessionLost

theorem Happening.decides_iff {t e : Nat} {x : Happening} : x.decides t e = true ↔
    (∃ code, x = .heard t (.ended e (some code))) ∨ x = .heard t .closed ∨ x = .cutOff t := by
  cases x with
  | heard u event =>
      cases event with
      | integrated => simp [decides]
      | closed => simp [decides]
      | ended e' code => cases code <;> simp [decides]
  | cutOff u => simp [decides]
  | asked | opened | announced | registered | sent | refused | shown | returned | dropped => simp [decides]

theorem verdict_of_decides {t e : Nat} {x : Happening} (h : x.decides t e = true) :
    (x.verdict = .ok ↔ x = .heard t (.ended e (some 0))) ∧
    (∀ code, x.verdict = .error (.commandFailed code) ↔ code ≠ 0 ∧ x = .heard t (.ended e (some code))) ∧
    (x.verdict = .error .sessionLost ↔ x = .heard t .closed ∨ x = .cutOff t) := by
  obtain ⟨code, rfl⟩ | rfl | rfl := Happening.decides_iff.1 h
  · by_cases hc : code = 0
    · simp [Happening.verdict, Outcome.ofCode, hc, eq_comm]
    · simp [Happening.verdict, Outcome.ofCode, hc]
  · simp [Happening.verdict]
  · simp [Happening.verdict]

theorem Happening.verdict_ne (x : Happening) (cause : List String) :
    x.verdict ≠ .error (.start cause) ∧ x.verdict ≠ .error (.send cause) := by
  unfold verdict
  split
  · next code =>
    by_cases hc : code = 0 <;> simp [Outcome.ofCode, hc]
  · simp

theorem concat_eq_append_cons {l before after : List Happening} {x y : Happening}
    (h : l ++ [x] = before ++ y :: after) :
    (∃ after', after = after' ++ [x] ∧ l = before ++ y :: after') ∨ after = [] ∧ x = y ∧ l = before := by
  rcases List.eq_nil_or_concat after with rfl | ⟨after', z, rfl⟩
  · obtain ⟨hl, hx⟩ := List.append_singleton_inj.1 h
    exact .inr ⟨rfl, hx, hl⟩
  · rw [List.concat_eq_append, ← List.cons_append, ← List.append_assoc] at h
    obtain ⟨hl, rfl⟩ := List.append_singleton_inj.1 h
    exact .inl ⟨after', List.concat_eq_append, hl⟩

namespace Shared

variable {m m' : Shared} {i t e : Nat} {after : List Happening} {o : Option Outcome} {x : Happening}

/-- Call `i` has registered execution `e` for terminal `t`, and then this has happened. -/
def RegisteredBefore (m : Shared) (i t e : Nat) (after : List Happening) : Prop :=
  ∃ before, m.history = before ++ .registered i t e :: after

theorem RegisteredBefore.mem (h : m.RegisteredBefore i t e after) : .registered i t e ∈ m.history := by
  obtain ⟨before, he⟩ := h
  simp [he]

theorem RegisteredBefore.of_record (h : (m.record x).RegisteredBefore i t e after) :
    (∃ after', after = after' ++ [x] ∧ m.RegisteredBefore i t e after') ∨ after = [] ∧ x = .registered i t e := by
  obtain ⟨before, he⟩ := h
  rcases concat_eq_append_cons he with ⟨after', rfl, he'⟩ | ⟨rfl, rfl, -⟩
  · exact .inl ⟨after', rfl, before, he'⟩
  · exact .inr ⟨rfl, rfl⟩

/-- Where a call stands that has registered an execution, which has been decided so or not. -/
inductive Stance (m : Shared) (i t e : Nat) (after : List Happening) (o : Option Outcome) : Prop
  | registered (hp : m.phases[i]? = some (.registered t e o)) (hs : ∀ command, .sent i t e command ∉ after)
  | refused (cause : List String) (hp : m.phases[i]? = some (.refused t e cause))
      (hs : ∀ command, .sent i t e command ∉ after)
  | executing (hp : m.phases[i]? = some (.executing t e o)) (hs : ∃ command, .sent i t e command ∈ after)
  | returned (r : Outcome) (ho : o = some r) (hp : m.phases[i]? = some (.returned r))
      (hs : ∃ command, .sent i t e command ∈ after)
  | cancelled (o' : Option Outcome) (ho : o = none → o' = none) (hp : m.phases[i]? = some .cancelled)
      (hd : .dropped i (.executing t e o') ∈ after) (hs : ∃ command, .sent i t e command ∈ after)

/-- What has become of an execution, from all that has happened since it was registered. -/
inductive Fate (m : Shared) (i t e : Nat) (after : List Happening) : Prop
  | waits (hn : after.find? (·.decides t e) = none) (ha : m.attached = some t) (hp : (e, i) ∈ m.pending)
      (hi : m.Stance i t e after none)
  | decided (x : Happening) (hx : after.find? (·.decides t e) = some x) (hp : ∀ j, (e, j) ∉ m.pending)
      (hi : m.Stance i t e after (some x.verdict))
  | takenBack (cause : List String) (hp : ∀ j, (e, j) ∉ m.pending)
      (hi : m.phases[i]? = some (.returned (.error (.send cause)))) (hs : ∀ command, .sent i t e command ∉ after)

theorem Stance.phase (h : Stance m i t e after o) : ∃ p, m.phases[i]? = some p ∧ p.isEarly = false := by
  cases h with
  | registered hp | refused _ hp | executing hp | returned _ _ hp | cancelled _ _ hp =>
      exact ⟨_, hp, rfl⟩

theorem Stance.congr (h : Stance m i t e after o) (hi : m'.phases[i]? = m.phases[i]?) : Stance m' i t e after o := by
  cases h with
  | registered hp hs => exact .registered (hi.trans hp) hs
  | refused cause hp hs => exact .refused cause (hi.trans hp) hs
  | executing hp hs => exact .executing (hi.trans hp) hs
  | returned r ho hp hs => exact .returned r ho (hi.trans hp) hs
  | cancelled o' ho hp hd hs => exact .cancelled o' ho (hi.trans hp) hd hs

theorem not_sent_append (hs : ∀ command, .sent i t e command ∉ after) (hx : ∀ command, x ≠ .sent i t e command) :
    ∀ command, .sent i t e command ∉ after ++ [x] := by
  intro command hm
  rcases List.mem_append.1 hm with hm | hm
  · exact hs command hm
  · exact hx command (List.mem_singleton.1 hm).symm

theorem Stance.append (h : Stance m i t e after o) (hx : ∀ command, x ≠ .sent i t e command) :
    Stance m i t e (after ++ [x]) o := by
  cases h with
  | registered hp hs => exact .registered hp (not_sent_append hs hx)
  | refused cause hp hs => exact .refused cause hp (not_sent_append hs hx)
  | executing hp hs => exact .executing hp (hs.imp fun _ hm => List.mem_append_left _ hm)
  | returned r ho hp hs => exact .returned r ho hp (hs.imp fun _ hm => List.mem_append_left _ hm)
  | cancelled o' ho hp hd hs =>
      exact .cancelled o' ho hp (List.mem_append_left _ hd) (hs.imp fun _ hm => List.mem_append_left _ hm)

theorem Stance.tell (h : Stance m i t e after none) {r : Outcome} {es : List Nat} (he : e ∈ es)
    (hi : m'.phases[i]? = m.phases[i]?.map (Phase.told r es)) : Stance m' i t e after (some r) := by
  cases h with
  | registered hp hs => exact .registered (by rw [hi, hp]; simp [Phase.told, he]) hs
  | refused cause hp hs => exact .refused cause (by rw [hi, hp]; rfl) hs
  | executing hp hs => exact .executing (by rw [hi, hp]; simp [Phase.told, he]) hs
  | returned r' ho hp hs => simp at ho
  | cancelled o' ho hp hd hs => exact .cancelled o' (by simp) (by rw [hi, hp]; rfl) hd hs

theorem Stance.tell_other (h : Stance m i t e after o) {r : Outcome} {es : List Nat} (he : o = none → e ∉ es)
    (hi : m'.phases[i]? = m.phases[i]?.map (Phase.told r es)) : Stance m' i t e after o := by
  have hkeep : Phase.told r es (.registered t e o) = .registered t e o ∧
      Phase.told r es (.executing t e o) = .executing t e o := by
    cases o with
    | none => simp [Phase.told, he rfl]
    | some r' => exact ⟨rfl, rfl⟩
  cases h with
  | registered hp hs => exact .registered (by rw [hi, hp]; exact congrArg some hkeep.1) hs
  | refused cause hp hs => exact .refused cause (by rw [hi, hp]; rfl) hs
  | executing hp hs => exact .executing (by rw [hi, hp]; exact congrArg some hkeep.2) hs
  | returned r' ho hp hs => exact .returned r' ho (by rw [hi, hp]; rfl) hs
  | cancelled o' ho hp hd hs => exact .cancelled o' ho (by rw [hi, hp]; rfl) hd hs

theorem Fate.congr (h : Fate m i t e after) (ha : m'.attached = m.attached) (hp : m'.pending = m.pending)
    (hi : m'.phases[i]? = m.phases[i]?) : Fate m' i t e after := by
  cases h with
  | waits hn ha' hp' hi' => exact .waits hn (ha.trans ha') (hp ▸ hp') (hi'.congr hi)
  | decided x hx hp' hi' => exact .decided x hx (hp ▸ hp') (hi'.congr hi)
  | takenBack cause hp' hi' hs => exact .takenBack cause (hp ▸ hp') (hi.trans hi') hs

theorem find?_append_of_not (after : List Happening) (hx : x.decides t e = false) :
    (after ++ [x]).find? (·.decides t e) = after.find? (·.decides t e) := by
  simp [List.find?_append, hx]

theorem Fate.append (h : Fate m i t e after) (hx : x.decides t e = false) (hs : ∀ command, x ≠ .sent i t e command) :
    Fate m i t e (after ++ [x]) := by
  have hf := find?_append_of_not after hx
  cases h with
  | waits hn ha hp hi => exact .waits (hf.trans hn) ha hp (hi.append hs)
  | decided y hy hp hi => exact .decided y (hf.trans hy) hp (hi.append hs)
  | takenBack cause hp hi hs' => exact .takenBack cause hp hi (not_sent_append hs' hs)

theorem find?_append_of_some {y : Happening} (hy : after.find? (·.decides t e) = some y) (x : Happening) :
    (after ++ [x]).find? (·.decides t e) = some y := by
  simp [List.find?_append, hy]

theorem find?_append_of_none (hn : after.find? (·.decides t e) = none) (hx : x.decides t e = true) :
    (after ++ [x]).find? (·.decides t e) = some x := by
  simp [List.find?_append, hn, hx]

theorem Fate.phase (h : Fate m i t e after) : ∃ p, m.phases[i]? = some p ∧ p.isEarly = false := by
  cases h with
  | waits _ _ _ hi => exact hi.phase
  | decided _ _ _ hi => exact hi.phase
  | takenBack _ _ hi _ => exact ⟨_, hi, rfl⟩

theorem Fate.setPhase (h : Fate m i t e after) {j : Nat} {p : Phase} (hp : m.phases[j]? = some p)
    (he : p.isEarly = true) (q : Phase) : Fate (m.setPhase j q) i t e after := by
  refine h.congr rfl rfl (getElem?_setPhase_ne ?_ q)
  rintro rfl
  obtain ⟨q, hq, hne⟩ := h.phase
  cases hp.symm.trans hq
  exact absurd (he.symm.trans hne) (by simp)

theorem Fate.register (h : Fate m i t e after) (hs : m.Sound) (hr : m.RegisteredBefore i t e after) {j u : Nat}
    {p : Phase} (hp : m.phases[j]? = some p) (he : p.isEarly = true) :
    Fate { m.setPhase j (.registered u m.nextExecution none) with
      pending := m.pending ++ [(m.nextExecution, j)] } i t e (after ++ [.registered j u m.nextExecution]) := by
  have hlt := hs.numbered.lt_next hr.mem
  have hnew : ∀ k, (e, k) ∉ m.pending → (e, k) ∉ m.pending ++ [(m.nextExecution, j)] := by
    intro k hk hm
    have heq : e = m.nextExecution := congrArg Prod.fst (List.mem_singleton.1 ((List.mem_append.1 hm).resolve_left hk))
    omega
  have h' := (h.setPhase hp he (.registered u m.nextExecution none)).append (x := .registered j u m.nextExecution)
    rfl (by simp)
  cases h' with
  | waits hn ha hpend hi => exact .waits hn ha (List.mem_append_left _ hpend) (hi.congr rfl)
  | decided x hx hpend hi => exact .decided x hx (fun k => hnew k (hpend k)) (hi.congr rfl)
  | takenBack cause hpend hi hs => exact .takenBack cause (fun k => hnew k (hpend k)) hi hs

theorem Fate.send (h : Fate m i t e after) {j u e' : Nat} {reply : Option Outcome}
    (hp : m.phases[j]? = some (.registered u e' reply)) (command : String) :
    Fate (m.setPhase j (.executing u e' reply)) i t e (after ++ [.sent j u e' command]) := by
  by_cases hj : j = i
  · subst hj
    have hphase := getElem?_setPhase_eq hp (.executing u e' reply)
    have hstance : ∀ o, m.Stance j t e after o →
        (m.setPhase j (.executing u e' reply)).Stance j t e (after ++ [.sent j u e' command]) o := by
      intro o hi
      cases hi with
      | registered hp' hs =>
          obtain ⟨rfl, rfl, rfl⟩ : u = t ∧ e' = e ∧ reply = o := by simpa using hp.symm.trans hp'
          exact .executing hphase ⟨command, by simp⟩
      | refused _ hp' | executing hp' | returned _ _ hp' | cancelled _ _ hp' =>
          exact absurd (hp.symm.trans hp') (by simp)
    have hfind := find?_append_of_not (t := t) (e := e) after (x := .sent j u e' command) rfl
    cases h with
    | waits hn ha hpend hi => exact .waits (hfind.trans hn) ha hpend (hstance _ hi)
    | decided x hx hpend hi => exact .decided x (hfind.trans hx) hpend (hstance _ hi)
    | takenBack cause hpend hi hs => exact absurd (hp.symm.trans hi) (by simp)
  · exact (h.append rfl fun command' heq => hj (by simp at heq; exact heq.1)).congr rfl rfl (getElem?_setPhase_ne hj _)

theorem Fate.refuse (h : Fate m i t e after) {j u e' : Nat} {reply : Option Outcome} {cause : List String}
    (hp : m.phases[j]? = some (.registered u e' reply)) (command : String) :
    Fate (m.setPhase j (.refused u e' cause)) i t e (after ++ [.refused j u e' command]) := by
  have h' := h.append (x := .refused j u e' command) rfl (by simp)
  by_cases hj : j = i
  · subst hj
    have hphase := getElem?_setPhase_eq hp (.refused u e' cause)
    have hstance : ∀ after o, m.Stance j t e after o → (m.setPhase j (.refused u e' cause)).Stance j t e after o := by
      intro after o hi
      cases hi with
      | registered hp' hs =>
          obtain ⟨rfl, rfl, rfl⟩ : u = t ∧ e' = e ∧ reply = o := by simpa using hp.symm.trans hp'
          exact .refused cause hphase hs
      | refused _ hp' | executing hp' | returned _ _ hp' | cancelled _ _ hp' =>
          exact absurd (hp.symm.trans hp') (by simp)
    cases h' with
    | waits hn ha hpend hi => exact .waits hn ha hpend (hstance _ _ hi)
    | decided x hx hpend hi => exact .decided x hx hpend (hstance _ _ hi)
    | takenBack cause hpend hi hs => exact absurd (hp.symm.trans hi) (by simp)
  · exact h'.congr rfl rfl (getElem?_setPhase_ne hj _)

theorem Fate.takeBack (h : Fate m i t e after) (hs : m.Sound) (hr : m.RegisteredBefore i t e after) {j u e' : Nat}
    {cause : List String} (hp : m.phases[j]? = some (.refused u e' cause)) :
    Fate { m.setPhase j (.returned (.error (.send cause))) with pending := m.pending.filter (·.1 ≠ e') } i t e
      (after ++ [.returned j (.error (.send cause))]) := by
  have h' := h.append (x := .returned j (.error (.send cause))) rfl (by simp)
  have hreg := (hs.taken j _ u e' hp rfl).2
  by_cases hj : j = i
  · subst hj
    have hphase := getElem?_setPhase_eq hp (.returned (.error (.send cause)))
    have hback : ∀ after o, m.Stance j t e after o → e' = e ∧ ∀ command, .sent j t e command ∉ after := by
      intro after o hi
      cases hi with
      | refused cause' hp' hs =>
          obtain ⟨-, rfl, -⟩ : u = t ∧ e' = e ∧ cause = cause' := by simpa using hp.symm.trans hp'
          exact ⟨rfl, hs⟩
      | registered hp' | executing hp' | returned _ _ hp' | cancelled _ _ hp' =>
          exact absurd (hp.symm.trans hp') (by simp)
    cases h' with
    | waits hn ha hpend hi =>
        obtain ⟨rfl, hs⟩ := hback _ _ hi
        exact .takenBack cause (by simp) hphase hs
    | decided x hx hpend hi =>
        obtain ⟨rfl, hs⟩ := hback _ _ hi
        exact .takenBack cause (by simp) hphase hs
    | takenBack cause' hpend hi hs => exact absurd (hp.symm.trans hi) (by simp)
  · have hne : e ≠ e' := fun he => hj (hs.numbered.unique hreg (he ▸ hr.mem)).1
    have hphase := getElem?_setPhase_ne (m := m) hj (.returned (.error (.send cause)))
    cases h' with
    | waits hn ha hpend hi => exact .waits hn ha (List.mem_filter.2 ⟨hpend, by simpa using hne⟩) (hi.congr hphase)
    | decided x hx hpend hi => exact .decided x hx (fun k hk => hpend k (List.mem_filter.1 hk).1) (hi.congr hphase)
    | takenBack cause' hpend hi hs =>
        exact .takenBack cause' (fun k hk => hpend k (List.mem_filter.1 hk).1) (hphase.trans hi) hs

theorem Fate.finish (h : Fate m i t e after) {j : Nat} {p : Phase} {r : Outcome} (hp : m.phases[j]? = some p)
    (he : p.isEarly = true ∨ ∃ u e', p = .executing u e' (some r)) :
    Fate (m.setPhase j (.returned r)) i t e after := by
  rcases he with he | ⟨u, e', rfl⟩
  · exact h.setPhase hp he _
  by_cases hj : j = i
  · subst hj
    have hphase := getElem?_setPhase_eq hp (.returned r)
    have hstance : ∀ o, m.Stance j t e after o → o = some r ∧ ∃ command, .sent j t e command ∈ after := by
      intro o hi
      cases hi with
      | executing hp' hs =>
          obtain ⟨-, -, rfl⟩ : u = t ∧ e' = e ∧ some r = o := by simpa using hp.symm.trans hp'
          exact ⟨rfl, hs⟩
      | registered hp' | refused _ hp' | returned _ _ hp' | cancelled _ _ hp' =>
          exact absurd (hp.symm.trans hp') (by simp)
    cases h with
    | waits hn ha hpend hi => exact absurd (hstance _ hi).1 (by simp)
    | decided x hx hpend hi =>
        obtain ⟨ho, hs⟩ := hstance _ hi
        exact .decided x hx hpend (.returned r ho hphase hs)
    | takenBack cause hpend hi hs => exact absurd (hp.symm.trans hi) (by simp)
  · exact h.congr rfl rfl (getElem?_setPhase_ne hj _)

theorem Fate.drop (h : Fate m i t e after) {j : Nat} {p : Phase} (hp : m.phases[j]? = some p) (hw : p.waits = true) :
    Fate ((m.record (.dropped j p)).setPhase j .cancelled) i t e (after ++ [.dropped j p]) := by
  have h := h.append (x := .dropped j p) rfl (by simp)
  by_cases hj : j = i
  · subst hj
    have hphase := getElem?_setPhase_eq (m := m.record (.dropped j p)) hp .cancelled
    have hstance : ∀ o, m.Stance j t e (after ++ [.dropped j p]) o →
        ((m.record (.dropped j p)).setPhase j .cancelled).Stance j t e (after ++ [.dropped j p]) o := by
      intro o hi
      cases hi with
      | executing hp' hs =>
          cases hp.symm.trans hp'
          exact .cancelled o id hphase (by simp) hs
      | registered hp' | refused _ hp' | returned _ _ hp' | cancelled _ _ hp' =>
          cases hp.symm.trans hp'
          simp [Phase.waits] at hw
    cases h with
    | waits hn ha hpend hi => exact .waits hn ha hpend (hstance _ hi)
    | decided x hx hpend hi => exact .decided x hx hpend (hstance _ hi)
    | takenBack cause hpend hi hs =>
        cases hp.symm.trans hi
        simp [Phase.waits] at hw
  · exact h.congr rfl rfl (getElem?_setPhase_ne (m := m.record (.dropped j p)) hj _)

theorem Fate.stray (h : Fate m i t e after) {u e' : Nat} (hp : ∀ j, (e', j) ∉ m.pending) (code : Int) :
    Fate m i t e (after ++ [.heard u (.ended e' (some code))]) := by
  cases h with
  | waits hn ha hpend hi =>
      refine Fate.append (.waits hn ha hpend hi) ?_ (by simp)
      have hne : e' ≠ e := fun he => hp i (he ▸ hpend)
      simp [Happening.decides, hne]
  | decided x hx hpend hi => exact .decided x (find?_append_of_some hx _) hpend (hi.append (by simp))
  | takenBack cause hpend hi hs => exact .takenBack cause hpend hi (not_sent_append hs (by simp))

theorem Fate.settle (h : Fate m i t e after) (hn : (m.pending.map (·.1)).Nodup) {u e' j : Nat} (code : Int)
    (ha : m.attached = some u) (hp : (e', j) ∈ m.pending) :
    Fate { m with
      phases := m.phases.modify j (Phase.told (.ofCode code) [e'])
      pending := m.pending.filter (·.1 ≠ e')
      lifecycle := .ready } i t e (after ++ [.heard u (.ended e' (some code))]) := by
  have htold : (m.phases.modify j (Phase.told (.ofCode code) [e']))[i]? =
      m.phases[i]?.map (Phase.told (.ofCode code) (if j = i then [e'] else [])) := by
    rw [List.getElem?_modify]
    cases m.phases[i]? with
    | none => rfl
    | some p => by_cases hj : j = i <;> simp [hj, Phase.told_nil]
  have hnew : ∀ k, (e, k) ∉ m.pending → (e, k) ∉ m.pending.filter (·.1 ≠ e') :=
    fun k hk hm => hk (List.mem_filter.1 hm).1
  cases h with
  | waits hw hat hpend hi =>
      obtain rfl : t = u := Option.some.inj (hat.symm.trans ha)
      by_cases he : e' = e
      · subst he
        obtain rfl : j = i := congrArg Prod.snd (List.inj_on_of_nodup_map hn hp hpend rfl)
        rw [if_pos rfl] at htold
        exact .decided _ (find?_append_of_none hw (by simp [Happening.decides])) (by simp)
          ((hi.append (by simp)).tell List.mem_cons_self htold)
      · have hkeep : (e, i) ∈ m.pending.filter (·.1 ≠ e') :=
          List.mem_filter.2 ⟨hpend, by simpa using Ne.symm he⟩
        have hother : e ∉ if j = i then [e'] else [] := by split <;> simp [Ne.symm he]
        have hf : Fate { m with
            phases := m.phases.modify j (Phase.told (.ofCode code) [e'])
            pending := m.pending.filter (·.1 ≠ e')
            lifecycle := .ready } i t e after := .waits hw hat hkeep (hi.tell_other (fun _ => hother) htold)
        exact hf.append (by simp [Happening.decides, he]) (by simp)
  | decided x hx hpend hi =>
      exact .decided x (find?_append_of_some hx _) (fun k => hnew k (hpend k))
        ((hi.append (by simp)).tell_other (by simp) htold)
  | takenBack cause hpend hi hs =>
      refine .takenBack cause (fun k => hnew k (hpend k)) ?_ (not_sent_append hs (by simp))
      rw [htold, hi]
      rfl

theorem Fate.leave (h : Fate m i t e after) {u : Nat} (ha : m.attached = some u)
    (hx : x = .heard u .closed ∨ x = .cutOff u) :
    Fate { m with
      phases := m.phases.mapIdx fun i => Phase.told (.error .sessionLost) (executionsOf m.pending i)
      attached := none
      lifecycle := .absent
      pending := [] } i t e (after ++ [x]) := by
  have htold : (m.phases.mapIdx fun i => Phase.told (.error .sessionLost) (executionsOf m.pending i))[i]? =
      m.phases[i]?.map (Phase.told (.error .sessionLost) (executionsOf m.pending i)) := List.getElem?_mapIdx
  have hsent : ∀ command, x ≠ .sent i t e command := by rcases hx with rfl | rfl <;> simp
  cases h with
  | waits hw hat hpend hi =>
      obtain rfl : t = u := Option.some.inj (hat.symm.trans ha)
      have hd : x.decides t e = true := Happening.decides_iff.2 (.inr hx)
      have hv : x.verdict = .error .sessionLost := by rcases hx with rfl | rfl <;> rfl
      refine .decided x (find?_append_of_none hw hd) (by simp) ?_
      rw [hv]
      exact (hi.append hsent).tell ((mem_executionsOf ..).2 hpend) htold
  | decided y hy hpend hi =>
      exact .decided y (find?_append_of_some hy x) (by simp) ((hi.append hsent).tell_other (by simp) htold)
  | takenBack cause hpend hi hs =>
      refine .takenBack cause (by simp) ?_ (not_sent_append hs hsent)
      rw [htold, hi]
      rfl

def Fated (m : Shared) : Prop := ∀ i t e after, m.RegisteredBefore i t e after → Fate m i t e after

theorem Fated.record (h : m.Fated) (hx : ∀ i t e, x ≠ .registered i t e) (hp : m'.history = m.history ++ [x])
    (hf : ∀ i t e after, m.RegisteredBefore i t e after → Fate m i t e after → Fate m' i t e (after ++ [x])) :
    m'.Fated := by
  intro i t e after hr
  have hr : (m.record x).RegisteredBefore i t e after := by
    obtain ⟨before, he⟩ := hr
    exact ⟨before, hp.symm.trans he⟩
  obtain ⟨after', rfl, hr'⟩ | ⟨-, rfl⟩ := hr.of_record
  · exact hf i t e after' hr' (h i t e after' hr')
  · exact absurd rfl (hx i t e)

theorem Fated.move (h : m.Fated) (hs : m.Sound) (hm : Move m m') : m'.Fated := by
  cases hm with
  | note x hx =>
      have hd : ∀ t e, x.decides t e = false := by
        intro t e
        rw [Bool.eq_false_iff]
        intro hd
        obtain ⟨code, rfl⟩ | rfl | rfl := Happening.decides_iff.1 hd <;> simp [Happening.isRemark] at hx
      refine h.record ?_ rfl fun i t e after _ hf => (hf.append (hd t e) ?_).congr rfl rfl rfl
      · rintro i t e rfl
        simp [Happening.isRemark] at hx
      · rintro command rfl
        simp [Happening.isRemark] at hx
  | call =>
      intro i t e after hr
      have hf := h i t e after hr
      obtain ⟨p, hp, -⟩ := hf.phase
      exact hf.congr rfl rfl (List.getElem?_append_left (List.getElem?_eq_some_iff.1 hp).1)
  | queue j p hp he => exact fun i t e after hr => (h i t e after hr).setPhase hp he _
  | attach j u p hp he hsolo ha => exact fun i t e after hr => (h i t e after hr).setPhase hp he _
  | look j u hp hi => exact fun i t e after hr => (h i t e after hr).setPhase hp rfl _
  | announce j u hp =>
      exact h.record (by simp) rfl fun i t e after _ hf =>
        ((hf.setPhase hp rfl _).append rfl (by simp)).congr rfl rfl rfl
  | make j ha hn =>
      refine h.record (by simp) rfl fun i t e after _ hf => ?_
      have hf := hf.append (x := .opened j m.statuses.length) rfl (by simp)
      cases hf with
      | waits hn hat => exact absurd (hat.symm.trans ha) (by simp)
      | decided x hx hp hi => exact .decided x hx hp (hi.congr rfl)
      | takenBack cause hp hi hs => exact .takenBack cause hp hi hs
  | skip => exact fun i t e after hr => (h i t e after hr).congr rfl rfl rfl
  | register j u p hp he ha hi =>
      have hearly : p.isEarly = true := by rcases he with rfl | rfl <;> rfl
      intro i t e after hr
      obtain ⟨after, rfl, hr'⟩ | ⟨rfl, heq⟩ :=
        RegisteredBefore.of_record (m := m) (x := .registered j u m.nextExecution) hr
      · exact ((h i t e after hr').register hs hr' hp hearly).congr rfl rfl rfl
      · obtain ⟨rfl, rfl, rfl⟩ : j = i ∧ u = t ∧ m.nextExecution = e := by simpa using heq
        refine .waits rfl ha (List.mem_append_right _ List.mem_cons_self) (.registered ?_ (by simp))
        exact getElem?_setPhase_eq (m := m.record _) hp _
  | send j u e' reply command hp =>
      exact h.record (by simp) rfl fun i t e after _ hf => (hf.send hp command).congr rfl rfl rfl
  | refuse j u e' reply command cause hp =>
      exact h.record (by simp) rfl fun i t e after _ hf => (hf.refuse hp command).congr rfl rfl rfl
  | takeBack j u e' cause hp =>
      exact h.record (by simp) rfl fun i t e after hr hf => (hf.takeBack hs hr hp).congr rfl rfl rfl
  | finish j p r hp he =>
      exact h.record (by simp) rfl fun i t e after _ hf => ((hf.finish hp he).append rfl (by simp)).congr rfl rfl rfl
  | drop j p hp hw => exact h.record (by simp) rfl fun i t e after _ hf => hf.drop hp hw
  | integrate u ha =>
      exact h.record (by simp) rfl fun i t e after _ hf => (hf.append rfl (by simp)).congr rfl rfl rfl
  | shown u ha hi =>
      exact h.record (by simp) rfl fun i t e after _ hf => (hf.append rfl (by simp)).congr rfl rfl rfl
  | subshell u e' j hp =>
      exact h.record (by simp) rfl fun i t e after _ hf => (hf.append rfl (by simp)).congr rfl rfl rfl
  | stray u e' code hp =>
      exact h.record (by simp) rfl fun i t e after _ hf => (hf.stray hp code).congr rfl rfl rfl
  | settle u e' j code ha hp =>
      exact h.record (by simp) rfl fun i t e after _ hf =>
        (hf.settle hs.pending_nodup code ha hp).congr rfl rfl rfl
  | leave u x ha hx =>
      refine h.record ?_ rfl fun i t e after _ hf => (hf.leave ha hx).congr rfl rfl rfl
      rcases hx with rfl | rfl <;> simp

theorem Fated.moves (h : m.Fated) (hs : m.Sound) (hm : Moves m m') : m'.Fated := by
  induction hm with
  | refl => exact h
  | tail hms hm ih => exact ih.move (hs.moves hms) hm

end Shared

variable {σ : Type} {H : Host σ} {s : Session σ} {i t e : Nat} {command : String} {before after : List Happening}

theorem Reachable.fated (h : Reachable H s) : s.shared.Fated := by
  induction h with
  | start name host =>
      rintro i t e after ⟨before, he⟩
      exact absurd he (by simp [shared])
  | step h hs ih => exact ih.moves h.sound (hs.moves h.sound h.orderly.hasTurn)

theorem Reachable.fate (h : Reachable H s) (hs : s.history = before ++ .registered i t e :: after) :
    s.shared.Fate i t e after :=
  h.fated i t e after ⟨before, hs⟩

theorem Reachable.execution_of_pending (h : Reachable H s) {e i : Nat} (hp : (e, i) ∈ s.pending) :
    s.phase? i = some .cancelled ∨ ∃ p t, s.phase? i = some p ∧ p.execution? = some (t, e) := by
  obtain ⟨t, -, hreg⟩ := h.sound.registered_of_pending e i hp
  obtain ⟨before, after, he⟩ := List.append_of_mem hreg
  rw [← s.phases_getElem? i]
  cases h.fate he with
  | waits hn ha hp' hi =>
      cases hi with
      | registered hi | refused _ hi | executing hi => exact .inr ⟨_, t, hi, rfl⟩
      | returned r ho => simp at ho
      | cancelled o ho hi => exact .inl hi
  | decided x hx hnp => exact absurd hp (hnp i)
  | takenBack cause hnp => exact absurd hp (hnp i)

theorem Reachable.exists_sent_of_executing (h : Reachable H s) {o : Option Outcome}
    (hp : s.phase? i = some (.executing t e o)) : ∃ command, .sent i t e command ∈ s.history := by
  have hp' : s.shared.phases[i]? = some (.executing t e o) := (s.phases_getElem? i).trans hp
  obtain ⟨before, after, he⟩ := List.append_of_mem (h.sound.taken i _ t e hp' rfl).2
  have hhistory : s.history = before ++ .registered i t e :: after := he
  have hstance : ∀ o', s.shared.Stance i t e after o' → ∃ command, .sent i t e command ∈ s.history := by
    intro o' hi
    cases hi with
    | executing hq hs => exact hs.imp fun _ hm => by simp [hhistory, hm]
    | registered hq | refused _ hq | returned _ _ hq | cancelled _ _ hq => exact absurd (hp'.symm.trans hq) (by simp)
  cases h.fate hhistory with
  | waits hn ha hpend hi => exact hstance _ hi
  | decided x hx hpend hi => exact hstance _ hi
  | takenBack cause hpend hi hs => exact absurd (hp'.symm.trans hi) (by simp)

theorem Reachable.runnable_of_reply (h : Reachable H s) {r : Outcome}
    (hp : s.phase? i = some (.executing t e (some r))) : .call i ∈ s.runnable := by
  have ht := h.orderly.hasTurn i _ hp (by simp [Phase.terminal?])
  obtain ⟨c, hc, hcp⟩ := (s.phase?_eq_some_iff i).1 hp
  have hat := ((h.orderly.stands i c hc).atTurn ht).2
  rw [hcp] at hat
  exact hat

/-- A call that has sent its command, unless it is dropped, returns after the first happening that decides since
it registered its execution, not before, and what it returns is what that happening says. -/
theorem result_decided_by_first (h : Reachable H s) (hs : s.history = before ++ .registered i t e :: after)
    (hsent : .sent i t e command ∈ after) (hc : s.phase? i ≠ some .cancelled) :
    (after.find? (·.decides t e) = none → s.result? i = none) ∧
    ∀ x, after.find? (·.decides t e) = some x →
      (s.runnable = [] → s.result? i ≠ none) ∧
      ∀ r, s.result? i = some r →
        (r = .ok ↔ x = .heard t (.ended e (some 0))) ∧
        (∀ code, r = .error (.commandFailed code) ↔ code ≠ 0 ∧ x = .heard t (.ended e (some code))) ∧
        (r = .error .sessionLost ↔ x = .heard t .closed ∨ x = .cutOff t) := by
  have hphase : s.shared.phases[i]? = s.phase? i := s.phases_getElem? i
  -- Of a call that has sent its command and was not dropped, two phases are left.
  have hstance : ∀ o, s.shared.Stance i t e after o →
      s.phase? i = some (.executing t e o) ∨ ∃ r, o = some r ∧ s.phase? i = some (.returned r) := by
    intro o hi
    cases hi with
    | registered hp hns => exact absurd hsent (hns command)
    | refused cause hp hns => exact absurd hsent (hns command)
    | executing hp hs => exact .inl (hphase.symm.trans hp)
    | returned r ho hp hs => exact .inr ⟨r, ho, hphase.symm.trans hp⟩
    | cancelled o' ho hp => exact absurd (hphase.symm.trans hp) hc
  -- What has become of the execution is read off what has happened since it was registered.
  cases h.fate hs with
  | waits hn ha hp hi =>
      refine ⟨fun _ => ?_, fun x hx => absurd (hn.symm.trans hx) (by simp)⟩
      rcases hstance _ hi with hi | ⟨r, ho, -⟩
      · simp [result?, hi]
      · simp at ho
  | decided y hy hp hi =>
      refine ⟨fun hn => absurd (hn.symm.trans hy) (by simp), ?_⟩
      intro x hx
      obtain rfl : y = x := Option.some.inj (hy.symm.trans hx)
      refine ⟨fun hidle => ?_, fun r hr => ?_⟩
      · rcases hstance _ hi with hi | ⟨r, -, hi⟩
        · exact absurd (h.runnable_of_reply hi) (by simp [hidle])
        · simp [result?, hi]
      · rw [result?_eq_some_iff] at hr
        obtain rfl : r = y.verdict := by
          rcases hstance _ hi with hi | ⟨r', ho, hi⟩
          · cases hr.symm.trans hi
          · cases hr.symm.trans hi
            exact (Option.some.inj ho).symm
        exact verdict_of_decides (List.find?_some hy)
  | takenBack cause hp hi hns => exact absurd hsent (hns command)

def twoCommands : Session Script :=
  let s : Session Script :=
    { name := "helm", host := { integrates := true, replies := [.ended none, .ended (some 3)] } }
  let events := [.ended 1 (some 0), .integrated, .ended 9 (some 1), .ended 2 (some 0)]
  ((((s.exec "make").exec "ctest").settle Script.host).post 0 events).settle Script.host

theorem reachable_twoCommands : Reachable Script.host twoCommands :=
  (((((Reachable.start ..).step (.exec "make")).step (.exec "ctest")).settle).step (.post 0 _)).settle

theorem twoCommands_result_decided : twoCommands.phase? 1 ≠ some .cancelled ∧ twoCommands.runnable = [] ∧
    twoCommands.result? 1 = some .ok := by
  have hc : twoCommands.phase? 1 ≠ some .cancelled := by decide
  have hs : twoCommands.history =
      twoCommands.history.take 11 ++ .registered 1 0 2 :: twoCommands.history.drop 12 := rfl
  have hsent : .sent 1 0 2 "ctest" ∈ twoCommands.history.drop 12 := by decide
  have hx := (result_decided_by_first reachable_twoCommands hs hsent hc).2 (.heard 0 (.ended 2 (some 0))) rfl
  obtain ⟨r, hres⟩ := Option.ne_none_iff_exists'.1 (hx.1 rfl)
  obtain rfl : r = .ok := (hx.2 r hres).1.2 rfl
  exact ⟨hc, rfl, hres⟩

def closedBeforeSending : Session Script :=
  let s : Session Script := { name := "helm", host := { integrates := true } }
  let s := (s.exec "make").interleave Script.host [.call 0, .dispatcher 0, .dispatcher 0, .call 0]
  (s.post 0 [.closed]).interleave Script.host [.dispatcher 0, .call 0, .call 0, .dispatcher 0]

theorem reachable_closedBeforeSending : Reachable Script.host closedBeforeSending :=
  ((((Reachable.start ..).step (.exec "make")).interleave _).step (.post 0 _)).interleave _

/-- The call returns although nothing that decides has happened since it sent its command. -/
theorem closedBeforeSending_undecided_since_sending : Reachable Script.host closedBeforeSending ∧
    ∃ before after, closedBeforeSending.history = before ++ .sent 0 0 1 "make" :: after ∧
      closedBeforeSending.phase? 0 ≠ some .cancelled ∧ after.find? (·.decides 0 1) = none ∧
        closedBeforeSending.result? 0 = some (.error .sessionLost) :=
  ⟨reachable_closedBeforeSending, closedBeforeSending.history.take 6, closedBeforeSending.history.drop 7, rfl,
    by decide, rfl, rfl⟩

end CMakeHelm.Session
