import CMakeHelm.Proofs.Session.Attempt

namespace CMakeHelm.Session

def Happening.asker? : Happening → Option Nat
  | .asked i => some i
  | _ => none

def Happening.ender? : Happening → Option Nat
  | .returned i _ | .dropped i _ => some i
  | _ => none

def Happening.actor? : Happening → Option Nat
  | .opened i _ | .sent i _ _ _ | .refused i _ _ _ => some i
  | _ => none

def askers (history : List Happening) : List Nat := history.filterMap Happening.asker?

def enders (history : List Happening) : List Nat := history.filterMap Happening.ender?

def outstanding (history : List Happening) : List Nat :=
  (askers history).filter fun i => i ∉ enders history

/-- A call acts when it has asked for the turn and all that asked before it are over. -/
def InTurn (before : List Happening) (x : Happening) : Prop :=
  ∀ j, x.actor? = some j → j ∈ askers before ∧ ∀ i, [i, j].Sublist (askers before) → i ∈ enders before

variable {history : List Happening} {x : Happening} {i j : Nat} {waiting : List Nat}

theorem mem_enders : i ∈ enders history ↔ (∃ r, .returned i r ∈ history) ∨ ∃ p, .dropped i p ∈ history := by
  simp only [enders, List.mem_filterMap]
  constructor
  · rintro ⟨x, hx, he⟩
    cases x with
    | returned j r =>
        obtain rfl : j = i := Option.some.inj he
        exact .inl ⟨r, hx⟩
    | dropped j p =>
        obtain rfl : j = i := Option.some.inj he
        exact .inr ⟨p, hx⟩
    | asked | opened | announced | registered | sent | refused | heard | shown | cutOff => simp [Happening.ender?] at he
  · rintro (⟨r, hx⟩ | ⟨p, hx⟩)
    · exact ⟨_, hx, rfl⟩
    · exact ⟨_, hx, rfl⟩

theorem askers_concat : askers (history ++ [x]) = askers history ++ x.asker?.toList := by
  cases hx : x.asker? <;> simp [askers, hx]

theorem enders_concat : enders (history ++ [x]) = enders history ++ x.ender?.toList := by
  cases hx : x.ender? <;> simp [enders, hx]

theorem outstanding_concat (ha : x.asker? = none) (he : x.ender? = none) :
    outstanding (history ++ [x]) = outstanding history := by
  simp [outstanding, askers_concat, enders_concat, ha, he]

theorem outstanding_ask (hi : i ∉ enders history) :
    outstanding (history ++ [.asked i]) = outstanding history ++ [i] := by
  simp [outstanding, askers_concat, enders_concat, Happening.asker?, Happening.ender?, hi]

theorem outstanding_end (ha : x.asker? = none) (he : x.ender? = some i) :
    outstanding (history ++ [x]) = (outstanding history).filter (· ≠ i) := by
  rw [outstanding, askers_concat, enders_concat, ha, he, outstanding, List.filter_filter]
  simp [Bool.and_comm]

theorem sublist_of_append {l more : List Nat} (h : [i, j].Sublist (l ++ more)) (hj : j ∉ more) :
    [i, j].Sublist l := by
  obtain ⟨front, back, he, hf, hb⟩ := List.sublist_append_iff.1 h
  rcases List.eq_nil_or_concat back with rfl | ⟨back, k, rfl⟩
  · rw [List.append_nil] at he
    exact he ▸ hf
  · have hk : j = k := by simpa using congrArg List.getLast? he
    exact absurd (hb.subset (by simp [hk])) hj

theorem filter_mem_concat {taken before after : List Nat} (hn : (before ++ i :: after).Nodup)
    (ht : taken = (before ++ i :: after).filter (· ∈ taken)) (hi : i ∉ taken) (ha : ∀ j ∈ after, j ∉ taken) :
    taken ++ [i] = (before ++ i :: after).filter (· ∈ taken ++ [i]) := by
  rw [List.nodup_append, List.nodup_cons] at hn
  obtain ⟨-, ⟨hia, -⟩, hbi⟩ := hn
  have hbefore : before.filter (· ∈ taken ++ [i]) = before.filter (· ∈ taken) := by
    apply List.filter_congr
    intro k hk
    have hne : k ≠ i := hbi k hk i List.mem_cons_self
    simp [hne]
  have hafter : after.filter (· ∈ taken ++ [i]) = [] := by
    rw [List.filter_eq_nil_iff]
    intro k hk
    have hne : k ≠ i := fun he => hia (he ▸ hk)
    simp [hne, ha k hk]
  have htaken : taken = before.filter (· ∈ taken) := by
    have hnone : after.filter (· ∈ taken) = [] := by
      rw [List.filter_eq_nil_iff]
      intro k hk
      simpa using ha k hk
    rwa [List.filter_append, List.filter_cons_of_neg (by simpa using hi), hnone, List.append_nil] at ht
  rw [List.filter_append, List.filter_cons_of_pos (by simp), hbefore, hafter, ← htaken]

theorem mem_enders_of_first (ho : outstanding history = j :: waiting) (hn : (j :: waiting).Nodup)
    (hs : [i, j].Sublist (askers history)) : i ∈ enders history := by
  by_contra hi
  have hj : j ∈ outstanding history := ho ▸ List.mem_cons_self
  have hlive := hs.filter fun k => k ∉ enders history
  rw [show (askers history).filter _ = j :: waiting from ho] at hlive
  have hkeep : [i, j].filter (fun k => k ∉ enders history) = [i, j] := by
    have hj := (List.mem_filter.1 hj).2
    simp [hi, of_decide_eq_true hj]
  rw [hkeep] at hlive
  have hlate : j ∈ waiting := by
    cases hlive with
    | cons _ h => exact h.subset (by simp)
    | cons_cons _ h => exact h.subset (by simp)
  exact (List.nodup_cons.1 hn).1 hlate

/-- How far a call has come: it has yet to give its command to a terminal, it has done so, or it is over. -/
inductive Stage where
  | early
  | given
  | ended
deriving DecidableEq

def Phase.stage : Phase → Stage
  | .fresh | .queued | .attached _ | .announcing _ | .integrating _ | .registered .. => .early
  | .refused .. | .executing .. => .given
  | .returned _ | .cancelled => .ended

structure Entry where
  command : String
  stage : Stage

/-- The calls of a session, and who of them has the turn and who waits for it. -/
structure CallQueue where
  entries : List Entry
  turn : Option Nat
  waiting : List Nat
  history : List Happening

namespace CallQueue

variable (q : CallQueue)

def record (x : Happening) : CallQueue := { q with history := q.history ++ [x] }

def setStage (i : Nat) (stage : Stage) : CallQueue :=
  { q with entries := q.entries.modify i ({ · with stage }) }

def release : CallQueue := { q with turn := q.waiting.head?, waiting := q.waiting.tail }

def leave (i : Nat) : CallQueue :=
  if q.turn = some i then q.release else { q with waiting := q.waiting.erase i }

inductive Move (q : CallQueue) : CallQueue → Prop
  | call (command : String) : Move q { q with entries := q.entries ++ [⟨command, .early⟩] }
  | take (i : Nat) (command : String) (hc : q.entries[i]? = some ⟨command, .early⟩) (ht : q.turn = none) :
      Move q { q.record (.asked i) with turn := some i }
  | queue (i : Nat) (command : String) (hc : q.entries[i]? = some ⟨command, .early⟩) (hf : q.turn ≠ none)
      (ht : q.turn ≠ some i) (hw : i ∉ q.waiting) :
      Move q { q.record (.asked i) with waiting := q.waiting ++ [i] }
  | make (i t : Nat) (ht : q.turn = some i) : Move q (q.record (.opened i t))
  | give (x : Happening) (a : Attempt) (hx : x.attempt? = some a)
      (hc : q.entries[a.call]? = some ⟨a.command, .early⟩) (ht : q.turn = some a.call) :
      Move q ((q.record x).setStage a.call .given)
  | leave (x : Happening) (i : Nat) (c : Entry) (hx : x.ender? = some i) (hc : q.entries[i]? = some c) :
      Move q (((q.record x).setStage i .ended).leave i)
  | report (x : Happening) (ha : x.asker? = none) (he : x.ender? = none) (hx : x.actor? = none) : Move q (q.record x)

abbrev Moves : CallQueue → CallQueue → Prop := Relation.ReflTransGen Move

/-- How the turn, the calls and the history agree. -/
structure Ordered (q : CallQueue) : Prop where
  outstanding_eq : outstanding q.history = q.turn.toList ++ q.waiting
  nodup : (q.turn.toList ++ q.waiting).Nodup
  free : q.turn = none → q.waiting = []
  asked_once : (askers q.history).Nodup
  ended : ∀ i ∈ enders q.history, ∃ command, q.entries[i]? = some ⟨command, .ended⟩
  given : ∀ a ∈ attempts q.history, ∃ stage, q.entries[a.call]? = some ⟨a.command, stage⟩ ∧ stage ≠ .early
  given_once : ((attempts q.history).map (·.call)).Nodup
  given_eq : (attempts q.history).map (·.call) =
    (askers q.history).filter (· ∈ (attempts q.history).map (·.call))
  inTurn : AtEach InTurn q.history

variable {q : CallQueue} {q' : CallQueue}

theorem setStage_self {command : String} {stage : Stage} (hc : q.entries[i]? = some ⟨command, stage⟩) :
    q.setStage i stage = q := by
  have hp : q.entries.modify i ({ · with stage }) = q.entries := by
    apply List.ext_getElem?
    intro j
    rw [List.getElem?_modify]
    by_cases hj : i = j
    · subst hj
      simp [hc]
    · simp [hj]
  rw [setStage, hp]

theorem Ordered.notMem_enders (h : q.Ordered) {command : String} {stage : Stage}
    (hc : q.entries[i]? = some ⟨command, stage⟩) (hs : stage ≠ .ended) : i ∉ enders q.history := by
  intro hi
  obtain ⟨command', ho⟩ := h.ended i hi
  cases hc.symm.trans ho
  exact hs rfl

theorem Ordered.notMem_given (h : q.Ordered) {command : String} (hc : q.entries[i]? = some ⟨command, .early⟩) :
    i ∉ (attempts q.history).map (·.call) := by
  intro hi
  obtain ⟨a, ha, rfl⟩ := List.mem_map.1 hi
  obtain ⟨stage, hg, hs⟩ := h.given a ha
  cases hc.symm.trans hg
  exact hs rfl

theorem Ordered.first (h : q.Ordered) (ht : q.turn = some i) :
    outstanding q.history = i :: q.waiting ∧ (i :: q.waiting).Nodup := by
  have ho := h.outstanding_eq
  have hn := h.nodup
  rw [ht] at ho hn
  exact ⟨ho, hn⟩

theorem Ordered.inTurn_of_turn (h : q.Ordered) (ht : q.turn = some i) (hx : x.actor? = some i) :
    InTurn q.history x := by
  obtain ⟨ho, hn⟩ := h.first ht
  intro j hj
  obtain rfl : i = j := Option.some.inj (hx.symm.trans hj)
  have hmem : i ∈ outstanding q.history := ho ▸ List.mem_cons_self
  exact ⟨(List.mem_filter.1 hmem).1, fun k hk => mem_enders_of_first ho hn hk⟩

theorem Ordered.congr (h : q.Ordered) (hh : q'.history = q.history) (ht : q'.turn = q.turn)
    (hw : q'.waiting = q.waiting)
    (hp : ∀ (i : Nat) (c : Entry), q.entries[i]? = some c → q'.entries[i]? = some c) : q'.Ordered where
  outstanding_eq := by rw [hh, ht, hw]; exact h.outstanding_eq
  nodup := by rw [ht, hw]; exact h.nodup
  free := by rw [ht, hw]; exact h.free
  asked_once := hh ▸ h.asked_once
  ended := by
    rw [hh]
    exact fun i hi => (h.ended i hi).imp fun _ hc => hp i _ hc
  given := by
    rw [hh]
    exact fun a ha => (h.given a ha).imp fun _ hc => ⟨hp _ _ hc.1, hc.2⟩
  given_once := hh ▸ h.given_once
  given_eq := hh ▸ h.given_eq
  inTurn := hh ▸ h.inTurn

theorem Ordered.note (h : q.Ordered) {x : Happening} (ha : x.asker? = none) (he : x.ender? = none)
    (hg : x.attempt? = none) (hx : InTurn q.history x) : (q.record x).Ordered := by
  have haskers : askers (q.history ++ [x]) = askers q.history := by simp [askers_concat, ha]
  have henders : enders (q.history ++ [x]) = enders q.history := by simp [enders_concat, he]
  have hattempts : attempts (q.history ++ [x]) = attempts q.history := by simp [attempts_concat, hg]
  exact
    { outstanding_eq := (outstanding_concat ha he).trans h.outstanding_eq, nodup := h.nodup, free := h.free
      asked_once := haskers.symm ▸ h.asked_once, ended := fun i hi => h.ended i (henders ▸ hi)
      given := fun a hi => h.given a (hattempts ▸ hi), given_once := hattempts.symm ▸ h.given_once
      given_eq := by simpa only [record, haskers, hattempts] using h.given_eq
      inTurn := h.inTurn.concat hx }

theorem Ordered.ask (h : q.Ordered) {command : String} (hc : q.entries[i]? = some ⟨command, .early⟩)
    (hi : i ∉ outstanding q.history) {turn : Option Nat} {waiting : List Nat}
    (ho : outstanding q.history ++ [i] = turn.toList ++ waiting) (hf : turn = none → waiting = []) :
    Ordered { q.record (.asked i) with turn, waiting } := by
  have hlive : i ∉ enders q.history := h.notMem_enders hc (by simp)
  have haskers : askers (q.history ++ [.asked i]) = askers q.history ++ [i] := askers_concat
  have henders : enders (q.history ++ [.asked i]) = enders q.history := by simp [enders_concat, Happening.ender?]
  have hattempts : attempts (q.history ++ [.asked i]) = attempts q.history := by
    simp [attempts_concat, Happening.attempt?]
  have hnew : i ∉ askers q.history := fun hm => hi (List.mem_filter.2 ⟨hm, by simpa using hlive⟩)
  refine
    { outstanding_eq := (outstanding_ask hlive).trans ho, nodup := ?_, free := hf, asked_once := ?_
      ended := fun k hk => h.ended k (henders ▸ hk), given := fun a hk => h.given a (hattempts ▸ hk)
      given_once := hattempts.symm ▸ h.given_once, given_eq := ?_
      inTurn := h.inTurn.concat (by simp [InTurn, Happening.actor?]) }
  · have hnodup : (outstanding q.history ++ [i]).Nodup := by
      rw [← List.concat_eq_append]
      exact List.Nodup.concat hi (h.outstanding_eq ▸ h.nodup)
    exact ho ▸ hnodup
  · rw [record, haskers, ← List.concat_eq_append]
    exact List.Nodup.concat hnew h.asked_once
  · have hnot := h.notMem_given hc
    simp only [record, haskers, hattempts, List.filter_append]
    rw [← h.given_eq, List.filter_cons_of_neg (by simpa using hnot), List.filter_nil, List.append_nil]

theorem Ordered.notMem_given_of_late (h : q.Ordered) (ht : q.turn = some i) {before after : List Nat}
    (hs : askers q.history = before ++ i :: after) (hj : j ∈ after) : j ∉ (attempts q.history).map (·.call) := by
  intro hm
  obtain ⟨a, ha, rfl⟩ := List.mem_map.1 hm
  obtain ⟨x, hx, hxa⟩ := List.mem_filterMap.1 ha
  obtain ⟨early, late, he⟩ := List.append_of_mem hx
  have hactor : x.actor? = some a.call := by
    cases x <;> simp [Happening.attempt?] at hxa
    · simp [Happening.actor?, ← hxa]
    · simp [Happening.actor?, ← hxa]
  obtain ⟨hmem, hover⟩ := h.inTurn early x late he a.call hactor
  -- What was asked by then is a beginning of all that has been asked, so call `i` had asked before.
  obtain ⟨more, hmore⟩ : ∃ more, askers q.history = askers early ++ more := by
    rw [he, askers, List.filterMap_append]
    exact ⟨_, rfl⟩
  have hasked : [i, a.call].Sublist (askers early) := by
    have hnodup := h.asked_once
    rw [hmore, List.nodup_append] at hnodup
    have hlate : a.call ∉ more := fun hlate => hnodup.2.2 _ hmem _ hlate rfl
    refine sublist_of_append ?_ hlate
    rw [← hmore, hs]
    exact List.Sublist.append (List.nil_sublist before) ((List.singleton_sublist.2 hj).cons_cons i)
  have hlive := (h.first ht).1 ▸ List.mem_cons_self
  have hends : i ∈ enders q.history := by
    rw [he, enders, List.filterMap_append]
    exact List.mem_append_left _ (hover i hasked)
  exact absurd hends (by simpa using (List.mem_filter.1 hlive).2)

theorem Ordered.give (h : q.Ordered) {x : Happening} {a : Attempt} (hx : x.attempt? = some a)
    (hc : q.entries[a.call]? = some ⟨a.command, .early⟩) (ht : q.turn = some a.call) :
    ((q.record x).setStage a.call .given).Ordered := by
  have hkinds : x.asker? = none ∧ x.ender? = none ∧ x.actor? = some a.call := by
    cases x <;> simp [Happening.attempt?] at hx <;>
      simp [Happening.asker?, Happening.ender?, Happening.actor?, ← hx]
  obtain ⟨ha, he, hactor⟩ := hkinds
  have haskers : askers (q.history ++ [x]) = askers q.history := by simp [askers_concat, ha]
  have henders : enders (q.history ++ [x]) = enders q.history := by simp [enders_concat, he]
  have hattempts : attempts (q.history ++ [x]) = attempts q.history ++ [a] := by simp [attempts_concat, hx]
  have hlive : a.call ∉ enders q.history := h.notMem_enders hc (by simp)
  have hnew := h.notMem_given hc
  have hother : ∀ (k : Nat) (c : Entry), k ≠ a.call → q.entries[k]? = some c →
      ((q.record x).setStage a.call .given).entries[k]? = some c := by
    intro k c hk hc
    exact (List.getElem?_modify_ne _ _ (Ne.symm hk)).trans hc
  refine
    { outstanding_eq := (outstanding_concat ha he).trans h.outstanding_eq, nodup := h.nodup, free := h.free
      asked_once := haskers.symm ▸ h.asked_once, ended := ?_, given := ?_, given_once := ?_, given_eq := ?_
      inTurn := h.inTurn.concat (h.inTurn_of_turn ht hactor) }
  · intro k hk
    have hk : k ∈ enders q.history := henders ▸ hk
    exact (h.ended k hk).imp fun command ho => hother k _ (fun he => hlive (he ▸ hk)) ho
  · intro b hb
    have hb : b ∈ attempts q.history ++ [a] := hattempts ▸ hb
    rcases List.mem_append.1 hb with hb | hb
    · obtain ⟨stage, hg, hs⟩ := h.given b hb
      exact ⟨stage, hother _ _ (fun he => hnew (he ▸ List.mem_map_of_mem hb)) hg, hs⟩
    · obtain rfl := List.mem_singleton.1 hb
      exact ⟨.given, by simp [setStage, record, hc], by simp⟩
  · simp only [setStage, record, hattempts, List.map_append, List.map_cons, List.map_nil]
    rw [← List.concat_eq_append]
    exact List.Nodup.concat hnew h.given_once
  · -- All that asked after this call have yet to give their commands, so its own is the last.
    have hmem : a.call ∈ askers q.history := (List.mem_filter.1 ((h.first ht).1 ▸ List.mem_cons_self)).1
    obtain ⟨before, after, hs⟩ := List.append_of_mem hmem
    have hnodup := h.asked_once
    have heq := h.given_eq
    simp only [setStage, record, haskers, hattempts, List.map_append, List.map_cons, List.map_nil]
    rw [hs] at hnodup heq ⊢
    exact filter_mem_concat hnodup heq hnew fun k hk => h.notMem_given_of_late ht hs hk

theorem leave_history : (q.leave i).history = q.history := by
  unfold leave
  split <;> rfl

theorem leave_entries : (q.leave i).entries = q.entries := by
  unfold leave
  split <;> rfl

theorem leave_turn_waiting (hn : (q.turn.toList ++ q.waiting).Nodup) :
    (q.leave i).turn.toList ++ (q.leave i).waiting = (q.turn.toList ++ q.waiting).filter (· ≠ i) := by
  unfold leave
  split
  · next ht =>
    rw [ht] at hn ⊢
    have hi : i ∉ q.waiting := (List.nodup_cons.1 hn).1
    have hrest : q.waiting.filter (· ≠ i) = q.waiting := by
      rw [List.filter_eq_self]
      intro k hk
      have hne : k ≠ i := fun he => hi (he ▸ hk)
      simpa using hne
    rw [Option.toList_some, List.singleton_append, List.filter_cons_of_neg (by simp), hrest]
    cases hw : q.waiting <;> simp [release, hw]
  · next ht =>
    have hfirst : q.turn.toList.filter (· ≠ i) = q.turn.toList := by
      cases hd : q.turn with
      | none => rfl
      | some k =>
          have hk : k ≠ i := fun he => ht (hd.trans (congrArg some he))
          simp [hk]
    have hw : q.waiting.Nodup := (List.nodup_append.1 hn).2.1
    have hrest : q.waiting.erase i = q.waiting.filter (· ≠ i) :=
      (hw.erase_eq_filter i).trans (List.filter_congr fun k _ => by simp [bne, beq_eq_decide])
    rw [List.filter_append, hfirst, hrest]

theorem Ordered.leave (h : q.Ordered) {x : Happening} {c : Entry} (hx : x.ender? = some i)
    (hc : q.entries[i]? = some c) : (((q.record x).setStage i .ended).leave i).Ordered := by
  have hkinds : x.asker? = none ∧ x.attempt? = none ∧ x.actor? = none := by
    cases x <;> simp [Happening.ender?] at hx <;>
      simp [Happening.asker?, Happening.attempt?, Happening.actor?]
  obtain ⟨ha, hg, hactor⟩ := hkinds
  have haskers : askers (q.history ++ [x]) = askers q.history := by simp [askers_concat, ha]
  have henders : enders (q.history ++ [x]) = enders q.history ++ [i] := by simp [enders_concat, hx]
  have hattempts : attempts (q.history ++ [x]) = attempts q.history := by simp [attempts_concat, hg]
  have hentry : ∀ (k : Nat) (c : Entry), q.entries[k]? = some c →
      ((q.record x).setStage i .ended).entries[k]? = some (if i = k then { c with stage := .ended } else c) := by
    intro k c hk
    have hm := List.getElem?_modify ({ · with stage := .ended }) i q.entries k
    rw [hk] at hm
    exact hm
  have hleave := leave_turn_waiting (q := (q.record x).setStage i .ended) (i := i) h.nodup
  refine
    { outstanding_eq := ?_, nodup := hleave ▸ h.nodup.filter _, free := ?_, asked_once := ?_, ended := ?_
      given := ?_, given_once := ?_, given_eq := ?_, inTurn := ?_ }
  · rw [leave_history, hleave]
    exact (outstanding_end ha hx).trans (congrArg (List.filter (· ≠ i)) h.outstanding_eq)
  · unfold CallQueue.leave
    split
    · intro hf
      rw [release, List.head?_eq_none_iff.1 hf]
      rfl
    · intro hf
      rw [show ((q.record x).setStage i .ended).waiting = [] from h.free hf]
      rfl
  · rw [leave_history]
    exact haskers.symm ▸ h.asked_once
  · rw [leave_history, leave_entries]
    intro k hk
    have hk : k ∈ enders q.history ++ [i] := henders ▸ hk
    rcases List.mem_append.1 hk with hk | hk
    · obtain ⟨command, ho⟩ := h.ended k hk
      exact ⟨command, (hentry k _ ho).trans (by simp)⟩
    · obtain rfl := List.mem_singleton.1 hk
      exact ⟨c.command, (hentry k c hc).trans (by simp)⟩
  · rw [leave_history, leave_entries]
    intro a hmem
    obtain ⟨stage, hp, hs⟩ := h.given a (hattempts ▸ hmem)
    by_cases hi : i = a.call
    · exact ⟨.ended, (hentry _ _ hp).trans (by simp [hi]), by simp⟩
    · exact ⟨stage, (hentry _ _ hp).trans (by simp [hi]), hs⟩
  · rw [leave_history]
    exact hattempts.symm ▸ h.given_once
  · rw [leave_history]
    simpa only [setStage, record, haskers, hattempts] using h.given_eq
  · rw [leave_history]
    exact h.inTurn.concat (by simp [InTurn, hactor])

theorem Ordered.move (h : q.Ordered) (hm : Move q q') : q'.Ordered := by
  cases hm with
  | call command =>
      refine h.congr rfl rfl rfl fun i c hc => ?_
      exact (List.getElem?_append_left (List.getElem?_eq_some_iff.1 hc).1).trans hc
  | take i command hc ht =>
      have hnone : outstanding q.history = [] := by
        rw [h.outstanding_eq, ht, h.free ht]
        rfl
      have hwaiting := h.free ht
      exact h.ask hc (by simp [hnone]) (by simp [hnone, hwaiting, record]) (by simp)
  | queue i command hc hf ht hw =>
      refine h.ask hc ?_ ?_ fun hf' => absurd hf' hf
      · rw [h.outstanding_eq]
        simpa [eq_comm] using ⟨ht, hw⟩
      · rw [h.outstanding_eq, List.append_assoc]
        rfl
  | make i t ht => exact h.note rfl rfl rfl (h.inTurn_of_turn ht rfl)
  | give x a hx hc ht => exact h.give hx hc ht
  | leave x i c hx hc => exact h.leave hx hc
  | report x ha he hx =>
      have hnone : x.attempt? = none := by cases x <;> simp [Happening.actor?] at hx <;> rfl
      exact h.note ha he hnone (by simp [InTurn, hx])

theorem Ordered.moves (h : q.Ordered) (hm : Moves q q') : q'.Ordered := by
  induction hm with
  | refl => exact h
  | tail _ hm ih => exact ih.move hm

end CallQueue

end CMakeHelm.Session
