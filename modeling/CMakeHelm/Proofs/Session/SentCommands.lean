import CMakeHelm.Proofs.Session.Residue

namespace CMakeHelm.Session

variable {σ : Type} {H : Host σ} {s s' : Session σ} {i t e : Nat} {command : String} {r : Outcome} {c : Call}
  {history more : List Happening} {calls : List Nat}

def Happening.sentBy? (calls : List Nat) : Happening → Option String
  | .sent i _ _ command => if i ∈ calls then some command else none
  | _ => none

def sentBy (calls : List Nat) (history : List Happening) : List String := history.filterMap (·.sentBy? calls)

theorem sentBy_append (calls : List Nat) (history more : List Happening) :
    sentBy calls (history ++ more) = sentBy calls history ++ sentBy calls more :=
  List.filterMap_append

theorem mem_sentBy : command ∈ sentBy calls history ↔ ∃ i t e, i ∈ calls ∧ .sent i t e command ∈ history := by
  rw [sentBy, List.mem_filterMap]
  constructor
  · rintro ⟨x, hx, hsent⟩
    cases x with
    | sent i t e command' =>
        rw [Happening.sentBy?, Option.ite_none_right_eq_some] at hsent
        obtain ⟨hi, rfl⟩ := hsent.imp_right Option.some.inj
        exact ⟨i, t, e, hi, hx⟩
    | asked | opened | announced | registered | refused | heard | shown | cutOff | returned | dropped =>
        simp [Happening.sentBy?] at hsent
  · rintro ⟨i, t, e, hi, hx⟩
    exact ⟨_, hx, if_pos hi⟩

theorem sentBy_eq_nil (h : ∀ i ∈ calls, ∀ t e command, .sent i t e command ∉ history) : sentBy calls history = [] := by
  rw [List.eq_nil_iff_forall_not_mem]
  intro command hmem
  obtain ⟨i, t, e, hi, hsent⟩ := mem_sentBy.1 hmem
  exact h i hi t e command hsent

theorem sentBy_congr {calls' : List Nat}
    (h : ∀ i t e command, .sent i t e command ∈ history → (i ∈ calls ↔ i ∈ calls')) :
    sentBy calls history = sentBy calls' history := by
  apply List.filterMap_congr
  intro x hx
  cases x with
  | sent i t e command => simp only [Happening.sentBy?, h i t e command hx]
  | asked | opened | announced | registered | refused | heard | shown | cutOff | returned | dropped => rfl

theorem length_sentBy_le (i : Nat) (history : List Happening) :
    (sentBy [i] history).length ≤ ((attempts history).map (·.call)).count i := by
  induction history with
  | nil => exact Nat.le_refl 0
  | cons x history ih =>
      have hsent : sentBy [i] (x :: history) = (x.sentBy? [i]).toList ++ sentBy [i] history :=
        sentBy_append [i] [x] history
      have hattempts : attempts (x :: history) = x.attempt?.toList ++ attempts history :=
        List.filterMap_append (l := [x])
      rw [hsent, hattempts, List.length_append, List.map_append, List.count_append]
      refine Nat.add_le_add ?_ ih
      cases x with
      | sent j t e command =>
          by_cases hj : j = i
          · simp [Happening.sentBy?, Happening.attempt?, hj]
          · simp [Happening.sentBy?, hj]
      | asked | opened | announced | registered | refused | heard | shown | cutOff | returned | dropped =>
          exact Nat.zero_le _

theorem Reachable.lt_of_asked (h : Reachable H s) (hi : i ∈ askers s.history) : i < s.calls.length := by
  have hordered := h.ordered
  by_cases hover : i ∈ enders s.history
  · obtain ⟨command, hp⟩ := hordered.ended i hover
    have hlen : i < (s.calls.map Call.entry).length := (List.getElem?_eq_some_iff.1 hp).1
    rwa [List.length_map] at hlen
  · have hmem : i ∈ s.turn.toList ++ s.waiting :=
      hordered.outstanding_eq ▸ List.mem_filter.2 ⟨hi, decide_eq_true hover⟩
    rcases List.mem_append.1 hmem with hturn | hwaiting
    · exact h.orderly.turn_lt i (by simpa using hturn)
    · exact h.orderly.waiting_lt i hwaiting

theorem Reachable.lt_of_actor (h : Reachable H s) {x : Happening} (hx : x ∈ s.history) (ha : x.actor? = some i) :
    i < s.calls.length := by
  obtain ⟨before, after, he⟩ := List.append_of_mem hx
  have hasked := (h.ordered.inTurn before x after he i ha).1
  have hle : before <+: s.history := he ▸ List.prefix_append ..
  exact h.lt_of_asked ((hle.sublist.filterMap Happening.asker?).subset hasked)

theorem CallQueue.command_setStage {q : CallQueue} {p : Entry} (hp : q.entries[i]? = some p) (j : Nat) (stage : Stage) :
    ∃ p', (q.setStage j stage).entries[i]? = some p' ∧ p'.command = p.command := by
  refine ⟨if j = i then { p with stage } else p, ?_, ?_⟩
  · rw [CallQueue.setStage, List.getElem?_modify, hp]
    rfl
  · by_cases hj : j = i
    · rw [if_pos hj]
    · rw [if_neg hj]

theorem CallQueue.Move.command_eq {q q' : CallQueue} {p : Entry} (hm : CallQueue.Move q q')
    (hp : q.entries[i]? = some p) :
    ∃ p', q'.entries[i]? = some p' ∧ p'.command = p.command := by
  cases hm with
  | call command => exact ⟨p, (List.getElem?_append_left (List.getElem?_eq_some_iff.1 hp).1).trans hp, rfl⟩
  | take | queue | make | report => exact ⟨p, hp, rfl⟩
  | give x a hx hc ht => exact CallQueue.command_setStage (q := q.record x) hp a.call .given
  | leave x j c hx hc =>
      rw [CallQueue.leave_entries]
      exact CallQueue.command_setStage (q := q.record x) hp j .ended

theorem CallQueue.Moves.command_eq {q q' : CallQueue} {p : Entry} (hm : CallQueue.Moves q q')
    (hp : q.entries[i]? = some p) :
    ∃ p', q'.entries[i]? = some p' ∧ p'.command = p.command := by
  induction hm with
  | refl => exact ⟨p, hp, rfl⟩
  | tail _ hm ih =>
      obtain ⟨q, hq, he⟩ := ih
      obtain ⟨p', hp', he'⟩ := hm.command_eq hq
      exact ⟨p', hp', he'.trans he⟩

theorem Steps.callQueue_moves (hs : Steps H s s') (h : Reachable H s) : CallQueue.Moves s.callQueue s'.callQueue := by
  induction hs with
  | refl => exact .refl
  | tail hs hstep ih =>
      have hmid := h.steps hs
      exact ih.trans (hstep.callQueue_moves hmid.sound hmid.orderly)

theorem Steps.exists_call (hs : Steps H s s') (h : Reachable H s) (hc : s.calls[i]? = some c) :
    ∃ c', s'.calls[i]? = some c' ∧ c'.command = c.command := by
  have hentry : s.callQueue.entries[i]? = some c.entry := by rw [entries_getElem?, hc, Option.map_some]
  obtain ⟨p, hp, he⟩ := (hs.callQueue_moves h).command_eq hentry
  rw [entries_getElem?, Option.map_eq_some_iff] at hp
  obtain ⟨c', hc', rfl⟩ := hp
  exact ⟨c', hc', he⟩

theorem Steps.length_le (hs : Steps H s s') (h : Reachable H s) : s.calls.length ≤ s'.calls.length := by
  by_contra hlt
  have hlt : s'.calls.length < s.calls.length := Nat.lt_of_not_le hlt
  obtain ⟨c', hc', -⟩ := hs.exists_call h (List.getElem?_eq_getElem hlt)
  rw [List.getElem?_eq_none (Nat.le_refl _)] at hc'
  exact absurd hc' (by simp)

theorem Reachable.exists_sent_of_ok (h : Reachable H s) (hr : s.result? i = some .ok) :
    ∃ t e command, .sent i t e command ∈ s.history := by
  obtain ⟨s₁, h₁, hrun, -, -, hsteps, hret⟩ := h.exists_returning hr
  cases hret with
  | replied t e _ hp =>
      obtain ⟨command, hsent⟩ := h₁.exists_sent_of_executing hp
      exact ⟨t, e, command, (Steps.history_grows (.head (.run _ hrun) hsteps) h₁).subset hsent⟩

theorem Reachable.command_of_sent (h : Reachable H s) (hc : s.calls[i]? = some c)
    (hsent : .sent i t e command ∈ s.history) : command = c.command := by
  have hmem : ⟨i, t, e, command⟩ ∈ attempts s.history := List.mem_filterMap.2 ⟨_, hsent, rfl⟩
  obtain ⟨stage, hp, -⟩ := h.ordered.given _ hmem
  rw [entries_getElem?, hc, Option.map_some] at hp
  exact (congrArg Entry.command (Option.some.inj hp)).symm

theorem Reachable.sentBy_eq_nil_or (h : Reachable H s) (hc : s.calls[i]? = some c) :
    sentBy [i] s.history = [] ∨ sentBy [i] s.history = [c.command] := by
  have honce : (sentBy [i] s.history).length ≤ 1 :=
    Nat.le_trans (length_sentBy_le i s.history) (List.nodup_iff_count_le_one.1 h.ordered.given_once i)
  cases hl : sentBy [i] s.history with
  | nil => exact .inl rfl
  | cons command rest =>
      right
      rw [hl] at honce
      obtain rfl : rest = [] := List.length_eq_zero_iff.1 (Nat.le_zero.1 (Nat.le_of_succ_le_succ honce))
      obtain ⟨j, t, e, hj, hsent⟩ := mem_sentBy.1 (hl ▸ List.mem_cons_self)
      obtain rfl := List.mem_singleton.1 hj
      rw [h.command_of_sent hc hsent]

theorem Reachable.sentBy_of_ok (h : Reachable H s) (hc : s.calls[i]? = some c) (hr : s.result? i = some .ok) :
    sentBy [i] s.history = [c.command] := by
  refine (h.sentBy_eq_nil_or hc).resolve_left fun hnil => ?_
  obtain ⟨t, e, command, hsent⟩ := h.exists_sent_of_ok hr
  have hmem : command ∈ sentBy [i] s.history := mem_sentBy.2 ⟨i, t, e, List.mem_singleton_self i, hsent⟩
  exact absurd (hnil ▸ hmem) List.not_mem_nil

/-- Nothing that comes after a success is sent by the call that succeeded. -/
theorem Steps.not_mem_of_ok (hs : Steps H s s') (h : Reachable H s) (hr : s.result? i = some .ok)
    (he : s'.history = s.history ++ more) (t e : Nat) (command : String) : .sent i t e command ∉ more := by
  intro hsent
  obtain ⟨c, hc, -⟩ := (s.phase?_eq_some_iff i).1 (result?_eq_some_iff.1 hr)
  obtain ⟨c', hc', hcommand⟩ := hs.exists_call h hc
  have hnow := h.sentBy_of_ok hc hr
  have hlater := (h.steps hs).sentBy_of_ok hc' (hs.result? h hr)
  rw [he, sentBy_append, hnow, hcommand] at hlater
  have hnil : sentBy [i] more = [] := List.append_cancel_left (hlater.trans (List.append_nil _).symm)
  have hmem : command ∈ sentBy [i] more := mem_sentBy.2 ⟨i, t, e, List.mem_singleton_self i, hsent⟩
  exact absurd (hnil ▸ hmem) List.not_mem_nil

end CMakeHelm.Session
