import CMakeHelm.Proofs.Session.Order

namespace CMakeHelm.Session

variable {σ : Type} {H : Host σ} {s : Session σ} {i t : Nat}

/-- Terminal `t` was made, and its end has not been heard. -/
def IsLive (s : Session σ) (t : Nat) : Prop := t ∈ opened s.history ∧ ¬ Gone s.history t

theorem Reachable.attached_of_isLive (h : Reachable H s) (ht : s.IsLive t) : s.attached = some t := by
  have hlt : t < s.shared.statuses.length := List.mem_range.1 (h.successive.opened_eq ▸ ht.1)
  exact (h.sound.gone t hlt).resolve_right ht.2

theorem runCall_of_not_attached {c : Call} (hc : s.calls[i]? = some c) (hp : c.phase = .integrating t)
    (hab : c.aborted = false) (ha : s.attached ≠ some t) (hd : s.isDispatching t = false) :
    (s.runCall H i).result? i = some (.error .sessionLost) ∧
      (s.runCall H i).history = s.history ++ [.returned i (.error .sessionLost)] ∧
      (s.runCall H i).host = s.host := by
  unfold runCall
  simp only [hc, hab, hp, Bool.false_and, Bool.false_eq_true, if_false]
  split
  · unfold register
    simp only [ha, if_false]
    exact finish_returns (s := { s with nextExecution := s.nextExecution + 1 }) _ hc
  · simp only [hd, Bool.false_eq_true, if_false]
    exact finish_returns _ hc

theorem Reachable.runnable_of_gone (h : Reachable H s) {c : Call} (hc : s.calls[i]? = some c)
    (hp : c.phase = .integrating t) (ha : s.attached ≠ some t) : .call i ∈ s.runnable := by
  have ht : s.turn = some i :=
    h.orderly.hasTurn i (.integrating t) ((s.phase?_eq_some_iff i).2 ⟨c, hc, hp⟩) (by simp [Phase.terminal?])
  have hat := ((h.orderly.stands i c hc).atTurn ht).2
  rw [hp] at hat
  exact hat.resolve_right fun hw => ha hw.1

/-- A call gives its command to a terminal once at most. Before that it has registered its execution, at a point at
which the terminal had integrated and not ended. A terminal is made when the ends of all before it have been heard, so
at most one is live. A call that waits for a terminal which ends before the call can go on, integrated or not, returns
that the session was lost as soon as it runs, and gives its command to none. -/
theorem given_once_while_live (h : Reachable H s) :
    ((attempts s.history).map (·.call)).Nodup ∧
    (∀ before x after a, s.history = before ++ x :: after → x.attempt? = some a →
      ∃ earlier later, before = earlier ++ .registered a.call a.terminal a.execution :: later ∧
        .heard a.terminal .integrated ∈ earlier ∧ .heard a.terminal .closed ∉ earlier ∧
          .cutOff a.terminal ∉ earlier) ∧
    (∀ before i t after, s.history = before ++ .opened i t :: after →
      ∀ j u, .opened j u ∈ before → .heard u .closed ∈ before ∨ .cutOff u ∈ before) ∧
    (∀ t u, s.IsLive t → s.IsLive u → t = u) ∧
    ∀ i c t, s.calls[i]? = some c → c.phase = .integrating t → c.aborted = false → Gone s.history t →
      .call i ∈ s.runnable ∧ Step H s (s.proceed H (.call i)) ∧
        (s.proceed H (.call i)).result? i = some (.error .sessionLost) ∧
        (s.proceed H (.call i)).history = s.history ++ [.returned i (.error .sessionLost)] ∧
        (s.proceed H (.call i)).host = s.host := by
  have hs := h.successive
  refine ⟨h.ordered.given_once, ?_, ?_, ?_, ?_⟩
  · intro before x after a he hx
    obtain ⟨earlier, later, hb⟩ := List.append_of_mem ((hs.timely before x after he).attempted a hx)
    -- What holds of the registration holds of the history up to it, not of the one up to the command.
    have hregistered : s.history = earlier ++ .registered a.call a.terminal a.execution :: (later ++ x :: after) := by
      rw [he, hb, List.append_assoc, List.cons_append]
    obtain ⟨hi, hg⟩ := (hs.timely earlier _ _ hregistered).registered _ _ _ rfl
    exact ⟨earlier, later, hb, hi, not_or.1 hg⟩
  · intro before i t after he j u hu
    exact (hs.timely before _ after he).opened t rfl u (List.mem_filterMap.2 ⟨_, hu, rfl⟩)
  · intro t u ht hu
    exact Option.some.inj ((h.attached_of_isLive ht).symm.trans (h.attached_of_isLive hu))
  · intro i c t hc hp hab hg
    have ha : s.attached ≠ some t := (h.sound.ended t hg).2
    have hd : s.isDispatching t = false := by
      rw [Bool.eq_false_iff]
      exact fun hd => ha (attached_of_dispatching h.sound hd)
    have hr := h.runnable_of_gone hc hp ha
    let s₀ := { s with runnable := s.runnable.erase (.call i) }
    exact ⟨hr, .run (.call i) hr, runCall_of_not_attached (s := s₀) (H := H) hc hp hab ha hd⟩

def closedAtOnce : Session Script :=
  let s : Session Script := { name := "helm", host := { integrates := false } }
  (((s.exec "make").settle Script.host).post 0 [.integrated, .closed]).interleave Script.host
    [.dispatcher 0, .dispatcher 0, .dispatcher 0]

theorem reachable_closedAtOnce : Reachable Script.host closedAtOnce :=
  (((Reachable.start ..).step (.exec "make")).settle.step (.post 0 [.integrated, .closed])).interleave _

theorem closedAtOnce_sends_nothing : .heard 0 .integrated ∈ closedAtOnce.history ∧ Gone closedAtOnce.history 0 ∧
    closedAtOnce.phase? 0 = some (.integrating 0) ∧
    ∃ s', Step Script.host closedAtOnce s' ∧ s'.result? 0 = some (.error .sessionLost) ∧
      attempts s'.history = [] := by
  have hg : Gone closedAtOnce.history 0 := .inl (by decide)
  have hc : closedAtOnce.calls[0]? = some { command := "make", phase := .integrating 0 } := rfl
  obtain ⟨-, hstep, hr, hh, -⟩ := (given_once_while_live reachable_closedAtOnce).2.2.2.2 0 _ 0 hc rfl rfl hg
  have hnone : attempts (closedAtOnce.history ++ [.returned 0 (.error .sessionLost)]) = [] := rfl
  exact ⟨by decide, hg, rfl, _, hstep, hr, hh ▸ hnone⟩

/-- A terminal is given a command after its end has been heard, which was between the registration and the sending. -/
theorem closedBeforeSending_sends_after_end : Reachable Script.host closedBeforeSending ∧
    ∃ before after, closedBeforeSending.history = before ++ .sent 0 0 1 "make" :: after ∧
      .heard 0 .closed ∈ before :=
  ⟨reachable_closedBeforeSending, closedBeforeSending.history.take 6, closedBeforeSending.history.drop 7, rfl,
    by decide⟩

end CMakeHelm.Session
