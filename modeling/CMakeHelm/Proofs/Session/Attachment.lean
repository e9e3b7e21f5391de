import CMakeHelm.Proofs.Session.Reachable
import CMakeHelm.Proofs.Session.Sections
import CMakeHelm.Proofs.Session.Shared

namespace CMakeHelm.Session

open Shared (Move Moves)

variable {σ : Type} {H : Host σ} {s s' : Session σ} {i t : Nat}

def shared (s : Session σ) : Shared :=
  ⟨s.phases, s.lifecycle, s.attached, s.pending, s.nextExecution, s.statuses, s.history⟩

theorem shared_setPhase (i : Nat) (p : Phase) : (s.setPhase i p).shared = s.shared.setPhase i p :=
  congrArg (fun l => { s.shared with phases := l }) (s.phases_setPhase i p)

theorem shared_goOn (i : Nat) (p : Phase) : (s.goOn i p).shared = s.shared.setPhase i p := shared_setPhase i p

theorem shared_releaseTurn : s.releaseTurn.shared = s.shared := by
  obtain ⟨runnable, he, -⟩ := s.releaseTurn_eq
  rw [he]
  rfl

theorem shared_post (t : Nat) (events : List Event) : (s.post t events).shared = s.shared := by
  obtain ⟨runnable, lines, he, -, hl⟩ := s.post_eq t events
  rw [he]
  exact congrArg (fun l => { s.shared with statuses := l }) hl

theorem shared_abort (i : Nat) : (s.abort i).shared = s.shared := by
  have hp : (s.calls.modify i ({ · with aborted := true })).map (·.phase) = s.phases :=
    (map_modify Call.phase ({ · with aborted := true }) id (fun _ => rfl) ..).trans (List.modify_id ..)
  unfold abort
  split
  · rfl
  · rfl
  · rfl
  · exact congrArg (fun l => { s.shared with phases := l }) hp

theorem shared_hangUp (t : Nat) : (s.hangUp t).shared = s.shared := by
  have hs := s.statuses_modifyLine_of_status t ({ · with senderOpen := false }) fun _ => rfl
  unfold hangUp
  split
  · exact congrArg (fun l => { s.shared with statuses := l }) hs
  · rfl

theorem shared_exec (command : String) :
    (s.exec command).shared = { s.shared with phases := s.shared.phases ++ [.fresh] } :=
  congrArg (fun l => { s.shared with phases := l }) List.map_append

theorem shared_modifyMail (t : Nat) (mail : List Event) : (s.modifyLine t ({ · with mail })).shared = s.shared := by
  have hs := s.statuses_modifyLine_of_status t ({ · with mail }) fun _ => rfl
  exact congrArg (fun l => { s.shared with statuses := l }) hs

theorem shared_finish (i : Nat) (r : Outcome) :
    (s.finish i r).shared = (s.shared.record (.returned i r)).setPhase i (.returned r) := by
  rw [finish, shared_releaseTurn, shared_setPhase]
  rfl

theorem shared_cancel (i : Nat) (p : Phase) :
    (s.cancel i p).shared = (s.shared.record (.dropped i p)).setPhase i .cancelled := by
  unfold cancel
  simp only
  split
  · rw [shared_releaseTurn, shared_setPhase]
    rfl
  · exact shared_setPhase (s := s.record (.dropped i p)) i .cancelled

theorem shared_attach (i : Nat) (host : σ) (mail : List Event) : (s.attach H i host mail).shared =
    { s.shared.record (.opened i s.shared.statuses.length) with
      attached := some s.shared.statuses.length
      lifecycle := .created
      statuses := s.shared.statuses ++ [⟨true, false, false⟩] } := by
  have hlen : s.shared.statuses.length = s.lines.length := List.length_map ..
  have hs : (s.attach H i host mail).statuses = s.shared.statuses ++ [⟨true, false, false⟩] := List.map_append ..
  rw [hlen, ← hs]
  rfl

def HasTurn (s : Session σ) : Prop := ∀ i p, s.phase? i = some p → p.terminal? ≠ none → s.turn = some i

theorem HasTurn.solo (h : HasTurn s) (ht : s.turn = none ∨ s.turn = some i) : s.shared.Solo i := by
  intro j p hj hp
  by_contra hterminal
  have hturn := h j p ((s.phases_getElem? j).symm.trans hp) hterminal
  rcases ht with ht | ht
  · exact absurd (ht.symm.trans hturn) (by simp)
  · exact hj (Option.some.inj (hturn.symm.trans ht))

theorem moves_finish {p : Phase} (r : Outcome) (hp : s.phase? i = some p)
    (he : p.isEarly = true ∨ ∃ t e, p = .executing t e (some r)) : Moves s.shared (s.finish i r).shared := by
  rw [shared_finish]
  exact .single (.finish _ i p r ((s.phases_getElem? i).trans hp) he)

theorem Begun.moves {p : Phase} (h : Begun H s i s') (hp : s.phase? i = some p)
    (he : p = .fresh ∨ p = .queued) (hs : s.shared.Solo i) : Moves s.shared s'.shared := by
  have hp' := (s.phases_getElem? i).trans hp
  have hearly : p.isEarly = true := by rcases he with rfl | rfl <;> rfl
  have hnone : p.terminal? = none := by rcases he with rfl | rfl <;> rfl
  cases h with
  | present host t ha =>
      rw [shared_goOn]
      exact .single (.attach _ i t p hp' hearly hs ha)
  | made host mail ha =>
      have hall : ∀ (j : Nat) (q : Phase), s.shared.phases[j]? = some q → q.terminal? = none := by
        intro j q hq
        by_cases hj : j = i
        · subst hj
          cases hp'.symm.trans hq
          exact hnone
        · exact hs j q hj hq
      have hlen : s.shared.statuses.length = s.lines.length := List.length_map ..
      rw [shared_goOn, shared_attach, ← hlen]
      exact .tail (.single (.make _ i ha hall)) (.attach _ i _ p hp' hearly hs rfl)
  | unmade host cause ha => exact moves_finish (s := { s with host }) _ hp (.inl hearly)

theorem move_announce (hp : s.phase? i = some (.announcing t)) : Move s.shared (s.announce i t).shared := by
  have hm := Move.announce s.shared i t ((s.phases_getElem? i).trans hp)
  exact (congrArg (Move s.shared) (shared_goOn ..)).mpr hm

theorem move_register {p : Phase} (hp : s.phase? i = some p) (he : p = .attached t ∨ p = .integrating t)
    (hi : s.isIntegrated t = true) (ha : s.attached = some t) :
    Move s.shared (({ s with
      nextExecution := s.nextExecution + 1
      pending := s.pending ++ [(s.nextExecution, i)]
      lifecycle := .executing }.record (.registered i t s.nextExecution)).goOn i
        (.registered t s.nextExecution none)).shared := by
  have hi' : s.shared.isIntegrated t = true := (s.isIntegrated_eq t).symm.trans hi
  rw [shared_goOn]
  exact .register _ i t p ((s.phases_getElem? i).trans hp) he ha hi'

theorem move_sent {e : Nat} {reply : Option Outcome} (hp : s.phase? i = some (.registered t e reply)) (host : σ)
    (events : List Event) (command : String) : Move s.shared
      ((({ s with host }.record (.sent i t e command)).goOn i (.executing t e reply)).post t events).shared := by
  rw [shared_post, shared_goOn]
  exact .send _ i t e reply command ((s.phases_getElem? i).trans hp)

theorem move_refused {e : Nat} {reply : Option Outcome} (hp : s.phase? i = some (.registered t e reply)) (host : σ)
    (events : List Event) (command : String) (cause : List String) : Move s.shared
      ((({ s with host }.record (.refused i t e command)).goOn i (.refused t e cause)).post t events).shared := by
  rw [shared_post, shared_goOn]
  exact .refuse _ i t e reply command cause ((s.phases_getElem? i).trans hp)

theorem Section.moves (h : Section H s i s') (ht : HasTurn s) : Moves s.shared s'.shared := by
  have hphase {c : Call} {p : Phase} (hc : s.calls[i]? = some c) (hp : c.phase = p) :
      s.phase? i = some p := (s.phase?_eq_some_iff i).2 ⟨c, hc, hp⟩
  have hshared {c : Call} {p : Phase} (hc : s.calls[i]? = some c) (hp : c.phase = p) : s.shared.phases[i]? = some p :=
    (s.phases_getElem? i).trans (hphase hc hp)
  cases h with
  | sleeps hc => exact .refl
  | dropped c hc hw =>
      rw [shared_cancel]
      exact .single (.drop _ i c.phase (hshared hc rfl) hw)
  | queued c hc hp hab hturn =>
      rw [shared_setPhase]
      exact .tail (.single (.note _ (.asked i) rfl)) (.queue _ i .fresh (hshared hc hp) rfl)
  | started c hc hp hturn hb =>
      have hm := hb.moves (hphase hc hp) (.inl rfl) (ht.solo (.inl hturn))
      exact .head (.note _ (.asked i) rfl) hm
  | resumed c hc hp hturn hb => exact hb.moves (hphase hc hp) (.inr rfl) (ht.solo (.inr hturn))
  | looked c t hc hp hi =>
      rw [shared_goOn]
      exact .single (.look _ i t (hshared hc hp) ((s.isIntegrated_eq t).symm.trans hi))
  | announced c t hc hp => exact .single (move_announce (hphase hc hp))
  | registered c t hc hp hi ha => exact .single (move_register (hphase hc rfl) hp hi ha)
  | lost c t next hc hp hn =>
      have hearly : c.phase.isEarly = true := by rcases hp with hp | hp <;> rw [hp] <;> rfl
      have hm := moves_finish (s := { s with nextExecution := next }) (.error .sessionLost) (hphase hc rfl) (.inl hearly)
      rcases hn with rfl | rfl
      · exact hm
      · exact .head (.skip _) hm
  | sent c t e reply host events hc hp => exact .single (move_sent (hphase hc hp) host events c.command)
  | refused c t e reply host events cause hc hp =>
      exact .single (move_refused (hphase hc hp) host events c.command cause)
  | takenBack c t e cause hc hp =>
      rw [takeBack, shared_finish]
      exact .single (.takeBack _ i t e cause (hshared hc hp))
  | replied c t e r hc hp => exact moves_finish r (hphase hc hp) (.inr ⟨t, e, rfl⟩)

theorem shared_detach (ha : s.attached = some t) : (s.detach t).shared =
    { s.shared with
      phases := s.shared.phases.mapIdx fun i => Phase.told (.error .sessionLost) (executionsOf s.pending i)
      attached := none
      lifecycle := .absent
      pending := []
      statuses := s.shared.statuses.modify t ({ · with dispatching := false }) } := by
  obtain ⟨runnable, he, -⟩ := s.detach_eq t ha
  have hs := s.statuses_modifyLine t ({ · with dispatching := false }) ({ · with dispatching := false }) fun _ => rfl
  have hp := s.phases_told (.error .sessionLost) s.pending
  rw [he]
  simp only [shared, ← hs, ← hp]
  rfl

theorem Heard.moves {event : Event} (h : s.Heard t event s') (ha : s.attached = some t) :
    Moves s.shared s'.shared := by
  cases h with
  | integrated runnable hr hw =>
      have hs := s.statuses_modifyLine t ({ · with integrated := true, due := true })
        ({ · with integrated := true, due := true }) fun _ => rfl
      have hm := Move.integrate s.shared t ha
      simp only [shared, ← hs] at hm
      exact .single hm
  | stray e code hp =>
      cases code with
      | none => exact .single (.note _ _ rfl)
      | some code => exact .single (.stray _ t e code hp)
  | subshell e i hp => exact .single (.subshell _ t e i hp)
  | settled e i code runnable hp hr hw =>
      have hphases : (s.calls.modify i (Call.told (.ofCode code) [e])).map (·.phase) =
          s.phases.modify i (Phase.told (.ofCode code) [e]) :=
        map_modify Call.phase (Call.told (.ofCode code) [e]) (Phase.told (.ofCode code) [e]) (fun _ => rfl) ..
      have hm := Move.settle s.shared t e i code ha hp
      simp only [shared, ← hphases] at hm
      exact .single hm
  | closed =>
      rw [shared_detach (s := s.record (.heard t .closed)) ha]
      exact .single (.leave _ t _ ha (.inl rfl))

theorem moves_cutOff (ha : s.attached = some t) : Moves s.shared (s.cutOff t).shared := by
  rw [cutOff, shared_detach (s := s.record (.cutOff t)) ha]
  exact .single (.leave _ t _ ha (.inr rfl))

theorem attached_of_dispatching (h : s.shared.Sound) (hd : s.isDispatching t = true) : s.attached = some t :=
  (h.dispatching_iff t).1 ((s.isDispatching_eq t).symm.trans hd)

theorem attached_of_line (h : s.shared.Sound) {l : Line} (hl : s.lines[t]? = some l) (hd : l.dispatching = true) :
    s.attached = some t :=
  attached_of_dispatching h (by simp [isDispatching, hl, hd])

theorem isIntegrated_of_due (h : s.shared.Sound) {l : Line} (hl : s.lines[t]? = some l) (hd : l.due = true) :
    s.isIntegrated t = true := by
  have hi := h.integrated_of_due l.status (List.mem_map_of_mem (List.mem_of_getElem? hl)) hd
  have hi : l.integrated = true := hi
  simp [isIntegrated, hl, hi]

theorem moves_showIntegrated (ha : s.attached = some t) (hi : s.isIntegrated t = true) :
    Moves s.shared (s.showIntegrated t).shared := by
  have hs := s.statuses_modifyLine t ({ · with due := false }) ({ · with due := false }) fun _ => rfl
  have hm := Move.shown s.shared t ha ((s.isIntegrated_eq t).symm.trans hi)
  simp only [shared, ← hs] at hm
  exact .single hm

theorem Dispatched.moves (hd : s.Dispatched t s') (h : s.shared.Sound) : Moves s.shared s'.shared := by
  cases hd with
  | sleeps hd => exact .refl
  | shown l hl hd hdue => exact moves_showIntegrated (attached_of_line h hl hd) (isIntegrated_of_due h hl hdue)
  | cutOff l hl hd hdue hm ho => exact moves_cutOff (attached_of_line h hl hd)
  | heard l event mail s' hl hd hdue hm hh =>
      have ha := attached_of_line h hl hd
      have hmoves := hh.moves ha
      rw [shared_modifyMail] at hmoves
      exact hmoves

/-- Every step is a series of moves of what is shared. -/
theorem Step.moves (hs : Step H s s') (h : s.shared.Sound) (ht : HasTurn s) : Moves s.shared s'.shared := by
  cases hs with
  | exec command =>
      rw [shared_exec]
      exact .single (.call _)
  | abort i => rw [shared_abort]
  | post t events => rw [shared_post]
  | hangUp t => rw [shared_hangUp]
  | host host => exact .refl
  | run task hr =>
      cases task with
      | call i => exact (section_runCall { s with runnable := s.runnable.erase (.call i) } i).moves ht
      | dispatcher t =>
          exact (dispatched_runDispatcher { s with runnable := s.runnable.erase (.dispatcher t) } t).moves h

theorem history_finish (i : Nat) (r : Outcome) : (s.finish i r).history = s.history ++ [.returned i r] :=
  congrArg Shared.history (shared_finish i r)

theorem history_cancel (i : Nat) (p : Phase) : (s.cancel i p).history = s.history ++ [.dropped i p] :=
  congrArg Shared.history (shared_cancel i p)

theorem history_post (t : Nat) (events : List Event) : (s.post t events).history = s.history :=
  congrArg Shared.history (shared_post t events)

theorem history_detach (ha : s.attached = some t) : (s.detach t).history = s.history :=
  congrArg Shared.history (shared_detach ha)

def Happening.isAside : Happening → Bool
  | .announced .. | .registered .. | .sent .. | .refused .. => false
  | .asked _ | .opened .. | .heard .. | .shown _ | .cutOff _ | .returned .. | .dropped .. => true

def AddsAside (s s' : Session σ) : Prop :=
  ∃ more, s'.history = s.history ++ more ∧ ∀ x ∈ more, x.isAside = true

theorem addsAside_of_eq (h : s'.history = s.history) : AddsAside s s' := ⟨[], by simp [h], by simp⟩

theorem addsAside_of_record {x : Happening} (hx : x.isAside = true) (h : s'.history = s.history ++ [x]) :
    AddsAside s s' := ⟨[x], h, by simp [hx]⟩

theorem AddsAside.trans {s'' : Session σ} (h : AddsAside s s') (h' : AddsAside s' s'') : AddsAside s s'' := by
  obtain ⟨more, he, hx⟩ := h
  obtain ⟨more', he', hx'⟩ := h'
  exact ⟨more ++ more', by rw [he', he, List.append_assoc], List.forall_mem_append.2 ⟨hx, hx'⟩⟩

theorem Begun.addsAside (hb : Begun H s i s') : AddsAside s s' := by
  cases hb with
  | present => exact addsAside_of_eq rfl
  | made => exact addsAside_of_record (x := .opened i s.lines.length) rfl rfl
  | unmade => exact addsAside_of_record rfl (history_finish (s := { s with host := _ }) i _)

theorem Section.addsAside_or_move (h : Section H s i s') : AddsAside s s' ∨ Move s.shared s'.shared := by
  have hphase {c : Call} {p : Phase} (hc : s.calls[i]? = some c) (hp : c.phase = p) :
      s.phase? i = some p := (s.phase?_eq_some_iff i).2 ⟨c, hc, hp⟩
  cases h with
  | sleeps => exact .inl (addsAside_of_eq rfl)
  | dropped c => exact .inl (addsAside_of_record rfl (history_cancel i c.phase))
  | queued => exact .inl (addsAside_of_record (x := .asked i) rfl rfl)
  | started c hc hp ht hb =>
      have hasked : AddsAside s { s.record (.asked i) with turn := some i } := addsAside_of_record rfl rfl
      exact .inl (hasked.trans hb.addsAside)
  | resumed c hc hp ht hb => exact .inl hb.addsAside
  | looked => exact .inl (addsAside_of_eq rfl)
  | announced c t hc hp => exact .inr (move_announce (hphase hc hp))
  | registered c t hc hp hi ha => exact .inr (move_register (hphase hc rfl) hp hi ha)
  | lost c t next => exact .inl (addsAside_of_record rfl (history_finish (s := { s with nextExecution := next }) i _))
  | sent c t e reply host events hc hp => exact .inr (move_sent (hphase hc hp) host events c.command)
  | refused c t e reply host events cause hc hp => exact .inr (move_refused (hphase hc hp) host events c.command cause)
  | takenBack => exact .inl (addsAside_of_record rfl (history_finish (s := { s with pending := _, lifecycle := _ }) i _))
  | replied c t e r => exact .inl (addsAside_of_record rfl (history_finish i r))

theorem Heard.history_eq {event : Event} (h : s.Heard t event s') (ha : s.attached = some t) :
    s'.history = s.history ++ [.heard t event] := by
  cases h with
  | integrated | stray | subshell | settled => rfl
  | closed => exact history_detach (s := s.record (.heard t .closed)) ha

theorem Dispatched.addsAside (hd : s.Dispatched t s') (h : s.shared.Sound) : AddsAside s s' := by
  cases hd with
  | sleeps => exact addsAside_of_eq rfl
  | shown => exact addsAside_of_record (x := .shown t) rfl rfl
  | cutOff l hl hd =>
      have ha := attached_of_line h hl hd
      exact addsAside_of_record rfl (history_detach (s := s.record (.cutOff t)) ha)
  | heard l event mail s' hl hd hdue hm hh =>
      have ha := attached_of_line h hl hd
      exact addsAside_of_record rfl (hh.history_eq ha)

theorem Step.addsAside_or_move (hs : Step H s s') (h : s.shared.Sound) : AddsAside s s' ∨ Move s.shared s'.shared := by
  cases hs with
  | exec | host => exact .inl (addsAside_of_eq rfl)
  | abort i => exact .inl (addsAside_of_eq (congrArg Shared.history (shared_abort i)))
  | post t events => exact .inl (addsAside_of_eq (history_post t events))
  | hangUp t => exact .inl (addsAside_of_eq (congrArg Shared.history (shared_hangUp t)))
  | run task hr =>
      cases task with
      | call i => exact (section_runCall { s with runnable := s.runnable.erase (.call i) } i).addsAside_or_move
      | dispatcher t =>
          exact .inl ((dispatched_runDispatcher { s with runnable := s.runnable.erase (.dispatcher t) } t).addsAside h)

theorem sound_start (name : String) (host : σ) : ({ name, host } : Session σ).shared.Sound where
  dispatching_iff := by simp [shared, Shared.isDispatching, statuses]
  last := by simp [shared]
  gone := by simp [shared, statuses]
  ended := by simp [shared, Gone]
  integrated_iff := by simp [shared, Shared.isIntegrated, statuses]
  integrated_of_shown := by simp [shared]
  integrated_of_due := by simp [shared, statuses]
  attached_of_absent := fun _ => rfl
  detached := fun _ => .inl rfl
  unready := by simp [shared]
  ready := by simp [shared]
  busy := by simp [shared]
  registered_of_pending := by simp [shared]
  pending_nodup := by simp [shared]
  numbered := ⟨by simp [shared], .nil⟩
  terminal_last := by simp [shared, phases]
  solo := by simp [shared, phases]
  announcing := by simp [shared, phases]
  taken := by simp [shared, phases]

end CMakeHelm.Session
