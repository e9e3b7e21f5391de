import CMakeHelm.Proofs.Session.CallQueue

namespace CMakeHelm.Session

variable {σ : Type} {H : Host σ} {s s' : Session σ} {i : Nat}

def Call.entry (c : Call) : Entry := ⟨c.command, c.phase.stage⟩

def callQueue (s : Session σ) : CallQueue := ⟨s.calls.map Call.entry, s.turn, s.waiting, s.history⟩

open CallQueue (Move Moves)

theorem Phase.stage_told (r : Outcome) (es : List Nat) (p : Phase) : (p.told r es).stage = p.stage := by
  unfold told
  split <;> rfl

theorem Call.entry_told (r : Outcome) (es : List Nat) (c : Call) : (c.told r es).entry = c.entry := by
  rw [entry, told, Phase.stage_told]
  rfl

theorem entries_getElem? : s.callQueue.entries[i]? = s.calls[i]?.map Call.entry := List.getElem?_map

theorem callQueue_setPhase (p : Phase) : (s.setPhase i p).callQueue = s.callQueue.setStage i p.stage := by
  have hp : (s.setPhase i p).calls.map Call.entry = (s.calls.map Call.entry).modify i ({ · with stage := p.stage }) :=
    map_modify Call.entry _ _ (fun _ => rfl) ..
  rw [callQueue, hp]
  rfl

theorem callQueue_setPhase_of_stage {c : Call} (p : Phase) (hc : s.calls[i]? = some c) (hp : c.phase.stage = p.stage) :
    (s.setPhase i p).callQueue = s.callQueue := by
  have hentry : s.callQueue.entries[i]? = some ⟨c.command, p.stage⟩ := by
    rw [entries_getElem?, hc, ← hp]
    rfl
  rw [callQueue_setPhase, CallQueue.setStage_self hentry]

theorem callQueue_releaseTurn : s.releaseTurn.callQueue = s.callQueue.release := by
  obtain ⟨runnable, he, -⟩ := s.releaseTurn_eq
  rw [he]
  rfl

theorem callQueue_post (t : Nat) (events : List Event) : (s.post t events).callQueue = s.callQueue := by
  obtain ⟨runnable, lines, he, -⟩ := s.post_eq t events
  rw [he]
  rfl

theorem callQueue_abort : (s.abort i).callQueue = s.callQueue := by
  have hp : (s.calls.modify i ({ · with aborted := true })).map Call.entry = s.calls.map Call.entry :=
    (map_modify Call.entry ({ · with aborted := true }) id (fun _ => rfl) ..).trans (List.modify_id ..)
  unfold abort
  split
  · rfl
  · rfl
  · rfl
  · exact congrArg (fun l => { s.callQueue with entries := l }) hp

theorem callQueue_hangUp (t : Nat) : (s.hangUp t).callQueue = s.callQueue := by
  unfold hangUp
  split <;> rfl

theorem callQueue_exec (command : String) :
    (s.exec command).callQueue = { s.callQueue with entries := s.callQueue.entries ++ [⟨command, .early⟩] } :=
  congrArg (fun l => { s.callQueue with entries := l }) List.map_append

theorem entry_of_getElem? {c : Call} {stage : Stage} (hc : s.calls[i]? = some c) (hs : c.phase.stage = stage) :
    s.callQueue.entries[i]? = some ⟨c.command, stage⟩ := by
  rw [entries_getElem?, hc, ← hs]
  rfl

theorem callQueue_goOn (p : Phase) : (s.goOn i p).callQueue = s.callQueue.setStage i p.stage := callQueue_setPhase p

theorem callQueue_goOn_of_stage {c : Call} (p : Phase) (hc : s.calls[i]? = some c) (hp : c.phase.stage = p.stage) :
    (s.goOn i p).callQueue = s.callQueue := callQueue_setPhase_of_stage p hc hp

theorem callQueue_finish (r : Outcome) (ht : s.turn = some i) :
    (s.finish i r).callQueue = ((s.callQueue.record (.returned i r)).setStage i .ended).leave i := by
  have hturn : ((s.callQueue.record (.returned i r)).setStage i .ended).turn = some i := ht
  rw [finish, callQueue_releaseTurn, callQueue_setPhase, CallQueue.leave, if_pos hturn]
  rfl

theorem callQueue_cancel (p : Phase) :
    (s.cancel i p).callQueue = ((s.callQueue.record (.dropped i p)).setStage i .ended).leave i := by
  have hs : ((s.record (.dropped i p)).setPhase i .cancelled).callQueue =
      (s.callQueue.record (.dropped i p)).setStage i .ended := callQueue_setPhase .cancelled
  unfold cancel CallQueue.leave
  simp only
  split
  · next ht =>
    have ht' : ((s.callQueue.record (.dropped i p)).setStage i .ended).turn = some i := ht
    rw [if_pos ht', callQueue_releaseTurn, hs]
  · next ht =>
    have ht' : ((s.callQueue.record (.dropped i p)).setStage i .ended).turn ≠ some i := ht
    rw [if_neg ht', ← hs]
    rfl

theorem CallQueue.moves_finish {c : Call} (r : Outcome) (hc : s.calls[i]? = some c) (ht : s.turn = some i) :
    Moves s.callQueue (s.finish i r).callQueue := by
  rw [callQueue_finish r ht]
  exact .single (.leave _ i c.entry rfl (entry_of_getElem? hc rfl))

theorem Begun.callQueue_moves {c : Call} (hb : Begun H s i s') (hc : s.calls[i]? = some c)
    (he : c.phase.stage = .early) (ht : s.turn = some i) : Moves s.callQueue s'.callQueue := by
  cases hb with
  | present host t ha =>
      have hsame : ({ s with host }.goOn i (.attached t)).callQueue = s.callQueue :=
        callQueue_goOn_of_stage (s := { s with host }) (.attached t) hc he
      rw [hsame]
  | made host mail ha =>
      rw [callQueue_goOn_of_stage (s := s.attach H i host mail) (.attached s.lines.length) hc he]
      exact .single (.make i s.lines.length ht)
  | unmade host cause ha => exact CallQueue.moves_finish (s := { s with host }) _ hc ht

theorem Orderly.of_fresh {c : Call} (h : Orderly s) (hc : s.calls[i]? = some c) (hp : c.phase = .fresh) :
    s.turn ≠ some i ∧ i ∉ s.waiting := by
  have hs := h.stands i c hc
  have ht : s.turn ≠ some i := by
    intro ht
    have hat := (hs.atTurn ht).2
    rw [hp] at hat
    exact hat
  have haside := (hs.aside ht).2
  rw [hp] at haside
  exact ⟨ht, haside.2⟩

theorem Section.callQueue_moves (hsec : Section H s i s') (h : HasTurn s)
    (hf : ∀ c, s.calls[i]? = some c → c.phase = .fresh → s.turn ≠ some i ∧ i ∉ s.waiting) :
    Moves s.callQueue s'.callQueue := by
  have hturn {c : Call} (hc : s.calls[i]? = some c) (hp : c.phase.terminal? ≠ none) : s.turn = some i :=
    h i c.phase ((s.phase?_eq_some_iff i).2 ⟨c, hc, rfl⟩) hp
  cases hsec with
  | sleeps hc => exact .refl
  | dropped c hc hw =>
      rw [callQueue_cancel]
      exact .single (.leave _ i c.entry rfl (entry_of_getElem? hc rfl))
  | queued c hc hp hab ht =>
      have he : c.phase.stage = .early := by rw [hp]; rfl
      obtain ⟨hnot, hw⟩ := hf c hc hp
      rw [callQueue_setPhase_of_stage (s := { s.record (.asked i) with waiting := s.waiting ++ [i] }) .queued hc he]
      exact .single (.queue i c.command (entry_of_getElem? hc he) ht hnot hw)
  | started c hc hp ht hb =>
      have he : c.phase.stage = .early := by rw [hp]; rfl
      have hm : Move s.callQueue { s.record (.asked i) with turn := some i }.callQueue :=
        .take i c.command (entry_of_getElem? hc he) ht
      exact .head hm (hb.callQueue_moves hc he rfl)
  | resumed c hc hp ht hb => exact hb.callQueue_moves hc (by rw [hp]; rfl) ht
  | looked c t hc hp hi =>
      rw [callQueue_goOn_of_stage (.announcing t) hc (by rw [hp]; rfl)]
  | announced c t hc hp =>
      let s₁ := { s with lifecycle := .awaitingIntegration }.record (.announced i t)
      have hsame : (s₁.goOn i (.integrating t)).callQueue = s₁.callQueue :=
        callQueue_goOn_of_stage (s := s₁) (.integrating t) hc (by rw [hp]; rfl)
      exact hsame ▸ .single (.report (.announced i t) rfl rfl rfl)
  | registered c t hc hp hi ha =>
      have he : c.phase.stage = .early := by rcases hp with hp | hp <;> rw [hp] <;> rfl
      let s₁ := { s with
        nextExecution := s.nextExecution + 1
        pending := s.pending ++ [(s.nextExecution, i)]
        lifecycle := .executing }.record (.registered i t s.nextExecution)
      have hsame : (s₁.goOn i (.registered t s.nextExecution none)).callQueue = s₁.callQueue :=
        callQueue_goOn_of_stage (s := s₁) (.registered t s.nextExecution none) hc he
      exact hsame ▸ .single (.report (.registered i t s.nextExecution) rfl rfl rfl)
  | lost c t next hc hp hn =>
      have ht := hturn hc (by rcases hp with hp | hp <;> simp [hp, Phase.terminal?])
      exact CallQueue.moves_finish (s := { s with nextExecution := next }) _ hc ht
  | sent c t e reply host events hc hp =>
      have ht := hturn hc (by simp [hp, Phase.terminal?])
      have he : c.phase.stage = .early := by rw [hp]; rfl
      rw [callQueue_post, callQueue_goOn]
      exact .single (.give (.sent i t e c.command) ⟨i, t, e, c.command⟩ rfl (entry_of_getElem? hc he) ht)
  | refused c t e reply host events cause hc hp =>
      have ht := hturn hc (by simp [hp, Phase.terminal?])
      have he : c.phase.stage = .early := by rw [hp]; rfl
      rw [callQueue_post, callQueue_goOn]
      exact .single (.give (.refused i t e c.command) ⟨i, t, e, c.command⟩ rfl (entry_of_getElem? hc he) ht)
  | takenBack c t e cause hc hp =>
      have ht := hturn hc (by simp [hp, Phase.terminal?])
      exact CallQueue.moves_finish (s := { s with
        pending := s.pending.filter (·.1 ≠ e)
        lifecycle := if s.attached = some t then .ready else s.lifecycle }) _ hc ht
  | replied c t e r hc hp => exact CallQueue.moves_finish r hc (hturn hc (by simp [hp, Phase.terminal?]))

theorem callQueue_detach (t : Nat) (ha : s.attached = some t) : (s.detach t).callQueue = s.callQueue := by
  obtain ⟨runnable, he, -⟩ := s.detach_eq t ha
  have hp : (s.told (.error .sessionLost) s.pending).map Call.entry = s.calls.map Call.entry := by
    apply List.ext_getElem?
    intro j
    rw [List.getElem?_map, List.getElem?_map, getElem?_told, Option.map_map]
    exact congrArg (Option.map · _) (funext fun c => c.entry_told ..)
  rw [he]
  exact congrArg (fun l => { s.callQueue with entries := l }) hp

theorem Heard.callQueue_eq {t : Nat} {event : Event} (hh : s.Heard t event s') (ha : s.attached = some t) :
    s'.callQueue = s.callQueue.record (.heard t event) := by
  cases hh with
  | integrated | stray | subshell => rfl
  | settled e j code runnable hp hr hw =>
      have hcalls : (s.calls.modify j (Call.told (.ofCode code) [e])).map Call.entry = s.calls.map Call.entry :=
        (map_modify Call.entry _ id (fun c => c.entry_told ..) ..).trans (List.modify_id ..)
      exact congrArg (fun l => { s.callQueue.record _ with entries := l }) hcalls
  | closed => exact callQueue_detach (s := s.record (.heard t .closed)) t ha

theorem Dispatched.callQueue_eq {t : Nat} (hd : s.Dispatched t s') (hm : s.shared.Sound) :
    s'.callQueue = s.callQueue ∨
      ∃ x : Happening, x.asker? = none ∧ x.ender? = none ∧ x.actor? = none ∧ s'.callQueue = s.callQueue.record x := by
  cases hd with
  | sleeps hd => exact .inl rfl
  | shown l hl hd hdue => exact .inr ⟨.shown t, rfl, rfl, rfl, rfl⟩
  | cutOff l hl hd hdue hmail ho =>
      have ha := attached_of_line hm hl hd
      exact .inr ⟨.cutOff t, rfl, rfl, rfl, callQueue_detach (s := s.record (.cutOff t)) t ha⟩
  | heard l event mail s' hl hd hdue hmail hh =>
      have ha := attached_of_line hm hl hd
      exact .inr ⟨.heard t event, rfl, rfl, rfl, hh.callQueue_eq ha⟩

theorem Step.callQueue_moves (hs : Step H s s') (hm : s.shared.Sound) (h : Orderly s) :
    Moves s.callQueue s'.callQueue := by
  cases hs with
  | exec command =>
      rw [callQueue_exec]
      exact .single (.call command)
  | abort i => rw [callQueue_abort]
  | post t events => rw [callQueue_post]
  | hangUp t => rw [callQueue_hangUp]
  | host host => exact .refl
  | run task hr =>
      cases task with
      | call i =>
          have hsec := section_runCall (H := H) { s with runnable := s.runnable.erase (.call i) } i
          exact hsec.callQueue_moves h.hasTurn fun c => h.of_fresh
      | dispatcher t =>
          have hd := dispatched_runDispatcher { s with runnable := s.runnable.erase (.dispatcher t) } t
          rcases hd.callQueue_eq hm with he | ⟨x, hask, hend, hact, he⟩
          · exact he ▸ .refl
          · exact .single (he ▸ .report x hask hend hact)

theorem Reachable.ordered (h : Reachable H s) : s.callQueue.Ordered := by
  induction h with
  | start name host =>
      exact
        { outstanding_eq := rfl, nodup := .nil, free := fun _ => rfl, asked_once := .nil
          ended := by simp [callQueue, enders], given := by simp [callQueue, attempts], given_once := .nil, given_eq := rfl
          inTurn := .nil }
  | step h hs ih => exact ih.moves (hs.callQueue_moves h.sound h.orderly)

/-- What terminal `t` was given, oldest first. -/
def received (s : Session σ) (t : Nat) : List Attempt := (attempts s.history).filter (·.terminal = t)

/-- The calls that have asked for the turn, each with its command, in the order in which they did. -/
def asked (s : Session σ) : List (Nat × String) :=
  (askers s.history).filterMap fun i => s.calls[i]?.map fun c => (i, c.command)

theorem filter_lt_append_filter_eq {l : List Attempt} {n : Nat} (hlt : ∀ a ∈ l, a.terminal < n + 1)
    (hs : l.Pairwise fun a b => a.terminal ≤ b.terminal) :
    l.filter (·.terminal < n) ++ l.filter (·.terminal = n) = l := by
  induction l with
  | nil => rfl
  | cons a l ih =>
      have ih := ih (fun b hb => hlt b (List.mem_cons_of_mem a hb)) (List.pairwise_cons.1 hs).2
      by_cases ha : a.terminal < n
      · have hne : a.terminal ≠ n := Nat.ne_of_lt ha
        simp [ha, hne, ih]
      · have heq : ∀ b ∈ a :: l, b.terminal = n := by
          intro b hb
          have hle : a.terminal ≤ b.terminal := by
            rcases List.mem_cons.1 hb with rfl | hb
            · exact Nat.le_refl _
            · exact (List.pairwise_cons.1 hs).1 b hb
          have hlast := hlt b hb
          omega
        rw [List.filter_eq_nil_iff.2 fun b hb => by simp [heq b hb],
          List.filter_eq_self.2 fun b hb => by simp [heq b hb], List.nil_append]

theorem flatMap_filter_terminal {l : List Attempt} {n : Nat} (hlt : ∀ a ∈ l, a.terminal < n)
    (hs : l.Pairwise fun a b => a.terminal ≤ b.terminal) :
    (List.range n).flatMap (fun t => l.filter (·.terminal = t)) = l := by
  induction n generalizing l with
  | zero =>
      have hnil : l = [] := List.eq_nil_iff_forall_not_mem.2 fun a ha => absurd (hlt a ha) (Nat.not_lt_zero _)
      simp [hnil]
  | succ n ih =>
      have hearlier : ∀ t ∈ List.range n,
          l.filter (·.terminal = t) = (l.filter (·.terminal < n)).filter (·.terminal = t) := by
        intro t ht
        rw [List.filter_filter]
        apply List.filter_congr
        intro a _
        have hlt := List.mem_range.1 ht
        by_cases ha : a.terminal = t
        · simp [ha, hlt]
        · simp [ha]
      have hrest := ih (l := l.filter (·.terminal < n)) (by simp) (hs.filter _)
      rw [List.range_succ, List.flatMap_append, List.flatMap_singleton, List.flatMap_congr hearlier, hrest]
      exact filter_lt_append_filter_eq hlt hs

theorem Reachable.flatMap_received (h : Reachable H s) :
    (List.range s.lines.length).flatMap s.received = attempts s.history := by
  have hs := h.successive
  have hlen : s.shared.statuses.length = s.lines.length := List.length_map ..
  exact flatMap_filter_terminal (fun a ha => hlen ▸ (hs.lt a ha).1) (hs.sorted.imp And.left)

theorem Reachable.attempts_sublist_asked (h : Reachable H s) :
    ((attempts s.history).map fun a => (a.call, a.command)).Sublist s.asked := by
  have hk := h.ordered
  have hown : ∀ a ∈ attempts s.history, s.calls[a.call]?.map (fun c => (a.call, c.command)) =
      some (a.call, a.command) := by
    intro a ha
    obtain ⟨stage, hp, -⟩ := hk.given a ha
    rw [entries_getElem?, Option.map_eq_some_iff] at hp
    obtain ⟨c, hc, hp⟩ := hp
    have hcommand : c.command = a.command := congrArg Entry.command hp
    rw [hc, Option.map_some, hcommand]
  have hpairs : (attempts s.history).map (fun a => (a.call, a.command)) =
      ((attempts s.history).map (·.call)).filterMap fun i => s.calls[i]?.map fun c => (i, c.command) := by
    rw [List.filterMap_map, ← List.filterMap_eq_map]
    exact List.filterMap_congr fun a ha => (hown a ha).symm
  have hcalls : ((attempts s.history).map (·.call)).Sublist (askers s.history) :=
    hk.given_eq ▸ List.filter_sublist
  rw [hpairs]
  exact hcalls.filterMap _

/-- A call asks for the turn once. When a terminal is made for it or it gives a command to one, all calls that
asked before it have returned or were dropped. So what terminals were given, one terminal after another, are
commands of calls in the order in which these asked, and the numbers of the executions grow. The counter of
executions has no bound here. -/
theorem calls_act_in_order_of_asking (h : Reachable H s) :
    (askers s.history).Nodup ∧
    (∀ before x after j, s.history = before ++ x :: after → x.actor? = some j →
      j ∈ askers before ∧ ∀ i, [i, j].Sublist (askers before) →
        (∃ r, .returned i r ∈ before) ∨ ∃ p, .dropped i p ∈ before) ∧
    opened s.history = List.range s.lines.length ∧
    (((List.range s.lines.length).flatMap s.received).map fun a => (a.call, a.command)).Sublist s.asked ∧
    (((List.range s.lines.length).flatMap s.received).map (·.execution)).Pairwise (· < ·) := by
  -- Terminals follow one another, so what they were given one by one is all that was given, in order of time.
  have hk := h.ordered
  have hs := h.successive
  rw [h.flatMap_received]
  refine ⟨hk.asked_once, ?_, ?_, h.attempts_sublist_asked, ?_⟩
  · intro before x after j he hj
    obtain ⟨hmem, hover⟩ := hk.inTurn before x after he j hj
    exact ⟨hmem, fun i hi => mem_enders.1 (hover i hi)⟩
  · have hlen : s.shared.statuses.length = s.lines.length := List.length_map ..
    exact hlen ▸ hs.opened_eq
  · exact List.pairwise_map.2 (hs.sorted.imp And.right)

def lostAndDropped : Session Script :=
  let s : Session Script := { name := "helm", host := { integrates := true, replies := [.close, .ended (some 0)] } }
  (((((s.exec "make").exec "ctest").exec "install").settleWithin Script.host 3).abort 1).settle Script.host

theorem lostAndDropped_in_order : Reachable Script.host lostAndDropped ∧
    lostAndDropped.asked = [(0, "make"), (1, "ctest"), (2, "install")] ∧
    lostAndDropped.received 0 = [⟨0, 0, 1, "make"⟩] ∧ lostAndDropped.received 1 = [⟨2, 1, 2, "install"⟩] ∧
    ∃ before after, lostAndDropped.history = before ++ .sent 2 1 2 "install" :: after ∧
      ∀ i < 2, (∃ r, .returned i r ∈ before) ∨ ∃ p, .dropped i p ∈ before := by
  have h : Reachable Script.host lostAndDropped :=
    (((((Reachable.start ..).step (.exec "make")).step (.exec "ctest")).step (.exec "install")).settleWithin 3).step
      (.abort 1) |>.settle
  let before := lostAndDropped.history.take 17
  have hs : lostAndDropped.history = before ++ .sent 2 1 2 "install" :: lostAndDropped.history.drop 18 := rfl
  have hover := ((calls_act_in_order_of_asking h).2.1 before _ _ 2 hs rfl).2
  refine ⟨h, rfl, rfl, rfl, before, _, hs, ?_⟩
  intro i hi
  obtain rfl | rfl : i = 0 ∨ i = 1 := by omega
  · exact hover 0 (by decide)
  · exact hover 1 (by decide)

end CMakeHelm.Session
