import CMakeHelm.Proofs.Session.Attempt
import Mathlib.Data.List.Induction

namespace CMakeHelm.Session

variable {σ : Type} {H : Host σ} {s s' : Session σ} {i t e : Nat} {history more : List Happening} {x : Happening}

theorem announcedLate_of_concat (h : AnnouncedLate (history ++ [x])) :
    AnnouncedLate history ∨ ∃ i t, x = .announced i t ∧ (.shown t ∈ history ∨ Gone history t) := by
  obtain ⟨before, i, t, after, he, hl⟩ := h
  rcases concat_eq_append_cons he with ⟨after', rfl, he'⟩ | ⟨rfl, rfl, rfl⟩
  · exact .inl ⟨before, i, t, after', he', hl⟩
  · exact .inr ⟨i, t, rfl, hl⟩

theorem announcedLate_of_append (hx : ∀ x ∈ more, x.isAside = true) (h : AnnouncedLate (history ++ more)) :
    AnnouncedLate history := by
  induction more using List.reverseRecOn with
  | nil => rwa [List.append_nil] at h
  | append_singleton more x ih =>
      obtain ⟨hmore, hlast⟩ := List.forall_mem_append.1 hx
      rw [← List.append_assoc] at h
      rcases announcedLate_of_concat h with h | ⟨i, t, rfl, -⟩
      · exact ih hmore h
      · simp [Happening.isAside] at hlast

namespace Shared

variable {m m' : Shared}

/-- The lifecycle says that a terminal has yet to integrate which is gone, or shown to have integrated. -/
def Misleads (m : Shared) : Prop :=
  m.lifecycle = .awaitingIntegration ∧ ∀ t, m.attached = some t → .shown t ∈ m.history

theorem Move.misleads (hs : m.Sound) (hm : Move m m') (h : AnnouncedLate m'.history) :
    AnnouncedLate m.history ∨ m'.Misleads := by
  have hold {x : Happening} (hx : ∀ i t, x ≠ .announced i t) (h : AnnouncedLate (m.history ++ [x])) :
      AnnouncedLate m.history := by
    refine (announcedLate_of_concat h).resolve_right ?_
    rintro ⟨i, t, rfl, -⟩
    exact hx i t rfl
  cases hm with
  | announce i t hp =>
      refine (announcedLate_of_concat h).imp_right ?_
      rintro ⟨j, u, hju, hlate⟩
      obtain ⟨rfl, rfl⟩ : i = j ∧ t = u := by simpa using hju
      refine ⟨rfl, fun u hu => ?_⟩
      have ha : m.attached = some t := (hs.attached_or_gone hp rfl).resolve_right fun hg => by
        simp [show m.attached = some u from hu] at hg
      obtain rfl : u = t := Option.some.inj (hu.symm.trans ha)
      exact List.mem_append_left _ (hlate.resolve_right fun hg => (hs.ended u hg).2 ha)
  | call | queue | attach | look | skip => exact .inl h
  | note x hx =>
      refine .inl (hold ?_ h)
      rintro i t rfl
      simp [Happening.isRemark] at hx
  | leave t x ha hx => exact .inl (hold (by rcases hx with rfl | rfl <;> simp) h)
  | make | register | send | refuse | takeBack | finish | drop | integrate | shown | subshell | stray | settle =>
      exact .inl (hold (by simp) h)

end Shared

/-- The call of an execution has yet to send its command, or could not. -/
def Phase.isUnsent : Phase → Bool
  | .registered .. | .refused .. => true
  | .fresh | .queued | .attached _ | .announcing _ | .integrating _ | .executing .. | .returned _ | .cancelled => false

/-- What is attached, what is dispatched to and what is pending agree. -/
structure Coherent (s : Session σ) : Prop where
  isDispatching_iff : ∀ t, s.isDispatching t = true ↔ s.attached = some t
  attached_of_absent : s.lifecycle = .absent → s.attached = none
  pending_of_detached : s.attached = none → s.pending = []
  unready : ∀ t, s.attached = some t → s.isIntegrated t = false →
    s.pending = [] ∧ (s.lifecycle = .created ∨ s.lifecycle = .awaitingIntegration)
  pending : ∀ e i, (e, i) ∈ s.pending → e < s.nextExecution ∧ ∃ t, s.attached = some t ∧
    (∀ p, s.phase? i = some p → p.isUnsent = false → ∃ command, .sent i t e command ∈ s.history) ∧
    ∀ j u command, .sent j u e command ∈ s.history → u = t

structure Agrees (s : Session σ) : Prop extends Coherent s where
  absent_of_detached : s.attached = none → s.lifecycle = .absent
  ready : ∀ t, s.attached = some t → .shown t ∈ s.history →
    s.lifecycle = .ready ∨ s.lifecycle = .executing ∨ s.lifecycle = .awaitingSubshellExit

theorem Reachable.sent_of_registered (h : Reachable H s) {p : Phase} (hpend : (e, i) ∈ s.pending)
    (hreg : .registered i t e ∈ s.history) (hp : s.phase? i = some p) (hu : p.isUnsent = false) :
    ∃ command, .sent i t e command ∈ s.history := by
  obtain ⟨before, after, he⟩ := List.append_of_mem hreg
  have hp' := (s.phases_getElem? i).trans hp
  have hsent (hs : ∃ command, .sent i t e command ∈ after) : ∃ command, .sent i t e command ∈ s.history :=
    hs.imp fun command hs => by simp [he, hs]
  cases h.fate he with
  | waits hn ha hpend' hi =>
      cases hi with
      | registered hi | refused _ hi =>
          obtain rfl := Option.some.inj (hp'.symm.trans hi)
          simp [Phase.isUnsent] at hu
      | executing hi hs => exact hsent hs
      | returned r ho => simp at ho
      | cancelled o ho hi hd hs => exact hsent hs
  | decided x hx hnp => exact absurd hpend (hnp i)
  | takenBack cause hnp => exact absurd hpend (hnp i)

theorem Reachable.registered_of_sent (h : Reachable H s) {command : String} (hs : .sent i t e command ∈ s.history) :
    .registered i t e ∈ s.history := by
  obtain ⟨before, after, he⟩ := List.append_of_mem hs
  have hreg := (h.successive.timely before _ after he).attempted ⟨i, t, e, command⟩ rfl
  rw [he]
  exact List.mem_append_left _ hreg

theorem Reachable.coherent (h : Reachable H s) : Coherent s where
  isDispatching_iff t := by
    rw [isDispatching_eq]
    exact h.sound.dispatching_iff t
  attached_of_absent := h.sound.attached_of_absent
  pending_of_detached := h.sound.pending_eq_nil
  unready t := by
    rw [isIntegrated_eq]
    exact h.sound.unready t
  pending e i hpend := by
    obtain ⟨t, ha, hreg⟩ := h.sound.registered_of_pending e i hpend
    refine ⟨h.sound.numbered.lt_next hreg, t, ha, fun p => h.sent_of_registered hpend hreg, fun j u command hs => ?_⟩
    exact (h.sound.numbered.unique (h.registered_of_sent hs) hreg).2

theorem Reachable.agrees (h : Reachable H s) (hn : ¬ AnnouncedLate s.history) : Agrees s :=
  { h.coherent with
    absent_of_detached := fun ha => (h.sound.detached ha).resolve_right fun hl => hn hl.2
    ready := fun t ha hs => (h.sound.ready t ha hs).imp_right (Or.imp_right (Or.resolve_right · fun hl => hn hl.2)) }

theorem Agrees.not_misleads (h : Agrees s) : ¬ s.shared.Misleads := by
  rintro ⟨hl, hshown⟩
  have hl : s.lifecycle = .awaitingIntegration := hl
  cases ha : s.attached with
  | none => exact absurd (hl.symm.trans (h.absent_of_detached ha)) (by simp)
  | some t => simpa [hl] using h.ready t ha (hshown t ha)

theorem Throughout.not_announcedLate (h : Throughout H Agrees s) : ¬ AnnouncedLate s.history := by
  induction h with
  | start name host hp =>
      rintro ⟨before, i, t, after, he, -⟩
      exact absurd he (by simp)
  | step h hs hp ih =>
      intro hl
      rcases hs.addsAside_or_move h.reachable.sound with ⟨more, he, hmore⟩ | hm
      · exact ih (announcedLate_of_append hmore (he ▸ hl))
      · exact (hm.misleads h.reachable.sound hl).elim ih hp.not_misleads

theorem Reachable.throughout_agrees (h : Reachable H s) (hn : ¬ AnnouncedLate s.history) : Throughout H Agrees s := by
  induction h with
  | start name host => exact .start name host ((Reachable.start (H := H) name host).agrees hn)
  | step h hs ih =>
      obtain ⟨more, he⟩ := Steps.history_grows (.single hs) h
      refine (ih fun hl => hn ?_).step hs ((h.step hs).agrees hn)
      exact he ▸ hl.append more

/-- What is attached, dispatched to and pending always agrees. All along the lifecycle has agreed with it exactly if
no call has said that it waits for a terminal to integrate which was gone by then or shown to have integrated; and if
the lifecycle is wrong, that is what it says. -/
theorem lifecycle_attached_pending_agree (h : Reachable H s) :
    Coherent s ∧ (Throughout H Agrees s ↔ ¬ AnnouncedLate s.history) ∧
      (¬ Agrees s → s.lifecycle = .awaitingIntegration) := by
  refine ⟨h.coherent, ⟨Throughout.not_announcedLate, h.throughout_agrees⟩, fun hn => ?_⟩
  by_contra hl
  refine hn { h.coherent with
    absent_of_detached := fun ha => (h.sound.detached ha).resolve_right fun hw => hl hw.1
    ready := fun t ha hs => (h.sound.ready t ha hs).imp_right (Or.imp_right (Or.resolve_right · fun hw => hl hw.1)) }

def runningMake : Session Script :=
  let s : Session Script := { name := "helm", host := { integrates := true } }
  (s.exec "make").settle Script.host

theorem runningMake_agrees : Reachable Script.host runningMake ∧ runningMake.attached = some 0 ∧
    Agrees runningMake ∧ runningMake.pending = [(1, 0)] ∧ .sent 0 0 1 "make" ∈ runningMake.history := by
  have h : Reachable Script.host runningMake := ((Reachable.start ..).step (.exec "make")).settle
  have hall := lifecycle_attached_pending_agree h
  refine ⟨h, rfl, ?_, rfl, by decide⟩
  by_contra hn
  exact absurd (hall.2.2 hn) (by decide)

def closedBeforeAnnouncing : Session Script :=
  let s : Session Script := { name := "helm", host := { integrates := false } }
  let s := (s.exec "make").interleave Script.host [.call 0, .call 0]
  (s.post 0 [.closed]).interleave Script.host [.dispatcher 0, .call 0, .call 0, .dispatcher 0]

/-- Nothing is attached and nothing goes on, yet the lifecycle is not absent. -/
theorem closedBeforeAnnouncing_not_absent : Reachable Script.host closedBeforeAnnouncing ∧
    closedBeforeAnnouncing.runnable = [] ∧ closedBeforeAnnouncing.attached = none ∧
      closedBeforeAnnouncing.lifecycle = .awaitingIntegration ∧
        closedBeforeAnnouncing.result? 0 = some (.error .sessionLost) :=
  ⟨((((Reachable.start ..).step (.exec "make")).interleave _).step (.post 0 _)).interleave _, rfl, rfl, rfl, rfl⟩

end CMakeHelm.Session
