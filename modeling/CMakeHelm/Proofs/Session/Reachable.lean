import CMakeHelm.Session
import Mathlib.Logic.Relation

namespace CMakeHelm.Session

variable {σ : Type} {H : Host σ} {s s' : Session σ}

def proceed (H : Host σ) (s : Session σ) (task : Task) : Session σ :=
  { s with runnable := s.runnable.erase task }.run H task

/-- One move of a session's callers, its terminals or the scheduler. The scheduler has several threads:
any task that can run may take its next section, wherever the others stand. -/
inductive Step (H : Host σ) (s : Session σ) : Session σ → Prop
  | exec (command : String) : Step H s (s.exec command)
  | abort (i : Nat) : Step H s (s.abort i)
  | post (t : Nat) (events : List Event) : Step H s (s.post t events)
  | hangUp (t : Nat) : Step H s (s.hangUp t)
  | host (host : σ) : Step H s { s with host }
  | run (task : Task) (hr : task ∈ s.runnable) : Step H s (s.proceed H task)

inductive Reachable (H : Host σ) : Session σ → Prop
  | start (name : String) (host : σ) : Reachable H { name, host }
  | step {s s' : Session σ} (h : Reachable H s) (hs : Step H s s') : Reachable H s'

/-- The session can have come to this state with the property in all states on the way. -/
inductive Throughout (H : Host σ) (P : Session σ → Prop) : Session σ → Prop
  | start (name : String) (host : σ) (hp : P { name, host }) : Throughout H P { name, host }
  | step {s s' : Session σ} (h : Throughout H P s) (hs : Step H s s') (hp : P s') : Throughout H P s'

theorem Throughout.reachable {P : Session σ → Prop} (h : Throughout H P s) : Reachable H s := by
  induction h with
  | start name host hp => exact .start name host
  | step h hs hp ih => exact ih.step hs

abbrev Steps (H : Host σ) : Session σ → Session σ → Prop := Relation.ReflTransGen (Step H)

theorem Reachable.steps (h : Reachable H s) (hs : Steps H s s') : Reachable H s' := by
  induction hs with
  | refl => exact h
  | tail _ hstep ih => exact ih.step hstep

theorem steps_runFirst (task : Task) (n : Nat) (s : Session σ) : Steps H s (runFirst H task n s) := by
  induction n generalizing s with
  | zero => exact .refl
  | succ n ih =>
      unfold runFirst
      split
      · exact .refl
      · next first rest hr =>
        split
        · next hfirst =>
          subst hfirst
          have hs := Step.run (H := H) (s := s) first (by simp [hr])
          simp only [proceed, hr, List.erase_cons_head] at hs
          exact .head hs (ih _)
        · exact .refl

theorem steps_advance (s : Session σ) : Steps H s (s.advance H) := by
  unfold advance
  split
  · exact .refl
  · exact steps_runFirst ..

theorem steps_settleWithin (n : Nat) (s : Session σ) : Steps H s (s.settleWithin H n) := by
  induction n generalizing s with
  | zero => exact .refl
  | succ n ih =>
      unfold settleWithin
      split
      · exact .refl
      · exact (steps_advance s).trans (ih _)

/-- Tasks take sections in this order, those of them that can run. -/
def interleave (H : Host σ) (s : Session σ) : List Task → Session σ
  | [] => s
  | task :: rest => (if task ∈ s.runnable then s.proceed H task else s).interleave H rest

theorem steps_interleave (tasks : List Task) (s : Session σ) : Steps H s (s.interleave H tasks) := by
  induction tasks generalizing s with
  | nil => exact .refl
  | cons task rest ih =>
      unfold interleave
      split
      · next hr => exact .head (.run task hr) (ih _)
      · exact ih _

theorem Reachable.settleWithin (h : Reachable H s) (n : Nat) : Reachable H (s.settleWithin H n) :=
  h.steps (steps_settleWithin n s)

theorem Reachable.interleave (h : Reachable H s) (tasks : List Task) : Reachable H (s.interleave H tasks) :=
  h.steps (steps_interleave tasks s)

theorem Reachable.settle (h : Reachable H s) : Reachable H (s.settle H) := h.settleWithin _

end CMakeHelm.Session
