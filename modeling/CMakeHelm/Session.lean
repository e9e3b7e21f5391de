import CMakeHelm.Session.Event

namespace CMakeHelm.Session

/-- How far a call has come. One that is `attached` has yet to see whether its terminal has integrated,
one that is `announcing` has seen that it has not and has yet to say so, and one that is `refused` has
yet to take back the execution whose command the terminal did not take. -/
inductive Phase where
  | fresh
  | queued
  | attached (terminal : Nat)
  | announcing (terminal : Nat)
  | integrating (terminal : Nat)
  | registered (terminal execution : Nat) (reply : Option Outcome)
  | refused (terminal execution : Nat) (cause : List String)
  | executing (terminal execution : Nat) (reply : Option Outcome)
  | returned (result : Outcome)
  | cancelled
deriving DecidableEq

/-- A call can be dropped at the points where it may have to wait. -/
def Phase.waits : Phase → Bool
  | fresh | queued | integrating _ | executing .. => true
  | attached _ | announcing _ | registered .. | refused .. | returned _ | cancelled => false

inductive Happening where
  | asked (call : Nat)
  | opened (call terminal : Nat)
  | announced (call terminal : Nat)
  | registered (call terminal execution : Nat)
  | sent (call terminal execution : Nat) (command : String)
  | refused (call terminal execution : Nat) (command : String)
  | heard (terminal : Nat) (event : Event)
  | shown (terminal : Nat)
  | cutOff (terminal : Nat)
  | returned (call : Nat) (result : Outcome)
  | dropped (call : Nat) (phase : Phase)
deriving DecidableEq

structure Call where
  command : String
  phase : Phase := .fresh
  aborted : Bool := false
deriving DecidableEq

structure Line where
  mail : List Event
  senderOpen : Bool := true
  dispatching : Bool := true
  integrated : Bool := false
  due : Bool := false
deriving DecidableEq

inductive Task where
  | call (i : Nat)
  | dispatcher (t : Nat)
deriving DecidableEq

end Session

/-- At most one terminal at a time, and calls that take turns. `pending` maps executions to the calls
that wait for them; an entry outlives a cancelled call. Executions are counted without a bound. -/
structure Session (σ : Type) where
  name : String
  host : σ
  lifecycle : Session.Lifecycle := .absent
  attached : Option Nat := none
  pending : List (Nat × Nat) := []
  nextExecution : Nat := 1
  turn : Option Nat := none
  waiting : List Nat := []
  calls : List Session.Call := []
  lines : List Session.Line := []
  runnable : List Session.Task := []
  /-- All that has happened, oldest first. Nothing depends on it. -/
  history : List Session.Happening := []

namespace Session

variable {σ : Type} (H : Host σ) (s : Session σ)

def wake (task : Task) : Session σ :=
  { s with runnable := if task ∈ s.runnable then s.runnable else s.runnable ++ [task] }

def stay (task : Task) : Session σ := { s with runnable := task :: s.runnable }

def record (x : Happening) : Session σ := { s with history := s.history ++ [x] }

def setPhase (i : Nat) (phase : Phase) : Session σ :=
  { s with calls := s.calls.modify i ({ · with phase }) }

def modifyLine (t : Nat) (f : Line → Line) : Session σ := { s with lines := s.lines.modify t f }

def phase? (i : Nat) : Option Phase := s.calls[i]?.map (·.phase)

def isIntegrated (t : Nat) : Bool := s.lines[t]?.any (·.integrated)

def isDispatching (t : Nat) : Bool := s.lines[t]?.any (·.dispatching)

def releaseTurn : Session σ :=
  match s.waiting with
  | [] => { s with turn := none }
  | i :: rest => { s with turn := some i, waiting := rest }.wake (.call i)

def finish (i : Nat) (result : Outcome) : Session σ :=
  ((s.record (.returned i result)).setPhase i (.returned result)).releaseTurn

/-- Events that arrive after the sender or the dispatcher has gone are lost. -/
def post (t : Nat) (events : List Event) : Session σ :=
  if events ≠ [] ∧ s.lines[t]?.any (fun l => l.senderOpen && l.dispatching) then
    (s.modifyLine t fun l => { l with mail := l.mail ++ events }).wake (.dispatcher t)
  else s

def goOn (i : Nat) (phase : Phase) : Session σ := (s.setPhase i phase).stay (.call i)

def attach (i : Nat) (host : σ) (mail : List Event) : Session σ :=
  let t := s.lines.length
  ({ s with
      host := H.bringForward host t
      lines := s.lines ++ [({ mail := mail } : Line)]
      attached := some t
      lifecycle := .created }.record (.opened i t)).wake (.dispatcher t)

def begin (i : Nat) : Session σ :=
  match s.attached with
  | some t =>
    { s with host := if H.isActive s.host t then s.host else H.bringForward s.host t }.goOn i (.attached t)
  | none =>
    let t := s.lines.length
    match H.create s.host t s.name with
    | (host, .error cause) => { s with host }.finish i (.error (.start cause))
    | (host, .ok mail) => (s.attach H i host mail).goOn i (.attached t)

/-- Whether the terminal is still attached is not looked at. -/
def announce (i t : Nat) : Session σ :=
  ({ s with lifecycle := .awaitingIntegration }.record (.announced i t)).goOn i (.integrating t)

def register (i t : Nat) : Session σ :=
  let e := s.nextExecution
  let s := { s with nextExecution := e + 1 }
  if s.attached = some t then
    ({ s with pending := s.pending ++ [(e, i)], lifecycle := .executing }.record (.registered i t e)).goOn i
      (.registered t e none)
  else s.finish i (.error .sessionLost)

/-- Nothing is locked meanwhile: by now the terminal may be gone. -/
def send (i t e : Nat) (reply : Option Outcome) (command : String) : Session σ :=
  match H.send s.host t e command with
  | (host, events, .ok ()) =>
    ({ s with host }.record (.sent i t e command)).goOn i (.executing t e reply) |>.post t events
  | (host, events, .error cause) =>
    ({ s with host }.record (.refused i t e command)).goOn i (.refused t e cause) |>.post t events

def takeBack (i t e : Nat) (cause : List String) : Session σ :=
  { s with
    pending := s.pending.filter (·.1 ≠ e)
    lifecycle := if s.attached = some t then .ready else s.lifecycle }.finish i (.error (.send cause))

/-- Call `i` is dropped: it gives up the turn, or its place among those that wait for it. Its execution,
if it has one, stays pending. -/
def cancel (i : Nat) (phase : Phase) : Session σ :=
  let s := (s.record (.dropped i phase)).setPhase i .cancelled
  if s.turn = some i then s.releaseTurn else { s with waiting := s.waiting.erase i }

def runCall (i : Nat) : Session σ :=
  match s.calls[i]? with
  | none => s
  | some c =>
    if c.aborted && c.phase.waits then s.cancel i c.phase
    else
      match c.phase with
      | .fresh =>
        let s := s.record (.asked i)
        if s.turn = none then { s with turn := some i }.begin H i
        else { s with waiting := s.waiting ++ [i] }.setPhase i .queued
      | .queued => if s.turn = some i then s.begin H i else s
      | .attached t => if s.isIntegrated t then s.register i t else s.goOn i (.announcing t)
      | .announcing t => s.announce i t
      | .integrating t =>
        if s.isIntegrated t then s.register i t
        else if s.isDispatching t then s
        else s.finish i (.error .sessionLost)
      | .registered t e reply => s.send H i t e reply c.command
      | .refused t e cause => s.takeBack i t e cause
      | .executing _ _ (some result) => s.finish i result
      | .executing _ _ none | .returned _ | .cancelled => s

def reply (i e : Nat) (result : Outcome) : Session σ :=
  match s.phase? i with
  | some (.registered t e' none) => if e' = e then s.setPhase i (.registered t e (some result)) else s
  | some (.executing t e' none) =>
    if e' = e then (s.setPhase i (.executing t e (some result))).wake (.call i) else s
  | _ => s

def wakeIntegrating (t : Nat) : Session σ :=
  (((List.range s.calls.length).filter fun i => s.phase? i = some (.integrating t)).map Task.call).foldl wake s

/-- Terminal `t` is gone, and with it all that was pending. -/
def detach (t : Nat) : Session σ :=
  let s := s.modifyLine t ({ · with dispatching := false })
  let s := if s.attached = some t then { s with attached := none, lifecycle := .absent } else s
  let lost := s.pending
  let s := lost.foldl (fun (s : Session σ) p => s.reply p.2 p.1 (.error .sessionLost)) { s with pending := [] }
  s.wakeIntegrating t

def handle (t : Nat) : Event → Session σ
  | .integrated => (s.modifyLine t ({ · with integrated := true, due := true })).wakeIntegrating t
  | .ended e none =>
    if (s.pending.lookup e).isSome then { s with lifecycle := .awaitingSubshellExit } else s
  | .ended e (some code) =>
    match s.pending.lookup e with
    | none => s
    | some i =>
      { s with pending := s.pending.filter (·.1 ≠ e), lifecycle := .ready }.reply i e (.ofCode code)
  | .closed => s.detach t

def hear (t : Nat) (e : Event) : Session σ := (s.record (.heard t e)).handle t e

def cutOff (t : Nat) : Session σ := (s.record (.cutOff t)).detach t

def showIntegrated (t : Nat) : Session σ :=
  { (s.record (.shown t)).modifyLine t ({ · with due := false }) with lifecycle := s.lifecycle.integrated }

def runDispatcher (t : Nat) : Session σ :=
  match s.lines[t]? with
  | none => s
  | some l =>
    if !l.dispatching then s
    else if l.due then (s.showIntegrated t).stay (.dispatcher t)
    else
      match l.mail with
      | [] => if l.senderOpen then s else s.cutOff t
      | e :: mail => ((s.modifyLine t ({ · with mail })).hear t e).stay (.dispatcher t)

/-- One section of a task: what it does under one lock, or between two locks. The runtime has several
threads, so before the next section of a task any others may come. A task that has not come to a waiting
point stays runnable. -/
def run : Task → Session σ
  | .call i => s.runCall H i
  | .dispatcher t => s.runDispatcher t

/-- More sections than a task has before it waits. -/
def sections : Task → Nat
  | .call _ => 8
  | .dispatcher t => 2 * (s.lines[t]?.map (·.mail.length)).getD 0 + 4

def runFirst (task : Task) : Nat → Session σ → Session σ
  | 0, s => s
  | n + 1, s =>
    match s.runnable with
    | [] => s
    | first :: rest => if first = task then runFirst task n ({ s with runnable := rest }.run H task) else s

def advance : Session σ :=
  match s.runnable with
  | [] => s
  | task :: _ => runFirst H task (s.sections task) s

def isIdle : Bool := s.runnable.isEmpty

def settleWithin : Nat → Session σ → Session σ
  | 0, s => s
  | n + 1, s => if s.isIdle then s else settleWithin n (s.advance H)

/-- Run until nothing can run, on one thread. A call is woken for its turn, its terminal, its result or
its end, and wakes a dispatcher when it makes a terminal or sends: ten times a call are more than enough. -/
def settle : Session σ := settleWithin H (s.runnable.length + 10 * s.calls.length) s

def exec (command : String) : Session σ :=
  { s with calls := s.calls ++ [({ command := command } : Call)] }.wake (.call s.calls.length)

def abort (i : Nat) : Session σ :=
  match s.phase? i with
  | none | some (.returned _) | some .cancelled => s
  | some _ => { s with calls := s.calls.modify i ({ · with aborted := true }) }.wake (.call i)

def hangUp (t : Nat) : Session σ :=
  if s.lines[t]?.any (·.senderOpen) then
    (s.modifyLine t ({ · with senderOpen := false })).wake (.dispatcher t)
  else s

def result? (i : Nat) : Option Outcome :=
  match s.phase? i with
  | some (.returned r) => some r
  | _ => none

end Session

end CMakeHelm
