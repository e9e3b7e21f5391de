namespace CMakeHelm.Session

inductive Lifecycle where
  | absent
  | created
  | awaitingIntegration
  | ready
  | executing
  | awaitingSubshellExit
deriving DecidableEq, Repr

namespace Lifecycle

def all : List Lifecycle := [absent, created, awaitingIntegration, ready, executing, awaitingSubshellExit]

def display : Lifecycle → String
  | absent => "absent"
  | created => "created"
  | awaitingIntegration => "awaiting integration"
  | ready => "ready"
  | executing => "executing"
  | awaitingSubshellExit => "awaiting subshell exit"

def integrated : Lifecycle → Lifecycle
  | created | awaitingIntegration => ready
  | l => l

end Lifecycle

/-- An execution that ends without an exit code has opened a nested shell and still runs. -/
inductive Event where
  | integrated
  | ended (execution : Nat) (code : Option Int)
  | closed
deriving DecidableEq, Repr

inductive ExecError where
  | commandFailed (code : Int)
  | sessionLost
  | start (cause : List String)
  | send (cause : List String)
deriving DecidableEq, Repr

def ExecError.message : ExecError → String
  | commandFailed code => s!"command exited with code {code}"
  | sessionLost => "shell session was closed before the command finished"
  | start cause => "failed to start shell session: " ++ ": ".intercalate cause
  | send cause => "failed to send command: " ++ ": ".intercalate cause

inductive Outcome where
  | ok
  | error (e : ExecError)
deriving DecidableEq, Repr

def Outcome.ofCode (code : Int) : Outcome := if code = 0 then .ok else .error (.commandFailed code)

/-- What makes terminals. `σ` is all that it remembers; a terminal is known by its number. Making a
terminal and sending to one may report events at once. -/
structure Host (σ : Type) where
  create : σ → (terminal : Nat) → (name : String) → σ × Except (List String) (List Event)
  isActive : σ → Nat → Bool
  bringForward : σ → Nat → σ
  send : σ → (terminal execution : Nat) → (command : String) → σ × List Event × Except (List String) Unit

end CMakeHelm.Session
