import CMakeHelm.Session

namespace CMakeHelm.Session

inductive Reply where
  | ended (code : Option Int)
  | close
  | fail (cause : List String)
  | hold
deriving DecidableEq, Repr

structure Script.Terminal where
  sent : List (Nat × String) := []
  shows : Nat := 0
  isActive : Bool := false
  isClosed : Bool := false
deriving DecidableEq, Repr

structure Script where
  integrates : Bool
  replies : List Reply := []
  failure : Option (List String) := none
  terminals : List Script.Terminal := []
  names : List String := []
deriving DecidableEq, Repr

namespace Script

variable (s : Script)

def modify (t : Nat) (f : Terminal → Terminal) : Script := { s with terminals := s.terminals.modify t f }

def close (t : Nat) : Script := s.modify t ({ · with isClosed := true })

def create (name : String) : Script × Except (List String) (List Event) :=
  match s.failure with
  | some cause => ({ s with failure := none }, .error cause)
  | none =>
    ({ s with terminals := s.terminals ++ [{}], names := s.names ++ [name] },
      .ok (if s.integrates then [.integrated] else []))

def bringForward (t : Nat) : Script := s.modify t fun l => { l with isActive := true, shows := l.shows + 1 }

/-- What the replies make of an execution: the events, whether the terminal closes, why sending
fails, and the replies left. -/
def answer (execution : Nat) : List Reply → List Event × Bool × Except (List String) Unit × List Reply
  | [] => ([], false, .ok (), [])
  | .ended none :: rest =>
    let (events, answer) := answer execution rest
    (.ended execution none :: events, answer)
  | .ended (some code) :: rest => ([.ended execution (some code)], false, .ok (), rest)
  | .close :: rest => ([.closed], true, .ok (), rest)
  | .fail cause :: rest => ([], false, .error cause, rest)
  | .hold :: rest => ([], false, .ok (), rest)

def send (t execution : Nat) (command : String) : Script × List Event × Except (List String) Unit :=
  if s.terminals[t]?.any (·.isClosed) then (s, [], .error [s!"terminal {t + 1} is closed"])
  else
    let s := s.modify t fun l => { l with sent := l.sent ++ [(execution, command)] }
    let (events, closes, result, replies) := answer execution s.replies
    let s := { s with replies }
    (if closes then s.close t else s, events, result)

def host : Host Script where
  create s _ name := s.create name
  isActive s t := s.terminals[t]?.any (·.isActive)
  bringForward s t := s.bringForward t
  send s t execution command := s.send t execution command

end Script

end CMakeHelm.Session
