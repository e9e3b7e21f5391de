import CMakeHelm.Session.Event
import CMakeHelm.Session.Marker
import CMakeHelm.Sh.Process

namespace CMakeHelm.Session

structure Shells.Line where
  process : Sh.Process
  partial_ : Sh.Octets := []

structure Shells where
  program : String
  fs : FileSystem
  vars : List (Sh.Octets × Sh.Variable)
  lines : List Shells.Line := []
  shown : List (List Char) := []

namespace Shells

open Sh

def environment (vars : List (String × String)) : List (Octets × Variable) :=
  vars.map fun (name, text) => (octetsOf name, { value := some (octetsOf text), exported := true })

def cutLines (cs : Octets) : List Octets × Octets :=
  let pieces := Text.split (· == '\n') cs
  (pieces.dropLast, (pieces.getLast?).getD [])

def readOutput (line : Octets) : Option (List Char) × Option Event :=
  Marker.readLine (Marker.decodeLine (bytesOf line))

/-- Let a shell run on the text that is typed for it. Its last line counts when it has closed. -/
def run (s : Shells) (l : Line) (typed : String) : Shells × Line × List Event :=
  let process := { l.process with machine := { l.process.machine with fs := s.fs } }
  let (process, out) := process.type (octetsOf typed)
  let (complete, rest) := cutLines (l.partial_ ++ out)
  let complete := if process.isClosed ∧ rest ≠ [] then complete ++ [rest] else complete
  let parts := complete.map readOutput
  ({ s with fs := process.machine.fs, shown := s.shown ++ parts.filterMap (·.1) }, { process, partial_ := rest },
    parts.filterMap (·.2) ++ if process.isClosed then [.closed] else [])

def spawnError (s : Shells) (reason : String) : List String := [s!"failed to spawn shell \x60{s.program}\x60", reason]

def create (s : Shells) : Shells × Except (List String) (List Event) :=
  if '\x00' ∈ s.program.toList then (s, .error (s.spawnError "nul byte found in provided data"))
  else
    match Process.start s.fs s.vars (octetsOf s.program) with
    | .error e => (s, .error (s.spawnError e.message))
    | .ok process =>
      let (s, l, events) := s.run { process } Marker.greeting
      ({ s with lines := s.lines ++ [l] }, .ok events)

def send (s : Shells) (t execution : Nat) (command : String) : Shells × List Event × Except (List String) Unit :=
  match s.lines[t]? with
  | none => (s, [], .error ["shell process has exited"])
  | some l =>
    if l.process.isClosed then (s, [], .error ["shell process has exited"])
    else
      let (s, l, events) := s.run l (Marker.typed execution command)
      ({ s with lines := s.lines.set t l }, events, .ok ())

def host : Host Shells where
  create s _ _ := s.create
  isActive _ _ := true
  bringForward s _ := s
  send := send

end Shells

end CMakeHelm.Session
