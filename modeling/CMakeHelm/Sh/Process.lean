import CMakeHelm.Sh.Eval

namespace CMakeHelm.Sh

inductive Code where
  | typed (line : Nat)
  | script (rest : Reader)
  | utility (name : String) (argv : List Octets)

/-- A program that reads what is typed. What it runs is undone when it turns out to need more, and done
again when that has come; only what it has printed stays. -/
structure Process where
  machine : Machine
  code : Code
  shown : Nat := 0
  isClosed : Bool := false

namespace Process

open Run

/-- How deep calls may go, and how often one loop may turn, before a process is lost. -/
def depth : Nat := 200000

def streams : Array Stream := #[.typed [], .pipe [] [], .null]

def descriptors : List (Nat × Nat) := [(0, 0), (1, 1), (2, 2)]

def firstPid : Nat := 1000

def ofShell (fs : FileSystem) (shell : Shell) (code : Code) : Process where
  machine := { fs, streams, shell, nextPid := firstPid + 1 }
  code := code

def launch (fs : FileSystem) (vars : List (Octets × Variable)) : Nat → Octets → List Octets → Except Fault Process
  | 0, _, _ => .error .tooManyLinks
  | n + 1, path, argv => do
    let fresh (dialect : Dialect) (name : Octets) (args : List Octets) : Shell :=
      Shell.fresh dialect firstPid 0 name args vars fs.workDir fs.workPath.chars descriptors
    match Program.form (← Program.atPath fs path) with
    | .text => .error .badFormat
    | .script interpreter argument =>
      launch fs vars n interpreter (interpreter :: argument.toList ++ path :: argv.tail)
    | .image name =>
      if !Program.isShell name then
        return ofShell fs (fresh .posix (argv.head?.getD []) argv.tail) (.utility name argv)
      let call := Invocation.ofWords argv
      let shell := Invocation.configure call (fresh (Program.dialect name) call.name call.args)
      let script (text : Octets) : Code := .script (Shell.reader shell (text ++ ['\n']) 1 true)
      match call.source with
      | .input => return ofShell fs shell (.typed 1)
      | .given text => return ofShell fs shell (script text)
      | .file file =>
        match fs.read (Test.pathOf file) with
        | .ok content => return ofShell fs shell (script (ofBytes content))
        | .error _ => return { ofShell fs shell (.typed 1) with isClosed := true }
      | .missing => return { ofShell fs shell (.typed 1) with isClosed := true }

def start (fs : FileSystem) (vars : List (Octets × Variable)) (program : Octets) : Except Fault Process := do
  let search := ((vars.lookup "PATH".toList).bind (·.value)).getD []
  if program.isEmpty then .error .absent
  launch fs vars 5 (← Program.locate fs search program) [program]

inductive Next where
  | wait
  | finish
  | malformed (text : Octets) (line : Nat) (t : Trouble)
  | commands (cs : List Command) (p : Process)
  | utility (name : String) (argv : List Octets)

variable (p : Process)

def typedRest : Octets :=
  match p.machine.streams[(0 : Nat)]? with
  | some (.typed rest) => rest
  | _ => []

def setTyped (rest : Octets) : Process :=
  { p with machine := { p.machine with streams := p.machine.streams.setIfInBounds 0 (.typed rest) } }

def next : Next :=
  match p.code with
  | .utility name argv => .utility name argv
  | .script r =>
    if Grammar.isSpent r then .finish
    else
      let fresh := Shell.reader p.machine.shell [] 1 true
      let r := { r with groups := fresh.groups, aliases := fresh.aliases }
      match Grammar.unit r with
      | .ok (cs, rest) => .commands cs { p with code := .script rest }
      | .error t => .malformed r.rest r.line t
  | .typed line =>
    match Grammar.unit (Shell.reader p.machine.shell p.typedRest line false) with
    | .ok (cs, r) => .commands cs ({ p with code := .typed r.line }.setTyped r.rest)
    | .error (.incomplete _) => .wait
    | .error t => .malformed p.typedRest line t

def attempt (body : Run Bool) : Run Bool := do
  let goesOn ← try body
    catch
      | .blocked => throw .blocked
      | .exhausted => throw .exhausted
      | .killed pid signal => throw (.killed pid signal)
      | .discard => pure true
      | _ => pure false
  if !goesOn then Eval.ending depth (pure ())
  Eval.settle depth (some (← get).clock) 0
  return goesOn

def printedBy (m : Machine) : Octets :=
  match m.streams[(1 : Nat)]? with
  | some (.pipe front back) => front ++ back.reverse
  | _ => []

def commit (m : Machine) (isClosed : Bool) : Process × Octets :=
  ({ p with machine := { m with streams := m.streams.setIfInBounds 1 (.pipe [] []) }, shown := 0, isClosed },
    (printedBy m).drop p.shown)

/-- Run `body` in the state `after`, or go back to the state now. -/
def take (after : Process) (body : Run Bool) : Process × Octets × Bool :=
  match attempt body after.machine with
  | (.ok goesOn, m) => let (q, out) := after.commit m !goesOn; (q, out, goesOn)
  | (.error .blocked, m) =>
    let printed := printedBy m
    ({ p with shown := printed.length }, printed.drop p.shown, false)
  | (.error _, m) => let (q, out) := after.commit m true; (q, out, false)

def runWithin : Nat → Process → Process × Octets
  | 0, p => (p, [])
  | n + 1, p =>
    if p.isClosed then (p, [])
    else
      let (q, out, goesOn) := match p.next with
        | .wait => (p, [], false)
        | .finish => p.take p (return false)
        | .malformed text line t => p.take p do
          Invocation.complainTrouble [] text line t
          setStatus 2
          throw Stop.exit
        | .commands cs q => p.take q do
          if !(← hasOption 'n') then Eval.runAll depth false cs
          return true
        | .utility name argv => p.take p do
          setStatus (← Eval.image depth name argv p.machine.shell.vars)
          return false
      if goesOn then
        let (q, more) := runWithin n q
        (q, out ++ more)
      else (q, out)

/-- Run as far as what has been typed allows. Each part uses up some of the text that it is read
from. -/
def run : Process × Octets :=
  let left := match p.code with
    | .script r => r.rest.length
    | _ => p.typedRest.length
  runWithin (left + 2) p

def type (text : Octets) : Process × Octets := (p.setTyped (p.typedRest ++ text)).run

end Process

end CMakeHelm.Sh
