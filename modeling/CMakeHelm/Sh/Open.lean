import CMakeHelm.Sh.Test
import CMakeHelm.Sh.Machine

namespace CMakeHelm.Sh

open Run

/-- Descriptors with the streams they are to have; the last one for a descriptor counts. -/
abbrev Changes := List (Nat × Option Nat)

def Changes.handle? (changes : Changes) (fds : List (Nat × Nat)) (fd : Nat) : Option Nat :=
  (changes.reverse.lookup fd).getD (fds.lookup fd)

def Mode.creates : Mode → Bool
  | .read | .duplicate | .here => false
  | _ => true

def Mode.appends : Mode → Bool
  | .append | .bothAppend => true
  | _ => false

def Mode.empties : Mode → Bool
  | .write | .clobber | .merge | .both => true
  | _ => false

def Mode.usualFd : Mode → Nat
  | .read | .readWrite | .here => 0
  | _ => 1

def openFile (mode : Mode) (name : Octets) : Run (Except Fault Nat) := do
  let fs ← files
  match fs.find true (Test.pathOf name) with
  | .error e => return .error e
  | .ok (.free l) =>
    if mode.creates then
      setFiles (fs.put l (.file [] false))
      stamp l
      return .ok (← addStream (.file l 0 mode.appends))
    else return .error .absent
  | .ok (.entry l (.file _ executable)) =>
    if l = Test.nullDevice then return .ok (← addStream .null)
    else if mode ≠ .clobber ∧ mode.empties ∧ (← hasOption 'C') then return .error .exists
    else
      if mode.empties then
        setFiles (fs.put l (.file [] executable))
        stamp l
      return .ok (← addStream (.file l 0 mode.appends))
  | .ok (.entry _ _) =>
    if mode.creates then return .error .isDirectory else return .ok (← addStream .null)

def complainOpen (mode : Mode) (name : Octets) (e : Fault) : Run Unit := do
  match (← shell).dialect with
  | .bash =>
    let text := if e = .exists then "cannot overwrite existing file" else e.text
    complain (name ++ ": ".toList ++ text.toList)
  | .posix =>
    let (verb, absence) :=
      if mode.creates then ("cannot create ", "Directory nonexistent") else ("cannot open ", "No such file")
    let text := if e = .absent ∨ e = .notDirectory then absence else e.text
    complain (verb.toList ++ name ++ ": ".toList ++ text.toList)

def redirect (changes : Changes) (fd? : Option Nat) (mode : Mode) (target : Octets) :
    Run (Option Changes) := do
  let s ← shell
  let fd := fd?.getD mode.usualFd
  let duplicate (source : Nat) : Run (Option Changes) := do
    match changes.handle? s.fds source with
    | some handle => return some (changes ++ [(fd, some handle)])
    | none =>
      withFds changes (complain (decimal source ++ ": Bad file descriptor".toList))
      return none
  let open_ (mode : Mode) : Run (Option Nat) := do
    match ← openFile mode target with
    | .ok handle => return some handle
    | .error e =>
      withFds changes (complainOpen mode target e)
      return none
  let both (mode : Mode) : Run (Option Changes) := do
    return (← open_ mode).map fun handle => changes ++ [(1, some handle), (2, some handle)]
  let source? : Option Nat :=
    if target.getLast? = some '-' ∧ s.dialect = .bash then Arithmetic.natural? 10 target.dropLast
    else Arithmetic.natural? 10 target
  match mode with
  | .here => return some (changes ++ [(fd, some (← addStream (.pipe target [])))])
  | .both | .bothAppend => both mode
  | .duplicate | .merge =>
    if target = ['-'] then return some (changes ++ [(fd, none)])
    match source? with
    | some source =>
      let moved := if target.getLast? = some '-' ∧ source ≠ fd then [(source, none)] else []
      return (← duplicate source).map (· ++ moved)
    | none =>
      if mode = .merge ∧ fd?.getD 1 = 1 then both .merge
      else if s.dialect = .bash then
        complain (target ++ ": ambiguous redirect".toList)
        return none
      else fail "Syntax error: Bad fd number".toList
  | _ =>
    match descriptorNamed? target with
    | some source => duplicate source
    | none => return (← open_ mode).map fun handle => changes ++ [(fd, some handle)]

end CMakeHelm.Sh
