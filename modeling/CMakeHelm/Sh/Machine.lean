import CMakeHelm.Sh.Mode
import CMakeHelm.Sh.Variable

namespace CMakeHelm.Sh

inductive Stream where
  | null
  | typed (rest : Octets)
  /-- A queue; what came in last stands at the front of `back`. -/
  | pipe (front back : Octets)
  | file (l : Location) (position : Nat) (appends : Bool)
deriving DecidableEq, Repr

structure Function where
  body : Command
  source : Octets
  exported : Bool := false

structure Call where
  name : Octets
  source : Octets
  line : Nat

/-- What belongs to one shell process; a subshell starts with a copy. -/
structure Shell where
  dialect : Dialect
  pid : Nat
  parent : Nat := 0
  level : Nat := 0
  name : Octets
  source : Octets := []
  args : List Octets := []
  vars : List (Octets × Variable)
  functions : List (Octets × Function) := []
  aliases : List (Octets × Octets) := []
  locals : List (List (Octets × Option Variable)) := []
  calls : List Call := []
  status : Int := 0
  statuses : List Int := [0]
  dir : Location
  workPath : Octets
  stacked : List Octets := []
  fds : List (Nat × Nat)
  options : List Char := []
  switches : List String := []
  mask : Nat := 18
  traps : List (Nat × Octets) := []
  lastJob : Option Nat := none
  line : Nat := 1
  loops : Nat := 0
  substituted : Int := 0
  builtin : Octets := []
  optionOffset : Nat := 1

/-- Commands in the background run when they are waited for. -/
structure Job where
  pid : Nat
  number : Nat := 1
  text : Octets := []
  shell : Shell
  body : Command
  started : Nat := 0
  ended : Nat := 0
  told : Option (Nat × Nat) := none
  printed : List (Nat × Nat) := []
  result : Option Int := none
  noticed : Bool := false

structure Machine where
  fs : FileSystem
  streams : Array Stream
  shell : Shell
  jobs : List Job := []
  signals : List Nat := []
  nextPid : Nat
  /-- Milliseconds, of which only sleeping takes any. -/
  clock : Nat := 1700000000000
  deadline : Option (Nat × Nat × Nat) := none
  stamps : List (Location × Nat) := []
  modes : List (Location × Nat) := []
  sinks : List (Nat × Command) := []

inductive Stop where
  | exit
  | return_
  | leave (loops : Nat)
  | again (loops : Nat)
  | discard
  | blocked
  | killed (pid signal : Nat)
  | exhausted
deriving DecidableEq, Repr

abbrev Run := ExceptT Stop (StateM Machine)

namespace Run

def shell : Run Shell := return (← get).shell

def modifyShell (f : Shell → Shell) : Run Unit := modify fun m => { m with shell := f m.shell }

def setStatus (n : Int) : Run Unit := modifyShell ({ · with status := n })

def files : Run FileSystem := return { (← get).fs with workDir := (← get).shell.dir }

def modesAfter (m : Machine) (fs : FileSystem) : List (Location × Nat) :=
  let kept := m.modes.filter fun e => (fs.get? e.1).isSome
  if m.shell.mask = 18 then kept
  else
    let fresh := fs.entries.filter fun e => (m.fs.get? e.1).isNone
    fresh.map (fun e => (e.1, Mode.masked m.shell.mask (Mode.whole e.2))) ++ kept

def setFiles (fs : FileSystem) : Run Unit :=
  modify fun m => { m with fs := { fs with workDir := m.fs.workDir }, modes := modesAfter m fs }

def modeAt (l : Location) (e : Entry) : Run Nat := return ((← get).modes.lookup l).getD (Mode.usual e)

def stream? (fd : Nat) : Run (Option (Nat × Stream)) := do
  let m ← get
  return do
    let handle ← m.shell.fds.lookup fd
    return (handle, ← m.streams[handle]?)

def setStream (handle : Nat) (s : Stream) : Run Unit :=
  modify fun m => { m with streams := m.streams.setIfInBounds handle s }

def addStream (s : Stream) : Run Nat := do
  modifyGet fun m => (m.streams.size, { m with streams := m.streams.push s })

def stamp (l : Location) : Run Unit :=
  modify fun m => { m with stamps := (l, m.clock) :: m.stamps.filter (·.1 ≠ l) }

def contentAt (fs : FileSystem) (l : Location) : Text.Bytes :=
  match fs.get? l with
  | some (.file content _) => content
  | _ => []

def octetsAt (fs : FileSystem) (l : Location) : Octets := ofBytes (contentAt fs l)

def write (fd : Nat) (text : Octets) : Run Bool := do
  match ← stream? fd with
  | none => return false
  | some (_, .null) => return true
  | some (_, .typed _) => return false
  | some (handle, .pipe front back) =>
    setStream handle (.pipe front (text.reverse ++ back))
    return true
  | some (handle, .file l position appends) =>
    let m ← get
    let content := contentAt m.fs l
    let position := if appends then content.length else position
    let content := content.take position ++ List.replicate (position - content.length) 0 ++ bytesOf text ++
      content.drop (position + text.length)
    let executable := match m.fs.get? l with
      | some (.file _ x) => x
      | _ => false
    if (m.fs.get? l).isSome then
      set { m with fs := m.fs.put l (.file content executable) }
      stamp l
    setStream handle (.file l (position + text.length) appends)
    return true

def print (text : Octets) : Run Unit := do let _ ← write 1 text

def readAll (fd : Nat) : Run Octets := do
  match ← stream? fd with
  | none | some (_, .null) => return []
  | some (_, .typed _) => throw .blocked
  | some (handle, .pipe front back) =>
    setStream handle (.pipe [] [])
    return front ++ back.reverse
  | some (handle, .file l position appends) =>
    let text := (octetsAt (← get).fs l).drop position
    setStream handle (.file l (position + text.length) appends)
    return text

def descriptorNamed? (name : Octets) : Option Nat :=
  match String.ofList name with
  | "/dev/stdin" => some 0
  | "/dev/stdout" => some 1
  | "/dev/stderr" => some 2
  | _ =>
    let front := "/dev/fd/".toList
    if front.isPrefixOf name then Arithmetic.natural? 10 (name.drop front.length) else none

def readNamed (name : Octets) : Run (Except Fault Octets) := do
  match descriptorNamed? name with
  | some fd =>
    if ((← shell).fds.lookup fd).isSome then return .ok (← readAll fd) else return .error .absent
  | none => return ((← files).read ⟨name⟩).map ofBytes

def portion (delimiter : Option Char) (limit : Option Nat) (text : Octets) : Octets × Bool × Octets :=
  match limit with
  | some n =>
    let taken := (text.take n).takeWhile (some · ≠ delimiter)
    let rest := text.drop taken.length
    if taken.length = n then (taken, true, rest) else (taken, !rest.isEmpty, rest.tail)
  | none =>
    let taken := text.takeWhile (some · ≠ delimiter)
    let rest := text.drop taken.length
    (taken, !rest.isEmpty, rest.tail)

def readPortion (fd : Nat) (delimiter : Option Char) (limit : Option Nat) : Run (Octets × Bool) := do
  match ← stream? fd with
  | none | some (_, .null) => return ([], false)
  | some (handle, .typed text) =>
    let (taken, ended, rest) := portion delimiter limit text
    if !ended then throw .blocked
    setStream handle (.typed rest)
    return (taken, true)
  | some (handle, .pipe front back) =>
    let (taken, ended, rest) := portion delimiter limit (front ++ back.reverse)
    setStream handle (.pipe rest [])
    return (taken, ended)
  | some (handle, .file l position appends) =>
    let all := (octetsAt (← get).fs l).drop position
    let (taken, ended, rest) := portion delimiter limit all
    setStream handle (.file l (position + (all.length - rest.length)) appends)
    return (taken, ended)

def added (before now : Stream) : Option Octets :=
  match before, now with
  | .pipe front back, .pipe front' back' =>
    let old := front ++ back.reverse
    let all := front' ++ back'.reverse
    if old.isPrefixOf all then some (all.drop old.length) else none
  | _, _ => none

def withAdded (before now : Array Stream) (printed : List (Nat × Nat)) : Array Stream :=
  (before.toList.zipIdx.map fun (s, i) =>
    match s, (now[i]?).bind (added s) with
    | .pipe front back, some new => .pipe front ((new.drop ((printed.lookup i).getD 0)).reverse ++ back)
    | s, _ => s).toArray

def amounts (before now : Array Stream) : List (Nat × Nat) :=
  before.toList.zipIdx.filterMap fun (s, i) => ((now[i]?).bind (added s)).map fun new => (i, new.length)

def Shell.title (s : Shell) : Octets :=
  match s.calls with
  | c :: _ => c.source
  | [] => if s.source.isEmpty then s.name else s.source

/-- Lines on the error stream begin with the shell's name, the line of the command and the built-in
command that complains. -/
def complain (message : Octets) : Run Unit := do
  let s ← shell
  let tool := if s.builtin.isEmpty then [] else s.builtin ++ ": ".toList
  let front := match s.dialect with
    | .posix => s.name ++ ": ".toList ++ decimal s.line
    | .bash => Shell.title s ++ ": line ".toList ++ decimal s.line
  let _ ← write 2 (front ++ ": ".toList ++ tool ++ message ++ ['\n'])

def fail {α : Type} (message : Octets) : Run α := do
  complain message
  let s ← shell
  setStatus (if s.dialect = .posix then 2 else if s.level = 0 then 127 else 1)
  throw .exit

/-- An error that ends what was read together with the command, or all of some shells. -/
def discard {α : Type} (message : Octets) : Run α := do
  if (← shell).dialect = .posix then fail message
  complain message
  setStatus 1
  throw .discard

def optionNames : List (String × Char) :=
  [("allexport", 'a'), ("braceexpand", 'B'), ("errexit", 'e'), ("ignoreeof", 'I'), ("monitor", 'm'),
    ("noclobber", 'C'), ("noexec", 'n'), ("noglob", 'f'), ("notify", 'b'), ("nounset", 'u'), ("verbose", 'v'),
    ("xtrace", 'x'), ("hashall", 'h'), ("errtrace", 'E'), ("functrace", 'T'), ("physical", 'P'),
    ("keyword", 'k'), ("onecmd", 't'), ("privileged", 'p')]

def optionLetter? (name : Octets) : Option Char := optionNames.lookup (String.ofList name)

def hasOption (c : Char) : Run Bool := return c ∈ (← shell).options

def hasSwitch (name : String) : Run Bool := return name ∈ (← shell).switches

def ofTexts (texts : List Octets) : Variable := { value := none, items := some (.indexed (Items.ofList texts 0)) }

def ofText (text : Octets) : Variable := { value := some text }

def Shell.made? (s : Shell) (name : Octets) : Option Variable :=
  match String.ofList name with
  | "LINENO" => some (ofText (decimal s.line))
  | "PIPESTATUS" => some (ofTexts (s.statuses.map integer))
  | "FUNCNAME" => if s.calls.isEmpty then none else some (ofTexts (s.calls.map (·.name)))
  | "BASH_SOURCE" => some (ofTexts (s.calls.map (·.source)))
  | "BASH_LINENO" => some (ofTexts (s.calls.map (decimal ·.line)))
  | "BASHPID" => some (ofText (decimal s.pid))
  | "BASH_SUBSHELL" => some (ofText (decimal s.level))
  | "DIRSTACK" => some (ofTexts (s.workPath :: s.stacked))
  | "GROUPS" => some (ofTexts [['0']])
  | "SECONDS" => some (ofText ['0'])
  | "RANDOM" => some (ofText "16838".toList)
  | "HOSTNAME" => some (ofText "localhost".toList)
  | _ => none

def Shell.lookup? (s : Shell) (name : Octets) : Option Variable :=
  match s.vars.lookup name with
  | some v => some v
  | none =>
    match s.dialect with
    | .bash => Shell.made? s name
    | .posix => if name = "LINENO".toList then some (ofText (decimal s.line)) else none

def Shell.target (s : Shell) : Nat → Octets → Octets
  | 0, name => name
  | n + 1, name =>
    match s.vars.lookup name with
    | some v => if v.reference then (v.value.map (Shell.target s n)).getD name else name
    | none => name

def Shell.slotNamed (s : Shell) (name : Octets) : Octets × Option Octets :=
  let name := Shell.target s 8 name
  match name.dropWhile (· ≠ '[') with
  | '[' :: key => (name.takeWhile (· ≠ '['), some key.dropLast)
  | _ => (name, none)

def Shell.text? (s : Shell) (name : Octets) : Option Octets :=
  match Shell.slotNamed s name with
  | (name, none) => (Shell.lookup? s name).bind (·.text?)
  | (name, some key) => (Shell.lookup? s name).bind (·.element? key)

def value? (name : Octets) : Run (Option Octets) := return Shell.text? (← shell) name

def value (name : String) : Run Octets := return (← value? name.toList).getD []

def Shell.scope (s : Shell) : Arithmetic.Scope where
  dialect := s.dialect
  value := fun (name, key) =>
    match key with
    | none => Shell.text? s name
    | some key =>
      (Shell.lookup? s (Shell.target s 8 name)).bind fun v =>
        match key with
        | '-' :: k => ((Arithmetic.natural? 10 k).bind fun k =>
            if k ≤ v.bound then v.element? (decimal (v.bound - k)) else none)
        | _ => v.element? key
  isKeyed name := ((Shell.lookup? s (Shell.target s 8 name)).any (·.isKeyed))
  strict := 'u' ∈ s.options

def putVariable (name : Octets) (v : Variable) : Run Unit :=
  modifyShell fun s =>
    let vars := if (s.vars.lookup name).isSome
      then s.vars.map fun e => if e.1 = name then (name, v) else e
      else s.vars ++ [(name, v)]
    { s with vars }

def dropVariable (name : Octets) : Run Unit :=
  modifyShell fun s => { s with vars := s.vars.filter (·.1 ≠ name) }

def refuseReadonly {α : Type} (name : Octets) : Run α := do
  match (← shell).dialect with
  | .posix => fail (name ++ ": is read only".toList)
  | .bash => discard (name ++ ": readonly variable".toList)

def changeable (name : Octets) : Run Variable := do
  let s ← shell
  match s.vars.lookup name with
  | some v => if v.readonly then refuseReadonly name else return v
  | none => return { value := none, exported := 'a' ∈ s.options }

mutual

def compute : Nat → Octets → Run Int
  | 0, _ => throw .exhausted
  | n + 1, text => do
    let s ← shell
    match Arithmetic.eval (Shell.scope s) text with
    | .ok (k, assigned) =>
      for ((name, key), k) in assigned do
        assignWithin n (name, key) false (integer k)
      return k
    | .error t =>
      let message := t.message s.dialect text
      match t with
      | .unset _ => fail message
      | _ => discard message

def assignWithin : Nat → (Octets × Option Octets) → (appends : Bool) → Octets → Run Unit
  | 0, _, _, _ => throw .exhausted
  | n + 1, (name, key), appends, text => do
    let s ← shell
    let (name, key) := match key with
      | none => Shell.slotNamed s name
      | some key => (Shell.target s 8 name, some key)
    let v ← changeable name
    let key ← match key with
      | none => pure none
      | some key =>
        if v.isKeyed then pure (some key)
        else do
          let k ← compute n key
          let k := if k < 0 then k + v.bound else k
          if k < 0 then discard (name ++ "[".toList ++ key ++ "]: bad array subscript".toList)
          pure (some (integer k))
    let old := ((key.elim v.text? v.element?)).getD []
    let text ←
      if v.integer then
        let new ← compute n text
        let base ← if appends then compute n old else pure 0
        pure (integer (Arithmetic.wrap (base + new)))
      else pure (if appends then old ++ text else text)
    let text := v.recase.elim text fun r => text.map r.apply
    putVariable name (match key with
      | none => v.setText text
      | some key => v.setElement key text)

end

def assign (name text : Octets) : Run Unit := assignWithin 8 (name, none) false text

structure Member where
  key : Option Octets
  appends : Bool
  text : Octets

inductive Operand where
  | text (t : Octets)
  | items (name : Octets) (appends : Bool) (es : List Member)

def assignItems (name : Octets) (appends : Bool) (es : List Member) : Run Unit := do
  let name := Shell.target (← shell) 8 name
  let v ← changeable name
  let v := { v with items := some (if appends then v.toItems else
    if v.isKeyed then .keyed [] else .indexed []), value := none }
  putVariable name v
  if v.isKeyed then
    if es.all (·.key.isNone) then pairs name (es.map (·.text))
    else
      for e in es do
        match e.key with
        | some key => assignWithin 8 (name, some key) e.appends e.text
        | none => complain (name ++ ": ".toList ++ e.text ++ ": must use subscript when assigning associative array".toList)
  else
    let mut next : Int := v.bound
    for e in es do
      let k ← match e.key with
        | some key => compute 8 key
        | none => pure next
      assignWithin 8 (name, some (integer k)) e.appends e.text
      next := k + 1
where
  pairs (name : Octets) : List Octets → Run Unit
    | key :: text :: rest => do
      assignWithin 8 (name, some key) false text
      pairs name rest
    | [key] => assignWithin 8 (name, some key) false []
    | [] => return

def unset (name : Octets) : Run Unit := do
  let name := Shell.target (← shell) 8 name
  match (← shell).vars.lookup name with
  | some v =>
    if v.readonly then
      match (← shell).dialect with
      | .posix => refuseReadonly name
      | .bash => discard (name ++ ": cannot unset: readonly variable".toList)
    dropVariable name
  | none => return

def unsetElement (name key : Octets) : Run Unit := do
  let v ← changeable name
  if v.isKeyed then putVariable name { v with items := some (v.toItems.erase key) }
  else
    let k ← compute 8 key
    let k := if k < 0 then k + v.bound else k
    putVariable name { v with items := some (v.toItems.erase (integer k)), value := none }

def place (d : Dialect) (name : Octets) : Nat :=
  match d with
  | .bash => Items.bucket name
  | .posix => ((name.head?).elim 0 (16 * ·.toNat) + (name.map Char.toNat).foldl (· + ·) 0) % 39

def environment (d : Dialect) (vars : List (Octets × Variable)) : List (Octets × Variable) :=
  let exported := vars.filterMap fun (name, v) =>
    if v.exported ∧ v.items.isNone ∧ v.value.isSome then
      some (name, ({ value := v.value, exported := true } : Variable))
    else none
  exported.mergeSort fun a b => decide (place d a.1 ≤ place d b.1)

/-- Run `body` in a shell of its own. What it does to files and streams stays; its status is the
status of a process. -/
def inside (child : Shell) (body : Run Unit) : Run Int := fun m =>
  let (result, m') := body { m with shell := child }
  let status := m'.shell.status.emod 256
  let m' := { m' with shell := m.shell }
  match result with
  | .error .blocked => (.error .blocked, m')
  | .error .exhausted => (.error .exhausted, m')
  | .error (.killed pid signal) =>
    if pid = child.pid ∧ pid ≠ m.shell.pid then (.ok (128 + signal), m') else (.error (.killed pid signal), m')
  | _ => (.ok status, m')

def setFd (fd : Nat) (handle : Option Nat) (fds : List (Nat × Nat)) : List (Nat × Nat) :=
  let others := fds.filter (·.1 ≠ fd)
  match handle with
  | some h => (fd, h) :: others
  | none => others

def restoring {α : Type} (back : (before now : Shell) → Shell) (body : Run α) : Run α := do
  let before ← shell
  try
    let a ← body
    modifyShell (back before)
    return a
  catch e =>
    modifyShell (back before)
    throw e

/-- Run `body` with some descriptors changed; only those are set back after it. -/
def withFds {α : Type} (changes : List (Nat × Option Nat)) (body : Run α) : Run α :=
  restoring
    (fun before now =>
      { now with fds := changes.foldl (fun fds (fd, _) => setFd fd (before.fds.lookup fd) fds) now.fds })
    do
      modifyShell fun s => { s with fds := changes.foldl (fun fds (fd, handle) => setFd fd handle fds) s.fds }
      body

def collecting (body : Run Int) : Run (Octets × Int) := do
  let handle ← addStream (.pipe [] [])
  let status ← withFds [(1, some handle)] body
  match (← get).streams[handle]? with
  | some (.pipe front back) => return (front ++ back.reverse, status)
  | _ => return ([], status)

def newPid : Run Nat := do
  let m ← get
  set { m with nextPid := m.nextPid + 1 }
  return m.nextPid

end Run

end CMakeHelm.Sh
