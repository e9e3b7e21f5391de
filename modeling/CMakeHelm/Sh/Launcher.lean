import CMakeHelm.Sh.Invocation

namespace CMakeHelm.Sh

/-- What a program can do that runs others. -/
structure Launch where
  vars : List (Octets × Variable)
  run : List (Octets × Variable) → List Octets → Run (Except Fault Int)

namespace Launcher

open Run Tool

def runNamed (l : Launch) (tool : String) (front : String) (vars : List (Octets × Variable)) (argv : List Octets) :
    Run Int := do
  match ← l.run vars argv with
  | .ok status => return status
  | .error e =>
    grumble tool (front.toList ++ fault (inQuotes (argv.headD [])) e)
    return Control.unrunnable e

/-- A variable keeps its place when its value changes. -/
def putVariable (vars : List (Octets × Variable)) (definition : Octets) : List (Octets × Variable) :=
  let (name, text) := Builtin.definition definition
  let v : Variable := { value := text, exported := true }
  if (vars.lookup name).isSome then vars.map fun (n, old) => if n = name then (n, v) else (n, old)
  else vars ++ [(name, v)]

def lineOf (v : Octets × Variable) : Octets := v.1 ++ '=' :: v.2.value.getD []

def env (l : Launch) (args : List Octets) : Run Int := do
  let r := leadingRequest ['u', 'C', 'S'] [("ignore-environment", 'i'), ("unset", 'u'), ("null", '0'), ("chdir", 'C'),
    ("split-string", 'S'), ("debug", 'v')] args
  match r.options.find? fun o => !("iuC0Sv".toList.contains o.1) with
  | some (c, name) =>
    misuse "env" (if c = '?' then "unrecognized option '--".toList ++ name ++ ['\'']
      else "invalid option -- '".toList ++ [c, '\''])
    return 125
  | none =>
    let bare := r.named.head? = some ['-']
    let named := (r.options.filterMap fun o => if o.1 = 'S' then some (words o.2) else none).flatten ++
      if bare then r.named.tail else r.named
    let vars := if r.has 'i' ∨ bare then [] else l.vars
    let removed := r.options.filterMap fun o => if o.1 = 'u' then some o.2 else none
    let definitions := named.takeWhile (·.contains '=')
    let vars := definitions.foldl putVariable (vars.filter fun v => !removed.contains v.1)
    match r.value? 'C' with
    | some dir =>
      match (← files).locate (Test.pathOf dir) with
      | .ok (place, .directory) => modifyShell ({ · with dir := place })
      | .ok _ =>
        grumble "env" ("cannot change directory to ".toList ++ inQuotes dir ++ ": Not a directory".toList)
        return 125
      | .error e =>
        grumble "env" ("cannot change directory to ".toList ++ inQuotes dir ++ ": ".toList ++ e.text.toList)
        return 125
    | none => pure ()
    match named.drop definitions.length with
    | [] =>
      print (vars.flatMap fun v => lineOf v ++ [if r.has '0' then '\x00' else '\n'])
      return 0
    | argv => runNamed l "env" "" vars argv

def printenv (l : Launch) (args : List Octets) : Run Int := do
  let r := request [] [("null", '0')] args
  let ending := if r.has '0' then '\x00' else '\n'
  let found := r.named.filterMap fun name => (l.vars.lookup name).bind (·.value)
  print ((if r.named.isEmpty then l.vars.map lineOf else found).flatMap (· ++ [ending]))
  return if found.length = r.named.length then 0 else 1

def searchPath (l : Launch) : Octets := ((l.vars.lookup "PATH".toList).bind (·.value)).getD "/bin:/usr/bin".toList

def which (l : Launch) (args : List Octets) : Run Int := do
  let r := request [] [] args
  let fs ← files
  let dirs := Text.split (· == ':') (searchPath l)
  let places (name : Octets) : List Octets :=
    if '/' ∈ name then ((Program.locate fs [] name).toOption).toList
    else
      let all := (dirs.map fun dir => if dir.isEmpty then name else dir ++ '/' :: name).filter fun path =>
        (Program.atPath fs path).isOk
      if r.has 'a' then all else all.take 1
  let found := r.named.map places
  print (unlines found.flatten)
  return if found.isEmpty ∨ found.any (·.isEmpty) then 1 else 0

def nohup (l : Launch) (args : List Octets) : Run Int := do
  if args.isEmpty then
    misuse "nohup" "missing operand".toList
    return 125
  runNamed l "nohup" "failed to run command " l.vars (if args.head? = some ['-', '-'] then args.tail else args)

def nice (l : Launch) (args : List Octets) : Run Int := do
  let args := match args with
    | ('-' :: d :: _) :: rest => if d.isDigit then rest else args
    | _ => args
  let r := leadingRequest ['n'] [("adjustment", 'n')] args
  if r.named.isEmpty then
    print "0\n".toList
    return 0
  runNamed l "nice" "" l.vars r.named

def setsid (l : Launch) (args : List Octets) : Run Int := do
  let r := leadingRequest [] [("wait", 'w'), ("fork", 'f'), ("ctty", 'c')] args
  if r.named.isEmpty then
    grumble "setsid" "no command specified".toList
    return 1
  runNamed l "setsid" "failed to execute " l.vars r.named

def timeout (l : Launch) (args : List Octets) : Run Int := do
  let r := leadingRequest ['s', 'k'] [("signal", 's'), ("kill-after", 'k'), ("preserve-status", 'p'),
    ("foreground", 'f'), ("verbose", 'v')] args
  match r.named with
  | [] | [_] =>
    misuse "timeout" "missing operand".toList
    return 125
  | duration :: argv =>
    match Files.milliseconds duration, (r.value? 's').map Builtin.signal? with
    | none, _ =>
      misuse "timeout" ("invalid time interval ".toList ++ inQuotes duration)
      return 125
    | _, some none =>
      misuse "timeout" (inQuotes ((r.value? 's').getD []) ++ ": invalid signal".toList)
      return 125
    | some time, signal =>
      let signal := (signal.bind fun s => s).getD 15
      let before := (← get).deadline
      let child ← Control.newShell .posix "timeout".toList [] l.vars
      let now := (← get).clock
      let own? := if time = 0 then none else some (now + time, child.pid, signal)
      let deadline := match before, own? with
        | some a, some b => if a.1 < b.1 then some a else some b
        | a, b => a.or b
      modify ({ · with deadline })
      let status ← inside child do setStatus (← runNamed l "timeout" "failed to run command " l.vars argv)
      let after := (← get).deadline
      let wasKilled := own?.isSome && after.isNone && status = 128 + signal
      modify ({ · with deadline := before })
      if wasKilled ∧ !r.has 'p' ∧ signal ≠ 9 then return 124
      return status

def quotedWords : Nat → (word : Option Octets) → (line : Nat) → Octets → Except Char (List (Octets × Nat))
  | 0, _, _, _ => .ok []
  | n + 1, word, line, cs =>
    let finish (rest : Except Char (List (Octets × Nat))) : Except Char (List (Octets × Nat)) :=
      match word with
      | some w => rest.map ((w.reverse, line) :: ·)
      | none => rest
    match cs with
    | [] => finish (.ok [])
    | '\n' :: cs =>
      finish (quotedWords n none (line + 1) cs)
    | '\\' :: c :: cs => quotedWords n (some (c :: word.getD [])) line cs
    | c :: cs =>
      if c = '\'' ∨ c = '"' then
        let inner := cs.takeWhile fun d => d ≠ c ∧ d ≠ '\n'
        if (cs.drop inner.length).head? = some c then
          quotedWords n (some (inner.reverse ++ word.getD [])) line (cs.drop (inner.length + 1))
        else .error c
      else if c = ' ' ∨ c = '\t' then finish (quotedWords n none line cs)
      else quotedWords n (some (c :: word.getD [])) line cs

def items (r : Request) (text : Octets) : Except Char (List (Octets × Nat)) :=
  let delimiter? : Option Char :=
    if r.has '0' then some '\x00'
    else (r.value? 'd').bind fun d =>
      match d with
      | '\\' :: 'n' :: _ => some '\n'
      | '\\' :: 't' :: _ => some '\t'
      | '\\' :: '0' :: _ => some '\x00'
      | c :: _ => some c
      | [] => none
  match delimiter? with
  | some d =>
    let all := Text.split (· == d) text
    let all := if all.getLast? = some [] then all.dropLast else all
    .ok all.zipIdx
  | none =>
    if r.has 'I' then do
      let rows := (lines text).map fun l => l.dropWhile fun c => c = ' ' ∨ c = '\t'
      let guarded (l : Octets) : Octets := l.flatMap fun c => if c = ' ' ∨ c = '\t' then ['\\', c] else [c]
      let unescaped ← (rows.filter (· ≠ [])).mapM fun l =>
        if l.any (· ∈ ['\'', '"', '\\']) then quotedWords (l.length + 1) none 0 l |>.map fun ws =>
          ((ws.map (·.1)).intersperse [' ']).flatten
        else (quotedWords (2 * l.length + 1) none 0 (guarded l)).map fun ws => (ws.map (·.1)).flatten
      return unescaped.zipIdx
    else quotedWords (text.length + 1) none 0 text

def replaced (mark new : Octets) : Nat → Octets → Octets
  | 0, text => text
  | n + 1, text =>
    if !mark.isEmpty ∧ mark.isPrefixOf text then new ++ replaced mark new n (text.drop mark.length)
    else match text with
      | [] => []
      | c :: cs => c :: replaced mark new n cs

def grouped (size : Nat) : Nat → List Octets → List (List Octets)
  | 0, _ => []
  | n + 1, xs => if xs.isEmpty then [] else xs.take size :: grouped size n (xs.drop size)

def byLines (size : Nat) (all : List (Octets × Nat)) : List (List Octets) :=
  let numbers := (all.map (·.2)).eraseDups
  (grouped size (numbers.length + 1) (numbers.map decimal)).map fun group =>
    (all.filter fun i => group.contains (decimal i.2)).map (·.1)

def runGroups (l : Launch) (traces : Bool) (null : Nat) (status : Int) : List (List Octets) → Run Int
  | [] => return status
  | argv :: rest => do
    if traces then let _ ← write 2 (Format.spaced argv ++ ['\n'])
    match ← withFds [(0, some null)] (l.run l.vars argv) with
    | .error e =>
      grumble "xargs" (fault (argv.headD []) e)
      return Control.unrunnable e
    | .ok code =>
      if code = 255 then
        grumble "xargs" (argv.headD [] ++ ": exited with status 255; aborting".toList)
        return 124
      runGroups l traces null (if code = 0 then status else 123) rest

def xargs (l : Launch) (args : List Octets) : Run Int := do
  let r := leadingRequest ['n', 'I', 'd', 'L', 'P', 's', 'a', 'E'] [("null", '0'), ("max-args", 'n'), ("replace", 'I'),
    ("delimiter", 'd'), ("max-lines", 'L'), ("max-procs", 'P'), ("no-run-if-empty", 'r'), ("verbose", 't'),
    ("arg-file", 'a'), ("max-chars", 's')] args
  let r := { r with options := r.options.map fun (c, v) => if c = 'i' then ('I', "\x7b\x7d".toList) else (c, v) }
  let text ← match r.value? 'a' with
    | some f => do
      match ← source "xargs" f with
      | some text => pure text
      | none => return 1
    | none => readAll 0
  let command := if r.named.isEmpty then ["echo".toList] else r.named
  match items r text with
  | .error quote =>
    grumble "xargs" ("unmatched ".toList ++ (if quote = '"' then "double" else "single").toList ++
      " quote; by default quotes are special to xargs unless you use the -0 option".toList)
    return 1
  | .ok all =>
    let all := match r.value? 'E' with
      | some e => all.takeWhile fun i => i.1 ≠ e
      | none => all
    let null ← addStream .null
    let plain := all.map (·.1)
    let groups : List (List Octets) :=
      match r.value? 'I' with
      | some mark => plain.map fun item => command.map fun w => replaced mark item (w.length + 1) w
      | none =>
        let sets := match r.number? 'n', r.number? 'L' with
          | some n, _ => grouped (max n 1) (plain.length + 1) plain
          | none, some n => byLines (max n 1) all
          | none, none => if plain.isEmpty then [] else [plain]
        let sets := if sets.isEmpty ∧ !r.has 'r' then [[]] else sets
        sets.map (command ++ ·)
    runGroups l (r.has 't') null 0 groups

def table : List (String × (Launch → List Octets → Run Int)) :=
  [("env", env), ("printenv", printenv), ("which", which), ("nohup", nohup), ("nice", nice), ("setsid", setsid),
    ("timeout", timeout), ("xargs", xargs)]

end Launcher

end CMakeHelm.Sh
