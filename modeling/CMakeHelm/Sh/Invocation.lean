import CMakeHelm.Sh.Parameter
import CMakeHelm.Sh.Parser

namespace CMakeHelm.Sh

open Run

inductive Source where
  | missing
  | given (text : Octets)
  | file (name : Octets)
  | input

structure Invocation where
  options : List Char := []
  switches : List (Bool × Octets) := []
  source : Source := .input
  name : Octets
  args : List Octets := []

namespace Invocation

def readWords (i : Invocation) (hasText : Bool) : List Octets → Invocation × Bool × List Octets
  | ['-', '-'] :: rest => (i, hasText, rest)
  | ['-', 'O'] :: name :: rest => readWords { i with switches := i.switches ++ [(true, name)] } hasText rest
  | ['+', 'O'] :: name :: rest => readWords { i with switches := i.switches ++ [(false, name)] } hasText rest
  | ('-' :: '-' :: _) :: rest => readWords i hasText rest
  | (sign :: c :: cs) :: rest =>
    if sign = '-' ∨ sign = '+' then
      let letters := (c :: cs).filter fun c => c ≠ 'c' ∧ c ≠ 'o'
      let i := { i with options :=
        if sign = '-' then i.options ++ letters else i.options.filter (· ∉ letters) }
      let hasText := hasText || (sign == '-' && (c :: cs).contains 'c')
      if (c :: cs).contains 'o' then
        match rest with
        | name :: rest => readWords { i with switches := i.switches ++ [(decide (sign = '-'), name)] } hasText rest
        | [] => (i, hasText, [])
      else readWords i hasText rest
    else (i, hasText, (sign :: c :: cs) :: rest)
  | rest => (i, hasText, rest)

def ofWords (argv : List Octets) : Invocation :=
  let self := (argv.head?).getD []
  let (i, hasText, operands) := readWords { name := self } false argv.tail
  match hasText, operands with
  | true, text :: name :: args => { i with source := .given text, name, args }
  | true, [text] => { i with source := .given text }
  | true, [] => { i with source := .missing }
  | false, file :: args =>
    if 's' ∈ i.options then { i with args := operands } else { i with source := .file file, name := file, args }
  | false, [] => { i with options := i.options ++ ['s'] }

def configure (i : Invocation) (s : Shell) : Shell :=
  let letters := (Builtin.letterOptions s.dialect).toList
  let fromText := match s.dialect, i.source with
    | .bash, .given _ => ['c']
    | _, _ => []
  let s := { s with options := s.options ++ i.options.filter (fun c => c ∈ letters ∨ c = 's') ++ fromText }
  i.switches.foldl (fun s (on, name) =>
    match optionLetter? name with
    | some c => { s with options := (s.options.filter (· ≠ c)) ++ if on then [c] else [] }
    | none =>
      let name := String.ofList name
      { s with switches := (s.switches.filter (· ≠ name)) ++ if on then [name] else [] }) s

end Invocation

namespace Shell

def ownVariables (d : Dialect) (parent : Nat) (vars : List (Octets × Variable)) : List (Octets × Variable) :=
  let own (name text : String) : Octets × Variable := (name.toList, { value := some text.toList })
  let number (name : String) (n : Nat) : Octets × Variable :=
    (name.toList, { value := some (decimal n), readonly := true, integer := true })
  let search : List (Octets × Variable) :=
    if (vars.lookup "PATH".toList).isSome then []
    else [own "PATH" "/usr/local/sbin:/usr/local/bin:/usr/sbin:/usr/bin:/sbin:/bin"]
  match d with
  | .posix =>
    search ++ [own "IFS" " \t\n", own "OPTIND" "1", own "PS1" "# ", own "PS2" "> ", own "PS4" "+ "] ++
      (if parent = 0 then [] else [("PPID".toList, { value := some (decimal parent) })])
  | .bash =>
    let level := ((vars.lookup "SHLVL".toList).bind (·.value)).bind (Arithmetic.natural? 10)
    let version := ["5", "2", "21", "1", "release", "x86_64-pc-linux-gnu"]
    let fresh (name text : String) : List (Octets × Variable) :=
      if (vars.lookup name.toList).isSome then [] else [own name text]
    [own "BASH" "/usr/bin/bash",
      ("BASHOPTS".toList, { value := some (Text.join ':' (Builtin.usualSwitches.map String.toList)), readonly := true }),
      ("BASH_VERSINFO".toList, { ofTexts (version.map String.toList) with readonly := true }),
      own "BASH_VERSION" "5.2.21(1)-release", number "EUID" 0, own "HOSTTYPE" "x86_64", own "IFS" " \t\n",
      own "MACHTYPE" "x86_64-pc-linux-gnu", own "OPTERR" "1",
      ("OPTIND".toList, { value := some ['1'], integer := true }), own "OSTYPE" "linux-gnu",
      number "PPID" parent, own "PS4" "+ ",
      ("SHELLOPTS".toList, { value := some "braceexpand:hashall:interactive-comments".toList, readonly := true }),
      number "UID" 0, ("SHLVL".toList, { value := some (decimal (level.getD 0 + 1)), exported := true })] ++
      search ++ fresh "SHELL" "/bin/bash" ++ fresh "TERM" "dumb" ++
      (if (vars.lookup "OLDPWD".toList).isSome then [] else [("OLDPWD".toList, { value := none, exported := true })])

def fresh (d : Dialect) (pid parent : Nat) (name : Octets) (args : List Octets) (vars : List (Octets × Variable))
    (dir : Location) (workPath : Octets) (fds : List (Nat × Nat)) : Shell :=
  let own := ownVariables d parent vars
  let kept := vars.filter fun v => (own.lookup v.1).isNone ∧ v.1 ≠ "PWD".toList ∧ v.1 ≠ ['_']
  { dialect := d, pid, parent, name, args, dir, workPath, fds
    options := if d = .bash then ['h', 'B'] else []
    switches := if d = .bash then "interactive-comments" :: Builtin.usualSwitches else []
    vars := kept ++ own ++ [("PWD".toList, { value := some workPath, exported := true })] }

def reader (s : Shell) (text : Octets) (line : Nat) (isWhole : Bool) : Reader where
  rest := text
  line := line
  dialect := s.dialect
  isWhole := isWhole
  groups := "extglob" ∈ s.switches
  aliases := if s.dialect = .posix ∨ "expand_aliases" ∈ s.switches then s.aliases else []

end Shell

namespace Invocation

/-- Say what is wrong with a text, of which `text` is what comes from the line numbered `line` on. -/
def complainTrouble (place : Octets) (text : Octets) (line : Nat) (t : Trouble) : Run Unit := do
  let s ← shell
  let (faulty, k) := Grammar.lineOf text t
  let at_ := line + k - 1
  match s.dialect with
  | .posix =>
    modifyShell ({ · with line := at_ })
    complain ("Syntax error: ".toList ++ t.text)
    modifyShell ({ · with line := s.line })
  | .bash =>
    for message in t.bashLines faulty do
      let tag := if place.isEmpty then [] else place ++ ": ".toList
      let _ ← write 2 (Shell.title s ++ ": ".toList ++ tag ++ "line ".toList ++ decimal at_ ++ ": ".toList ++ message ++
        ['\n'])

end Invocation

namespace Control

def statusOf (args : List Octets) : Run Unit := do
  let s ← shell
  match s.dialect, args with
  | _, [] => return
  | .posix, a :: _ =>
    match Builtin.number? a with
    | some n => if n ≤ 2147483647 then setStatus n else fail ("Illegal number: ".toList ++ a)
    | none => fail ("Illegal number: ".toList ++ a)
  | .bash, a :: _ =>
    match Arithmetic.signed? (Arithmetic.natural? 10) a with
    | some n => if Arithmetic.fitsWord n then setStatus (n.emod 256) else wrong a
    | none => wrong a
where
  wrong (a : Octets) : Run Unit := do
    complain (a ++ ": numeric argument required".toList)
    setStatus 2

def loopCount (name : String) (args : List Octets) : Run Nat := do
  let s ← shell
  if s.loops = 0 ∧ s.dialect = .bash then
    complain "only meaningful in a \x60for', \x60while', or \x60until' loop".toList
    return 0
  match args with
  | [] => return min 1 s.loops
  | a :: _ =>
    match Builtin.number? a with
    | some (n + 1) => return min (n + 1) s.loops
    | _ =>
      if s.dialect = .posix then fail ("Illegal number: ".toList ++ a)
      complain (a ++ (if (Builtin.number? a).isSome then ": loop count out of range" else
        ": numeric argument required").toList)
      setStatus (if name = "break" then 1 else 1)
      return s.loops

def leaveFunction (before now : Shell) : Shell :=
  let saved := (now.locals.head?).getD []
  let vars := saved.foldl (fun vars (name, old) =>
    match old with
    | some v =>
      if (vars.lookup name).isSome then vars.map fun e => if e.1 = name then (name, v) else e
      else vars ++ [(name, v)]
    | none => vars.filter (·.1 ≠ name)) now.vars
  { now with vars, locals := before.locals, args := before.args, loops := before.loops, calls := before.calls }

def withVariables {α : Type} (values : List (Octets × Octets)) (body : Run α) : Run α :=
  restoring
    (fun before now =>
      { now with vars := values.foldl (fun vars (name, _) =>
          match before.vars.lookup name with
          | some v => if (vars.lookup name).isSome then vars.map fun e => if e.1 = name then (name, v) else e
            else vars ++ [(name, v)]
          | none => vars.filter (·.1 ≠ name)) now.vars })
    do
      for (name, text) in values do
        if ((← shell).vars.lookup name).any (·.readonly) ∧ (← Builtin.isBash) then
          complain (name ++ ": readonly variable".toList)
        else
          assign name text
          if let some v := (← shell).vars.lookup name then putVariable name { v with exported := true }
      body

def subshell? : Command → Option Command
  | .subshell body => some (.subshell body)
  | .redirected c _ => subshell? c
  | _ => none

/-- The redirections of a group take the place of those of a subshell that is all of the group. -/
def unredirected (dialect : Dialect) (c : Command) : Command :=
  if dialect = .posix then (subshell? c).getD c else c

def trace (words : List Octets) : Run Unit := do
  if ← hasOption 'x' then
    let shown := if ← Builtin.isBash then words.map fun w => if w.isEmpty then "''".toList else Quoting.listed w
      else words
    let _ ← write 2 ("+ ".toList ++ Format.spaced shown ++ ['\n'])

def keywords (d : Dialect) : List String :=
  Parse.reservedWords d ++ if d = .bash then ["]]", "coproc"] else []

def evaluating (d : Dialect) : List String :=
  ["command", "type", "wait", "jobs", ".", "eval", "exec", "exit", "return", "break", "continue"] ++
    if d = .bash then ["source", "builtin"] else []

def isBuiltin (d : Dialect) (name : Octets) : Bool :=
  let s := String.ofList name
  Builtin.isSpecial d s || (Builtin.find? d s).isSome || (Builtin.defining? d s).isSome || s ∈ evaluating d

inductive Meaning where
  | aliased (text : Octets)
  | keyword
  | function
  | special
  | builtin
  | program (path : Octets)

def meanings (name : Octets) : Run (List Meaning) := do
  let s ← shell
  let d := s.dialect
  let word := String.ofList name
  let aliased := if d = .posix ∨ "expand_aliases" ∈ s.switches then (s.aliases.lookup name).toList.map .aliased else []
  let keyword := if word ∈ keywords d then [Meaning.keyword] else []
  let function := if (s.functions.lookup name).isSome then [Meaning.function] else []
  let special := if Builtin.isSpecial d word ∧ d = .posix then [Meaning.special] else []
  let builtin := if isBuiltin d name ∧ special.isEmpty then [Meaning.builtin] else []
  let program := ((Program.locate (← files) (← value "PATH") name).toOption).toList.map .program
  return (if d = .posix then keyword ++ aliased else aliased ++ keyword) ++ special ++ function ++ builtin ++ program

def describe (name : Octets) : Run Int := do
  let d := (← shell).dialect
  match (← meanings name).head? with
  | some m =>
    print (name ++ (match m with
      | .aliased text =>
        if d = .posix then " is an alias for ".toList ++ text else " is aliased to \x60".toList ++ text ++ ['\'']
      | .keyword => " is a shell keyword".toList
      | .function => (if d = .posix then " is a shell function" else " is a function").toList
      | .special => " is a special shell builtin".toList
      | .builtin => " is a shell builtin".toList
      | .program path => " is ".toList ++ path) ++ ['\n'])
    return 0
  | none =>
    if d = .posix then
      print (name ++ ": not found\n".toList)
      return 127
    complain (name ++ ": not found".toList)
    return 1

def kind : Meaning → String
  | .aliased _ => "alias"
  | .keyword => "keyword"
  | .function => "function"
  | .special | .builtin => "builtin"
  | .program _ => "file"

def typeOf (args : List Octets) : Run Int := do
  let bash ← Builtin.isBash
  let (opts, names) := if bash then Tool.readOptions [] args else ([], args)
  let has (c : Char) : Bool := (opts.lookup c).isSome
  let statuses ← names.mapM fun name => do
    let all ← meanings name
    let wanted := if has 'a' then all else all.take 1
    if has 't' then
      for m in wanted do print ((kind m).toList ++ ['\n'])
      return if wanted.isEmpty then 1 else 0
    else if has 'p' ∨ has 'P' then
      let paths := (if has 'P' then all else wanted).filterMap fun
        | .program path => some path
        | _ => none
      for path in paths do print (path ++ ['\n'])
      return if (if has 'P' then paths.isEmpty else wanted.isEmpty) then 1 else 0
    else if has 'a' ∧ !all.isEmpty then
      for m in all do
        match m with
        | .program path => print (name ++ " is ".toList ++ path ++ ['\n'])
        | .function => print (name ++ " is a function\n".toList)
        | .keyword => print (name ++ " is a shell keyword\n".toList)
        | .aliased text => print (name ++ " is aliased to \x60".toList ++ text ++ "'\n".toList)
        | _ => print (name ++ " is a shell builtin\n".toList)
      return 0
    else describe name
  return (statuses.find? (· ≠ (0 : Int))).getD 0

def whereabouts (name : Octets) : Run Int := do
  let d := (← shell).dialect
  match (← meanings name).head? with
  | some (.program path) =>
    print (path ++ ['\n'])
    return 0
  | some (.aliased text) =>
    print ("alias ".toList ++ name ++ '=' :: (if d = .posix then Quoting.separate text else Quoting.single text) ++ ['\n'])
    return 0
  | some _ =>
    print (name ++ ['\n'])
    return 0
  | none => return if d = .bash then 1 else 127

def unrunnable (e : Fault) : Int :=
  if e ∈ [.absent, .notDirectory, .tooManyLinks, .nameTooLong] then 127 else 126

def complainProgram (name : Octets) (e : Fault) : Run Unit := do
  let missing := unrunnable e = 127
  match (← shell).dialect with
  | .posix => complain (name ++ ": ".toList ++ if missing then "not found".toList else e.text.toList)
  | .bash =>
    if missing ∧ '/' ∉ name then complain (name ++ ": command not found".toList)
    else
      let isDirectory := (← files).isDirectory (Test.pathOf name)
      complain (name ++ ": ".toList ++ if isDirectory then "Is a directory".toList else e.text.toList)

def newShell (dialect : Dialect) (name : Octets) (args : List Octets) (vars : List (Octets × Variable)) :
    Run Shell := do
  let s ← shell
  let ignored := s.traps.filter (·.2 = [])
  return { Shell.fresh dialect (← newPid) s.pid name args vars s.dir s.workPath s.fds with
    mask := s.mask, traps := ignored }

end Control

end CMakeHelm.Sh
