import CMakeHelm.Sh.Fields
import CMakeHelm.Sh.Program
import CMakeHelm.Sh.Quoting

namespace CMakeHelm.Sh.Builtin

open Run

def isSpecial (d : Dialect) (name : String) : Bool :=
  name ∈ [":", ".", "break", "continue", "eval", "exec", "exit", "export", "readonly", "return", "set", "shift",
    "times", "trap", "unset"] || (d = .posix && name = "local")

def refuse (message : Octets) (status : Int) : Run Int := do
  complain message
  return status

def isBash : Run Bool := return (← shell).dialect = .bash

def number? (text : Octets) : Option Nat := Arithmetic.natural? 10 text

def resolved (path : Octets) : Octets :=
  let pieces := (Text.split (· == '/') path).foldl (fun (stack : List Octets) piece =>
    if piece = [] ∨ piece = ['.'] then stack
    else if piece = ['.', '.'] then stack.tail
    else piece :: stack) []
  '/' :: Text.join '/' pieces.reverse

def enter (path : Octets) (l : Location) : Run Unit := do
  let s ← shell
  let moved (name : String) (text : Octets) : Run Unit := do
    let v := ((← shell).vars.lookup name.toList).getD { value := none }
    putVariable name.toList { v with value := some text, exported := true }
  moved "OLDPWD" s.workPath
  moved "PWD" path
  modifyShell ({ · with dir := l, workPath := path })

def lookUp (target : Octets) : Run (Octets × Except Fault Location) := do
  let s ← shell
  let path := resolved (if target.head? = some '/' then target else s.workPath ++ '/' :: target)
  return (path, match (← files).locate (Test.pathOf path) with
    | .ok (l, .directory) => .ok l
    | .ok _ => .error .notDirectory
    | .error e => .error e)

def complainDirectory (target : Octets) (e : Fault) : Run Int := do
  if ← isBash then refuse (target ++ ": ".toList ++ e.text.toList) 1
  else refuse ("can't cd to ".toList ++ target) 2

def alongPath (target : Octets) : Run (Option Octets) := do
  let isAnchored := target.head? = some '/' ∨
    (Text.split (· == '/') target).head?.any (· ∈ [['.'], ['.', '.']])
  if isAnchored then return none
  let paths := Text.split (· == ':') (← value "CDPATH")
  let found ← paths.filterMapM fun dir => do
    if dir.isEmpty then return none
    let path := dir ++ '/' :: target
    return if (← lookUp path).2.toOption.isSome then some path else none
  return found.head?

def cd (args : List Octets) : Run Int := do
  let (opts, named) := if args = [['-']] then ([], args) else Tool.readOptions [] args
  let bash ← isBash
  if bash ∧ named.length > 1 then return ← refuse "too many arguments".toList 1
  let (target, isBack) ← match named with
    | [] => do
      match ← value? "HOME".toList with
      | some home => pure (home, false)
      | none => if bash then return ← refuse "HOME not set".toList 1 else pure ([], false)
    | target :: _ =>
      if target = ['-'] then do
        match ← value? "OLDPWD".toList with
        | some old => pure (old, true)
        | none => if bash then return ← refuse "OLDPWD not set".toList 1 else pure ([], true)
      else pure (target, false)
  let found ← alongPath target
  let (path, at_) ← lookUp (found.getD target)
  match at_ with
  | .ok l =>
    let path := if (opts.getLast?.map (·.1)) = some 'P' then (FileSystem.pathOf l).chars else path
    enter path l
    if isBack ∨ found.isSome then print (path ++ ['\n'])
    return 0
  | .error e => complainDirectory target e

def shortened (path : Octets) : Run Octets := do
  let home ← value "HOME"
  return if home ≠ [] ∧ (path = home ∨ (home ++ ['/']).isPrefixOf path) then '~' :: path.drop home.length else path

def printStack : Run Unit := do
  let s ← shell
  let shown ← (s.workPath :: s.stacked).mapM shortened
  print (Format.spaced shown ++ ['\n'])

def dirs (args : List Octets) : Run Int := do
  let s ← shell
  let all := s.workPath :: s.stacked
  match args with
  | [['-', 'c']] => modifyShell ({ · with stacked := [] })
  | [['-', 'p']] => print ((← all.mapM shortened).flatMap (· ++ ['\n']))
  | [['-', 'v']] =>
    let shown ← all.mapM shortened
    print (shown.zipIdx.flatMap fun (dir, i) =>
      List.replicate (2 - (decimal i).length) ' ' ++ decimal i ++ "  ".toList ++ dir ++ ['\n'])
  | [['-', 'l']] => print (Format.spaced all ++ ['\n'])
  | _ => printStack
  return 0

def pushd (args : List Octets) : Run Int := do
  let s ← shell
  let goTo (target : Octets) (stacked : List Octets) : Run Int := do
    let (path, at_) ← lookUp target
    match at_ with
    | .ok l =>
      enter path l
      modifyShell ({ · with stacked })
      printStack
      return 0
    | .error e => complainDirectory target e
  let all := s.workPath :: s.stacked
  let rotate (k : Nat) : Run Int := do
    match all.drop k ++ all.take k with
    | target :: rest => goTo target rest
    | [] => return 1
  match args with
  | [] =>
    match s.stacked with
    | target :: rest => goTo target (s.workPath :: rest)
    | [] => refuse "no other directory".toList 1
  | target :: _ =>
    match target with
    | '+' :: k => if let some k := number? k then rotate k else goTo target (s.workPath :: s.stacked)
    | '-' :: k =>
      if let some k := number? k then rotate (all.length - 1 - k) else goTo target (s.workPath :: s.stacked)
    | _ => goTo target (s.workPath :: s.stacked)

def popd (args : List Octets) : Run Int := do
  let s ← shell
  let without (k : Nat) : Run Int := do
    if k = 0 then
      match s.stacked with
      | target :: rest =>
        let (path, at_) ← lookUp target
        match at_ with
        | .ok l =>
          enter path l
          modifyShell ({ · with stacked := rest })
          printStack
          return 0
        | .error e => complainDirectory target e
      | [] => refuse "directory stack empty".toList 1
    else
      modifyShell ({ · with stacked := s.stacked.eraseIdx (k - 1) })
      printStack
      return 0
  match args with
  | ['+' :: k] => without ((number? k).getD 0)
  | ['-' :: k] => without (s.stacked.length - (number? k).getD 0)
  | _ => without 0

def definition (arg : Octets) : Octets × Option Octets :=
  let name := arg.takeWhile (· ≠ '=')
  (name, if name.length < arg.length then some (arg.drop (name.length + 1)) else none)

def isIdentifier (name : Octets) : Bool := isName (name.takeWhile (· ≠ '['))

def letters (v : Variable) : Octets :=
  let flags := [('a', !v.isKeyed && v.items.isSome), ('A', v.isKeyed), ('i', v.integer), ('n', v.reference),
    ('r', v.readonly), ('x', v.exported), ('l', v.recase = some .lower), ('u', v.recase = some .upper)]
  (flags.filter (·.2)).map (·.1)

def listing (v : Variable) : Octets :=
  let key (k : Octets) : Octets := if v.isKeyed ∧ !(k.all fun c => isNameChar c) then Quoting.double k else k
  let each := v.entries.map fun (k, text) => '[' :: key k ++ "]=".toList ++ Quoting.double text
  '(' :: Format.spaced each ++ (if v.isKeyed ∧ !each.isEmpty then " )".toList else [')'])

def declaration (name : Octets) (v : Variable) : Octets :=
  let flags := letters v
  let value := match v.items with
    | some _ => '=' :: listing v
    | none => v.value.elim [] fun text => '=' :: Quoting.double text
  "declare -".toList ++ (if flags.isEmpty then ['-'] else flags) ++ ' ' :: name ++ value ++ ['\n']

def sortedVariables : Run (List (Octets × Variable)) :=
  return (← shell).vars.mergeSort fun a b => inOrder a.1 b.1

def listMarked (word : String) (has : Variable → Bool) : Run Unit := do
  for (name, v) in ← sortedVariables do
    if has v then
      if ← isBash then print (declaration name v)
      else
        print (word.toList ++ ' ' :: name ++ (v.value.elim [] fun text => '=' :: Quoting.separate text) ++ ['\n'])

structure Marks where
  changes : List (Variable → Variable) := []
  isArray : Bool := false
  isKeyed : Bool := false
  isGlobal : Bool := false
  lists : Bool := false
  functions : Bool := false
  namesOnly : Bool := false
  wrong : Option Char := none

def Marks.add (m : Marks) (on : Bool) (c : Char) : Marks :=
  let change (f : Variable → Variable) : Marks := { m with changes := m.changes ++ [f] }
  match c with
  | 'a' => { m with isArray := on }
  | 'A' => { m with isKeyed := on }
  | 'g' => { m with isGlobal := on }
  | 'p' => { m with lists := true }
  | 'f' => { m with functions := true }
  | 'F' => { m with functions := true, namesOnly := true }
  | 'i' => change ({ · with integer := on })
  | 'n' => change ({ · with reference := on })
  | 'r' => change fun v => if on then { v with readonly := true } else v
  | 'x' => change ({ · with exported := on })
  | 'l' => change ({ · with recase := if on then some .lower else none })
  | 'u' => change ({ · with recase := if on then some .upper else none })
  | 'c' | 't' | 'I' => m
  | c => { m with wrong := some c }

def readMarks (m : Marks) : List Operand → Marks × List Operand
  | .text ['-', '-'] :: rest => (m, rest)
  | .text (sign :: c :: cs) :: rest =>
    if sign = '-' ∨ sign = '+' then
      readMarks ((c :: cs).foldl (fun m c => m.add (sign = '-') c) m) rest
    else (m, .text (sign :: c :: cs) :: rest)
  | args => (m, args)

/-- Remember what a variable was before the running function made it local. -/
def saveLocal (name : Octets) : Run Unit := do
  let s ← shell
  match s.locals with
  | saved :: outer =>
    if !(saved.any (·.1 == name)) then
      modifyShell ({ · with locals := ((name, s.vars.lookup name) :: saved) :: outer })
      if s.dialect = .bash then
        match s.vars.lookup name with
        | some v => if v.readonly then refuseReadonly name else putVariable name { value := none, exported := v.exported }
        | none => return
  | [] => return

def defineEach (m : Marks) (isLocal : Bool) (operands : List Operand) : Run Int := do
  let mut status : Int := 0
  for o in operands do
    let (target, text, es) : Octets × Option Octets × Option (Bool × List Member) := match o with
      | .text t => let (n, v) := definition t; (n, v, none)
      | .items n appends es => (n, none, some (appends, es))
    let appends := target.getLast? = some '+'
    let target := if appends then target.dropLast else target
    if !isIdentifier target then
      complain ('\x60' :: target ++ (if text.isSome then '=' :: text.getD [] else []) ++
        "': not a valid identifier".toList)
      status := 1
    else
      let base := target.takeWhile (· ≠ '[')
      if isLocal then saveLocal base
      let isReference := m.changes.any fun f => (f { value := none }).reference
      let now ← shell
      let base := if isReference then base else Shell.target now 8 base
      let v := (now.vars.lookup base).getD { value := none, exported := 'a' ∈ now.options }
      let willChange := text.isSome || es.isSome
      if v.readonly ∧ willChange then
        complain (base ++ ": readonly variable".toList)
        status := 1
      else
        let v :=
          if m.isKeyed ∧ !v.isKeyed then { v with items := some (.keyed []), value := none }
          else if (m.isArray ∨ base.length < target.length) ∧ v.items.isNone then
            { v with items := some v.toItems, value := none }
          else v
        let marked := m.changes.foldl (fun v f => f v) v
        putVariable base { marked with readonly := v.readonly, reference := v.reference && !isReference }
        match es, text with
        | some (appends, es), _ => assignItems base appends es
        | none, some text => assignWithin 8 (if base = target then (base, none) else
            (base, some ((target.drop (base.length + 1)).dropLast))) appends text
        | none, none => pure ()
        let v := ((← shell).vars.lookup base).getD { value := none }
        putVariable base { v with readonly := marked.readonly, reference := marked.reference }
  return status

def operandName : Operand → Octets
  | .text t => (definition t).1
  | .items name _ _ => name

def declare (command : String) (operands : List Operand) : Run Int := do
  let (m, operands) := readMarks {} operands
  let s ← shell
  if let some c := m.wrong then return ← refuse (['-', c] ++ ": invalid option".toList) 2
  let inFunction := !s.locals.isEmpty
  if command = "local" ∧ !inFunction then return ← refuse "can only be used in a function".toList 1
  if m.functions then
    let names := if operands.isEmpty then (s.functions.map (·.1)).mergeSort inOrder else operands.map operandName
    let mut status : Int := 0
    for name in names do
      if (s.functions.lookup name).isSome then
        if m.namesOnly then
          print ((if operands.isEmpty then "declare -f ".toList else []) ++ name ++ ['\n'])
      else status := 1
    return status
  if m.lists ∨ operands.isEmpty then
    let mut status : Int := 0
    if operands.isEmpty then
      for (name, v) in ← sortedVariables do
        let wanted := (m.isArray → !v.isKeyed && v.items.isSome) ∧ (m.isKeyed → v.isKeyed) ∧
          (m.changes.all fun f => decide (f v = v))
        if wanted then print (declaration name v)
    for o in operands do
      let name := operandName o
      match Shell.lookup? s name with
      | some v => print (declaration name v)
      | none =>
        complain (name ++ ": not found".toList)
        status := 1
    return status
  defineEach m (inFunction && !m.isGlobal) operands

def mark (word : String) (has : Variable → Bool) (change : Variable → Variable) (operands : List Operand) :
    Run Int := do
  if ← isBash then
    let (m, operands) := readMarks {} operands
    if m.functions then return 0
    if operands.isEmpty then
      listMarked word has
      return 0
    let removes := m.changes.any fun f => (f { value := none }).reference
    let change := if removes ∧ word = "export" then fun v => { v with exported := false } else change
    defineEach { m with changes := [change] } false operands
  else
    let args := operands.map fun
      | .text t => t
      | .items name _ _ => name
    let (_, args) := Tool.readOptions [] args
    if args.isEmpty then listMarked word has
    for arg in args do
      let (name, text) := definition arg
      if !isName name then fail (name ++ ": bad variable name".toList)
      if let some text := text then assign name text
      let v := ((← shell).vars.lookup name).getD { value := none }
      putVariable name (change v)
    return 0

def makeLocal (operands : List Operand) : Run Int := do
  if ← isBash then return ← declare "local" operands
  for o in operands do
    let (name, text) := match o with
      | .text t => definition t
      | .items name _ _ => (name, none)
    if (← shell).locals.isEmpty then fail "not in a function".toList
    if !isName name then fail (name ++ ": bad variable name".toList)
    saveLocal name
    if let some text := text then assign name text
  if operands.isEmpty ∧ (← shell).locals.isEmpty then fail "not in a function".toList
  return 0

def unsetAll (args : List Octets) : Run Int := do
  let (opts, names) := Tool.readOptions [] args
  let bash ← isBash
  let mut status : Int := 0
  for name in names do
    let s ← shell
    let dropFunction : Run Unit :=
      modifyShell fun s => { s with functions := s.functions.filter (·.1 ≠ name) }
    if (opts.lookup 'f').isSome then dropFunction
    else if bash then
      if (opts.lookup 'n').isSome then dropVariable name
      else
        match name.dropWhile (· ≠ '[') with
        | '[' :: key =>
          let base := Shell.target s 8 (name.takeWhile (· ≠ '['))
          if key.dropLast = ['@'] ∨ key.dropLast = ['*'] then unset base
          else if (s.vars.lookup base).isSome then unsetElement base key.dropLast
        | _ =>
          if !isName name then
            complain ('\x60' :: name ++ "': not a valid identifier".toList)
            status := 1
          else if (s.vars.lookup name).isSome then
            if (s.vars.lookup name).any (·.readonly) then
              complain (name ++ ": cannot unset: readonly variable".toList)
              status := 1
            else unset name
          else if (opts.lookup 'v').isNone then dropFunction
    else if isName name then unset name
    else fail (name ++ ": bad variable name".toList)
  return status

def unprotected : Octets → List Glyph
  | '\\' :: c :: cs => ⟨c, true⟩ :: unprotected cs
  | ['\\'] => []
  | c :: cs => ⟨c, false⟩ :: unprotected cs
  | [] => []

def isBlankIn (ifs : Octets) (g : Glyph) : Bool := !g.quoted && g.char ∈ ifs && g.char ∈ [' ', '\t', '\n']

def isSeparatorIn (ifs : Octets) (g : Glyph) : Bool := !g.quoted && g.char ∈ ifs

def afterSeparator (ifs : Octets) (gs : List Glyph) : List Glyph :=
  match gs.dropWhile (isBlankIn ifs) with
  | g :: more => if isSeparatorIn ifs g then more.dropWhile (isBlankIn ifs) else g :: more
  | [] => []

/-- A line for so many variables: one field for each, and the last one takes what is left, without a
separator that ends its only field. -/
def portions (ifs : Octets) : Nat → List Glyph → List Octets
  | 0, _ => []
  | n + 1, gs =>
    let gs := gs.dropWhile (isBlankIn ifs)
    let field := gs.takeWhile fun g => !isSeparatorIn ifs g
    let rest := afterSeparator ifs (gs.drop field.length)
    if n = 0 then
      if rest.isEmpty then [field.map (·.char)]
      else [((gs.reverse.dropWhile (isBlankIn ifs)).reverse).map (·.char)]
    else field.map (·.char) :: portions ifs n rest

def allPortions (ifs : Octets) : Nat → List Glyph → List Octets
  | 0, _ => []
  | n + 1, gs =>
    match gs.dropWhile (isBlankIn ifs) with
    | [] => []
    | gs =>
      let field := gs.takeWhile fun g => !isSeparatorIn ifs g
      field.map (·.char) :: allPortions ifs n (afterSeparator ifs (gs.drop field.length))

/-- A line, with those after it that a backslash at its end joins to it. -/
def joinedLine (raw : Bool) (fd : Nat) (delimiter : Char) (limit : Option Nat) :
    Nat → Octets → Run (Octets × Bool)
  | 0, before => return (before, false)
  | n + 1, before => do
    let (line, ended) ← readPortion fd (some delimiter) limit
    let backslashes := (line.reverse.takeWhile (· == '\\')).length
    if !raw ∧ ended ∧ backslashes % 2 = 1 ∧ limit.isNone then
      let more := if delimiter = '\n' then line.dropLast else line ++ [delimiter]
      joinedLine raw fd delimiter limit n (before ++ more)
    else return (before ++ line, ended)

def read (args : List Octets) : Run Int := do
  let bash ← isBash
  let (opts, names) := Tool.readOptions ['p', 't', 'n', 'N', 'd', 'u', 'a', 'i'] args
  let raw := (opts.lookup 'r').isSome
  if names.isEmpty ∧ !bash then return ← refuse "arg count".toList 2
  for name in names do
    if !isIdentifier name then
      if bash then return ← refuse ('\x60' :: name ++ "': not a valid identifier".toList) 1
      else return ← refuse (name ++ ": bad variable name".toList) 2
  let fd := ((opts.lookup 'u').bind number?).getD 0
  if (opts.lookup 't') = some ['0'] then return if (← stream? fd).isSome then 0 else 1
  let exact := (opts.lookup 'N').bind number?
  let limit := exact.or ((opts.lookup 'n').bind number?)
  let delimiter := match opts.lookup 'd' with
    | some (c :: _) => c
    | some [] => '\x00'
    | none => '\n'
  let (line, ended) ← match exact with
    | some n => readPortion fd none (some n)
    | none => joinedLine raw fd delimiter limit 100000 []
  let line := line.filter (· ≠ '\x00')
  let ifs := (← value? "IFS".toList).getD [' ', '\t', '\n']
  let gs := if raw then line.map (⟨·, false⟩) else unprotected line
  let s ← shell
  match opts.lookup 'a', names with
  | some name, _ =>
    assignItems name false ((allPortions ifs (line.length + 1) gs).map fun text => ⟨none, false, text⟩)
  | none, [] => assign "REPLY".toList (gs.map (·.char))
  | none, names =>
    let texts := if exact.isSome then [gs.map (·.char)] else portions ifs names.length gs
    for (name, text) in names.zip (texts ++ List.replicate names.length []) do
      assignWithin 8 (Shell.slotNamed s name) false text
  return if ended then 0 else 1

def mapfile (args : List Octets) : Run Int := do
  let (opts, names) := Tool.readOptions ['d', 'n', 'O', 's', 'u', 'C', 'c'] args
  let count (c : Char) : Option Nat := (opts.lookup c).bind number?
  let delimiter := match opts.lookup 'd' with
    | some (c :: _) => c
    | some [] => '\x00'
    | none => '\n'
  let text ← readAll ((count 'u').getD 0)
  let pieces := Text.split (· == delimiter) text
  let pieces := pieces.dropLast.map (· ++ [delimiter]) ++ (pieces.getLast?.toList.filter (· ≠ []))
  let pieces := pieces.drop ((count 's').getD 0)
  let pieces := match count 'n' with
    | some 0 | none => pieces
    | some n => pieces.take n
  let pieces := if (opts.lookup 't').isSome then
      pieces.map fun p => if p.getLast? = some delimiter then p.dropLast else p
    else pieces
  let name := names.head?.getD "MAPFILE".toList
  let first := (count 'O').getD 0
  assignItems name (count 'O').isSome (pieces.zipIdx.map fun (p, i) => ⟨some (decimal (first + i)), false, p⟩)
  return 0

def let_ (args : List Octets) : Run Int := do
  if args.isEmpty then return ← refuse "expression expected".toList 1
  let values ← args.mapM (compute 8)
  return if values.getLast? = some 0 then 1 else 0

def setOption (on : Bool) (c : Char) : Run Unit :=
  modifyShell fun s =>
    let others := s.options.filter (· ≠ c)
    { s with options := if on then others ++ [c] else others }

def setSwitch (on : Bool) (name : String) : Run Unit :=
  modifyShell fun s =>
    let others := s.switches.filter (· ≠ name)
    { s with switches := if on then others ++ [name] else others }

def longOptions : List String :=
  ["pipefail", "posix", "emacs", "vi", "history", "histexpand", "nolog", "interactive-comments"]

def letterOptions (d : Dialect) : String :=
  match d with
  | .posix => "efIimnsxvVECabu"
  | .bash => "abefhkmnptuvxBCEHPT"

def listedOptions (d : Dialect) : List String :=
  match d with
  | .posix => ["errexit", "noglob", "ignoreeof", "interactive", "monitor", "noexec", "stdin", "xtrace", "verbose",
      "vi", "emacs", "noclobber", "allexport", "notify", "nounset", "nolog", "debug"]
  | .bash => ["allexport", "braceexpand", "emacs", "errexit", "errtrace", "functrace", "hashall", "histexpand",
      "history", "ignoreeof", "interactive-comments", "keyword", "monitor", "noclobber", "noexec", "noglob",
      "nolog", "notify", "nounset", "onecmd", "physical", "pipefail", "posix", "privileged", "verbose", "vi",
      "xtrace"]

def isOn (s : Shell) (name : String) : Bool :=
  if name = "stdin" then 's' ∈ s.options
  else
    match optionNames.lookup name with
    | some c => c ∈ s.options
    | none => name ∈ s.switches

def listOptions (asCommands : Bool) : Run Unit := do
  let s ← shell
  let bash := s.dialect = .bash
  if !bash ∧ !asCommands then print "Current option settings\n".toList
  for name in listedOptions s.dialect do
    let on := isOn s name
    let width := if bash then 15 else 16
    let column := name.toList ++ List.replicate (width - name.length) ' '
    if asCommands then print ((if on then "set -o " else "set +o ").toList ++ name.toList ++ ['\n'])
    else print (column ++ (if bash then ['\t'] else []) ++ (if on then "on" else "off").toList ++ ['\n'])

/-- Options in front; what follows them, if anything does or `--` stands there, are the new
parameters. The result is whether all options are known. -/
def setOptions : List Octets → Run Bool
  | [] => return true
  | ['-', '-'] :: args => do
    modifyShell ({ · with args })
    return true
  | [['-', 'o']] => do
    listOptions false
    return true
  | [['+', 'o']] => do
    listOptions true
    return true
  | [sign, 'o'] :: name :: args => do
    let bash ← isBash
    match optionLetter? name with
    | some c => setOption (sign == '-') c
    | none =>
      if bash ∧ String.ofList name ∈ longOptions then setSwitch (sign == '-') (String.ofList name)
      else if bash then
        complain (name ++ ": invalid option name".toList)
        return false
      else fail ("Illegal option ".toList ++ [sign, 'o', ' '] ++ name)
    setOptions args
  | (sign :: c :: cs) :: args => do
    if sign = '-' ∨ sign = '+' then
      let s ← shell
      let allowed := (letterOptions s.dialect).toList
      match (c :: cs).find? fun c => c ∉ allowed ∧ c ≠ 'o' with
      | some c =>
        if s.dialect = .posix then fail ("Illegal option ".toList ++ [sign, c])
        complain ([sign, c] ++ ": invalid option".toList)
        let _ ← write 2 "set: usage: set [-abefhkmnptuvxBCEHPT] [-o option-name] [--] [-] [arg ...]\n".toList
        return false
      | none =>
        for c in c :: cs do
          if c ≠ 'o' then setOption (sign == '-') c
        if 'o' ∈ c :: cs then
          match args with
          | name :: args =>
            if let some c := optionLetter? name then setOption (sign == '-') c
            else setSwitch (sign == '-') (String.ofList name)
            setOptions args
          | [] => return true
        else setOptions args
    else
      modifyShell ({ · with args := (sign :: c :: cs) :: args })
      return true
  | args => do
    modifyShell ({ · with args })
    return true

def set (args : List Octets) : Run Int := do
  if args.isEmpty then
    let bash ← isBash
    for (name, v) in ← sortedVariables do
      if bash then
        if v.items.isSome then print (name ++ '=' :: listing v ++ ['\n'])
        else if let some text := v.value then print (name ++ '=' :: Quoting.listed text ++ ['\n'])
      else if let some text := v.value then print (name ++ '=' :: Quoting.separate text ++ ['\n'])
    return 0
  else return if ← setOptions args then 0 else 2

def switchNames : List String :=
  ["assoc_expand_once", "autocd", "cdable_vars", "cdspell", "checkhash", "checkjobs", "checkwinsize", "cmdhist",
    "compat31", "compat32", "compat40", "compat41", "compat42", "compat43", "compat44", "complete_fullquote",
    "direxpand", "dirspell", "dotglob", "execfail", "expand_aliases", "extdebug", "extglob", "extquote", "failglob",
    "force_fignore", "globasciiranges", "globskipdots", "globstar", "gnu_errfmt", "histappend", "histreedit",
    "histverify", "hostcomplete", "huponexit", "inherit_errexit", "interactive_comments", "lastpipe", "lithist",
    "localvar_inherit", "localvar_unset", "login_shell", "mailwarn", "no_empty_cmd_completion", "nocaseglob",
    "nocasematch", "noexpand_translation", "nullglob", "patsub_replacement", "progcomp", "progcomp_alias",
    "promptvars", "restricted_shell", "shift_verbose", "sourcepath", "varredir_close", "xpg_echo"]

def usualSwitches : List String :=
  ["checkwinsize", "cmdhist", "complete_fullquote", "extquote", "force_fignore", "globasciiranges", "globskipdots",
    "hostcomplete", "interactive_comments", "patsub_replacement", "progcomp", "promptvars", "sourcepath"]

def shopt (args : List Octets) : Run Int := do
  let (opts, names) := Tool.readOptions [] args
  let has (c : Char) : Bool := (opts.lookup c).isSome
  let s ← shell
  let named := names.map String.ofList
  let line (name : String) : Octets :=
    let on := name ∈ s.switches
    if has 'p' then (if on then "shopt -s " else "shopt -u ").toList ++ name.toList ++ ['\n']
    else name.toList ++ List.replicate (15 - name.length) ' ' ++ '\t' ::
      (if on then "on\n" else "off\n").toList
  if has 'o' then
    for name in names do
      if has 's' ∨ has 'u' then
        if let some c := optionLetter? name then setOption (has 's') c
        else setSwitch (has 's') (String.ofList name)
    return if names.all fun name => isOn s (String.ofList name) then 0 else 1
  let mut status : Int := 0
  for name in named do
    if name ∉ switchNames then
      complain (name.toList ++ ": invalid shell option name".toList)
      status := 1
    else if has 's' ∨ has 'u' then setSwitch (has 's') name
    else
      if !has 'q' then print (line name)
      if name ∉ s.switches then status := 1
  if named.isEmpty then
    for name in switchNames do
      let on := decide (name ∈ s.switches)
      if (has 's' → on) ∧ (has 'u' → !on) then print (line name)
  return status

def shift (args : List Octets) : Run Int := do
  let s ← shell
  let bash := s.dialect = .bash
  let n ← match args with
    | [] => pure 1
    | a :: _ =>
      match number? a with
      | some n => pure n
      | none =>
        if bash then return ← refuse (a ++ ": numeric argument required".toList) 1
        fail ("Illegal number: ".toList ++ a)
  if n > s.args.length then
    if bash then return 1
    fail "can't shift that many".toList
  modifyShell ({ · with args := s.args.drop n })
  return 0

/-- The next option of the parameters, looked for in the word that `OPTIND` counts. -/
def getopts (args : List Octets) : Run Int := do
  match args with
  | letters :: name :: more =>
    let s ← shell
    let bash := s.dialect = .bash
    let isSilent := letters.head? = some ':'
    let words := if more.isEmpty then s.args else more
    let index := max 1 ((number? (← value "OPTIND")).getD 1)
    let offset := s.optionOffset
    let move (i k : Nat) : Run Unit := do
      assign "OPTIND".toList (decimal i)
      modifyShell ({ · with optionOffset := k })
    let noArgument : Run Unit := if bash then unset "OPTARG".toList else assign "OPTARG".toList []
    let done (i : Nat) : Run Int := do
      move i 1
      assign name ['?']
      if bash then unset "OPTARG".toList
      return 1
    let loud (text : String) (o : Char) : Run Unit := do
      if bash then
        if (← value? "OPTERR".toList) ≠ some ['0'] then
          let front := (Shell.title s)
          let what := if text = "Illegal option" then "illegal option -- " else "option requires an argument -- "
          let _ ← write 2 (front ++ ": ".toList ++ what.toList ++ [o, '\n'])
      else
        let tail := if text = "Illegal option" then [] else " option".toList
        let _ ← write 2 (text.toList ++ " -".toList ++ [o] ++ tail ++ ['\n'])
    match words[index - 1]? with
    | some ['-', '-'] => done (index + 1)
    | some ('-' :: c :: cs) =>
      let chars := c :: cs
      match chars[offset - 1]? with
      | none => done index
      | some o =>
        let after := letters.dropWhile (· ≠ o)
        let isLast := offset ≥ chars.length
        if after.isEmpty ∨ o = ':' then
          if isLast then move (index + 1) 1 else move index (offset + 1)
          assign name ['?']
          if isSilent then assign "OPTARG".toList [o]
          else
            loud "Illegal option" o
            unset "OPTARG".toList
          return 0
        if after[1]? = some ':' then
          if !isLast then
            move (index + 1) 1
            assign name [o]
            assign "OPTARG".toList (chars.drop offset)
          else
            match words[index]? with
            | some arg =>
              move (index + 2) 1
              assign name [o]
              assign "OPTARG".toList arg
            | none =>
              move (index + 1) 1
              if isSilent then
                assign name [':']
                assign "OPTARG".toList [o]
              else
                loud "No arg for" o
                assign name ['?']
                unset "OPTARG".toList
        else
          if isLast then move (index + 1) 1 else move index (offset + 1)
          assign name [o]
          noArgument
        return 0
    | _ => done index
  | _ =>
    if ← isBash then
      let _ ← write 2 "getopts: usage: getopts optstring name [arg ...]\n".toList
    else complain "Usage: getopts optstring var [arg...]".toList
    return 2

def defineAlias (args : List Octets) : Run Int := do
  let s ← shell
  let bash := s.dialect = .bash
  let show_ (e : Octets × Octets) : Run Unit :=
    print (if bash then "alias ".toList ++ e.1 ++ '=' :: Quoting.single e.2 ++ ['\n']
      else e.1 ++ '=' :: Quoting.separate e.2 ++ ['\n'])
  let args := if args.head? = some ['-', 'p'] then args.tail else args
  if args.isEmpty then
    let sorted := if bash then s.aliases.mergeSort fun a b => inOrder a.1 b.1
      else s.aliases.mergeSort fun a b => decide (place .posix a.1 ≤ place .posix b.1)
    for e in sorted do show_ e
    return 0
  let mut status : Int := 0
  for arg in args do
    match definition arg with
    | (name, some text) =>
      modifyShell fun s => { s with aliases :=
        if (s.aliases.lookup name).isSome then s.aliases.map fun e => if e.1 = name then (name, text) else e
        else s.aliases ++ [(name, text)] }
    | (name, none) =>
      match s.aliases.lookup name with
      | some text => show_ (name, text)
      | none =>
        if bash then complain (name ++ ": not found".toList)
        else
          let _ ← write 2 ("alias: ".toList ++ name ++ " not found\n".toList)
        status := 1
  return status

def unalias (args : List Octets) : Run Int := do
  if args.head? = some ['-', 'a'] then
    modifyShell ({ · with aliases := [] })
    return 0
  let mut status : Int := 0
  for name in args do
    if ((← shell).aliases.lookup name).isSome then
      modifyShell fun s => { s with aliases := s.aliases.filter (·.1 ≠ name) }
    else
      if ← isBash then complain (name ++ ": not found".toList)
      else
        let _ ← write 2 ("unalias: ".toList ++ name ++ " not found\n".toList)
      status := 1
  return status

def shownMask (mask : Nat) : Octets :=
  let ds := Nat.toDigits 8 mask
  List.replicate (4 - ds.length) '0' ++ ds

def symbolicMask (mask : Nat) : Octets :=
  let class_ (who : Char) (bits : Nat) : Octets :=
    let allowed := (mask >>> bits) % 8
    [who, '='] ++ (if allowed / 4 = 0 then ['r'] else []) ++ (if allowed / 2 % 2 = 0 then ['w'] else []) ++
      (if allowed % 2 = 0 then ['x'] else [])
  Text.join ',' [class_ 'u' 6, class_ 'g' 3, class_ 'o' 0]

def clause? (allowed : Nat) (text : Octets) : Option Nat :=
  let who := text.takeWhile (· ∈ ['u', 'g', 'o', 'a'])
  let who := if who.isEmpty ∨ 'a' ∈ who then ['u', 'g', 'o'] else who
  match text.dropWhile (· ∈ ['u', 'g', 'o', 'a']) with
  | op :: perms =>
    if op ∉ ['+', '-', '='] ∨ !(perms.all (· ∈ ['r', 'w', 'x', 'X', 's', 't'])) then none
    else
      let bits := (if 'r' ∈ perms then 4 else 0) + (if 'w' ∈ perms then 2 else 0) +
        (if 'x' ∈ perms ∨ 'X' ∈ perms then 1 else 0)
      some ([('u', 6), ('g', 3), ('o', 0)].foldl (fun all (w, shift) =>
        if w ∈ who then
          let old := (all >>> shift) % 8
          let new := if op = '+' then old ||| bits else if op = '-' then old &&& (7 - bits) else bits
          all - (old <<< shift) + (new <<< shift)
        else all) allowed)
  | [] => none

def umask (args : List Octets) : Run Int := do
  let mask := (← shell).mask
  let (opts, named) := match args with
    | ['-', 'S'] :: rest => (['S'], rest)
    | ['-', 'p'] :: rest => (['p'], rest)
    | args => ([], args)
  match named with
  | [] =>
    print ((if opts = ['S'] then symbolicMask mask else
      (if opts = ['p'] then "umask ".toList else []) ++ shownMask mask) ++ ['\n'])
    return 0
  | text :: _ =>
    if text.head?.any Char.isDigit then
      match Arithmetic.natural? 8 text with
      | some m =>
        modifyShell ({ · with mask := m % 512 })
        return 0
      | none =>
        if ← isBash then refuse (text ++ ": octal number out of range".toList) 1
        else refuse ("Illegal number: ".toList ++ text) 2
    else
      match (Text.split (· == ',') text).foldlM clause? (511 - mask) with
      | some allowed =>
        modifyShell ({ · with mask := 511 - allowed })
        return 0
      | none =>
        if ← isBash then refuse ('\x60' :: text.take 1 ++ "': invalid symbolic mode operator".toList) 1
        else refuse ("Illegal mode: ".toList ++ text) 2

def signals : List (Nat × String) :=
  [(0, "EXIT"), (1, "HUP"), (2, "INT"), (3, "QUIT"), (4, "ILL"), (5, "TRAP"), (6, "ABRT"), (7, "BUS"),
    (8, "FPE"), (9, "KILL"), (10, "USR1"), (11, "SEGV"), (12, "USR2"), (13, "PIPE"), (14, "ALRM"), (15, "TERM"),
    (16, "STKFLT"), (17, "CHLD"), (18, "CONT"), (19, "STOP"), (20, "TSTP"), (21, "TTIN"), (22, "TTOU"),
    (23, "URG"), (24, "XCPU"), (25, "XFSZ"), (26, "VTALRM"), (27, "PROF"), (28, "WINCH"), (29, "IO"),
    (30, "PWR"), (31, "SYS")]

def occasions : List (Nat × String) := [(65, "DEBUG"), (66, "ERR"), (67, "RETURN")]

def signal? (text : Octets) : Option Nat :=
  match number? text with
  | some n => if n < 65 then some n else none
  | none =>
    let name := text.map Char.toUpper
    let name := if "SIG".toList.isPrefixOf name then name.drop 3 else name
    (signals.find? fun (_, s) => s.toList == name).map (·.1)

def isHarmless (signal : Nat) : Bool := signal ∈ [0, 17, 18, 23, 28]

def trap (args : List Octets) : Run Int := do
  let bash ← isBash
  let args := if args.head? = some ['-', '-'] then args.tail else args
  let known (name : Octets) : Option Nat :=
    (signal? name).or (if bash then (occasions.find? fun (_, s) => s.toList == name).map (·.1) else none)
  let show_ (wanted : Nat → Bool) : Run Unit := do
    for (n, action) in (← shell).traps.mergeSort fun a b => decide (a.1 ≤ b.1) do
      if wanted n then
        let name := match signals.lookup n, occasions.lookup n with
          | some name, _ => (if bash ∧ n ≠ 0 then "SIG".toList else []) ++ name.toList
          | none, some name => name.toList
          | none, none => decimal n
        print ("trap -- ".toList ++ (if bash then Quoting.single action else Quoting.separate action) ++
          ' ' :: name ++ ['\n'])
  match args with
  | [] => show_ fun _ => true
  | ['-', 'p'] :: names =>
    show_ fun n => names.isEmpty || (names.filterMap known).contains n
  | first :: rest =>
    let (action, named) := if rest.isEmpty then (['-'], [first]) else (first, rest)
    let isReset := action = ['-'] ∨ (number? action).isSome
    let named := if (number? action).isSome then action :: named else named
    let mut status := 0
    for name in named do
      match known name with
      | none =>
        if bash then complain (name ++ ": invalid signal specification".toList)
        else
          let _ ← write 2 ("trap: ".toList ++ name ++ ": bad trap\n".toList)
        status := 1
      | some n =>
        modifyShell fun s =>
          let others := s.traps.filter (·.1 ≠ n)
          { s with traps := if isReset then others else others ++ [(n, action)] }
    return status
  return 0

def jobNamed? (jobs : List Job) (name : Octets) : Option Job :=
  match name with
  | [] | ['+'] | ['%'] => jobs.getLast?
  | ['-'] => (jobs.dropLast.getLast?).or jobs.getLast?
  | '?' :: part => jobs.find? fun j => (List.range (j.text.length + 1)).any fun k => part.isPrefixOf (j.text.drop k)
  | name =>
    match number? name with
    | some k => jobs.find? (·.number = k)
    | none => jobs.find? fun j => name.isPrefixOf j.text

def send (signal : Nat) (target : Octets) : Run Bool := do
  let m ← get
  let pid? : Option Nat := match target with
    | '%' :: name => if m.shell.dialect = .bash then (jobNamed? m.jobs name).map (·.pid) else none
    | _ => number? target
  match pid? with
  | none => return false
  | some pid =>
    if pid = m.shell.pid then
      match m.shell.traps.lookup signal with
      | some action =>
        if signal = 9 then throw (.killed pid signal)
        if action ≠ [] then modify fun m => { m with signals := m.signals ++ [signal] }
        return true
      | none => if isHarmless signal then return true else throw (.killed pid signal)
    else if pid ≠ 0 ∧ pid = m.shell.parent then
      if isHarmless signal then return true else throw (.killed pid signal)
    else if m.jobs.any fun j => j.pid = pid ∧ j.result = none then
      if !isHarmless signal then
        modify fun m => { m with jobs := m.jobs.map fun j =>
          if j.pid = pid ∧ j.told = none then { j with told := some (m.clock, signal) } else j }
      return true
    else return false

def signalTable : Octets :=
  let named := signals.tail.map fun (n, name) => (n, "SIG".toList ++ name.toList)
  let realTime := (List.range 31).map fun i =>
    if i < 16 then (34 + i, "SIGRTMIN".toList ++ if i = 0 then [] else '+' :: decimal i)
    else (34 + i, "SIGRTMAX".toList ++ if i = 30 then [] else '-' :: decimal (30 - i))
  let all := named ++ realTime
  all.zipIdx.flatMap fun ((n, name), i) =>
    List.replicate (2 - (decimal n).length) ' ' ++ decimal n ++ ") ".toList ++ name ++
      (if i % 5 = 4 ∨ i + 1 = all.length then ['\n'] else ['\t'])

def listSignals (names : List Octets) : Run Int := do
  let bash ← isBash
  if names.isEmpty then
    if bash then print signalTable
    else print ("0\n".toList ++ signals.tail.flatMap fun (_, name) => name.toList ++ ['\n'])
    return 0
  let mut status : Int := 0
  for name in names do
    match number? name with
    | some n =>
      let k := if n > 128 then n - 128 else n
      match signals.lookup k with
      | some s => print (s.toList ++ ['\n'])
      | none =>
        if bash then
          complain (name ++ ": invalid signal specification".toList)
          status := 1
        else
          complain ("invalid signal number or exit status: ".toList ++ name)
          return 2
    | none =>
      match bash, signal? name with
      | true, some n => print (decimal n ++ ['\n'])
      | true, none =>
        complain (name ++ ": invalid signal specification".toList)
        status := 1
      | false, _ =>
        complain ("Illegal number: ".toList ++ name)
        return 2
  return status

def kill (args : List Octets) : Run Int := do
  let bash ← isBash
  let (signal, targets) := match args with
    | ['-', 's'] :: name :: rest | ['-', 'n'] :: name :: rest => (signal? name, rest)
    | ['-', '-'] :: rest => (some 15, rest)
    | ('-' :: name) :: rest => (signal? name, rest)
    | rest => (some 15, rest)
  let targets := if targets.head? = some ['-', '-'] then targets.tail else targets
  if args.head? = some ['-', 'l'] ∨ args.head? = some ['-', 'L'] then return ← listSignals args.tail
  match signal with
  | none =>
    if bash then
      let name := match args with
        | ['-', 's'] :: name :: _ => name
        | name :: _ => name.drop 1
        | [] => []
      refuse (name ++ ": invalid signal specification".toList) 1
    else refuse ("invalid signal number or name: ".toList ++ (args.head?.getD []).drop 1) 2
  | some signal =>
    if targets.isEmpty then
      let _ ← write 2 ((if bash
        then "kill: usage: kill [-s sigspec | -n signum | -sigspec] pid | jobspec ... or kill -l [sigspec]\n"
        else "kill: Usage: kill [-s sigspec | -signum | -sigspec] [pid | job]...\n").toList)
      return 2
    let mut status := 0
    for target in targets do
      if !(← send signal target) then
        if bash then complain ('(' :: target ++ ") - No such process".toList)
        else complain "No such process".toList
        status := 1
    return status

/-- Jobs cannot be brought back where they are not controlled. -/
def resume (args : List Octets) : Run Int := do
  if ← isBash then refuse "no job control".toList 1
  else
    let jobs := (← get).jobs
    match args.head? with
    | none => if jobs.isEmpty then refuse "No current job".toList 2 else refuse "job not created under job control".toList 2
    | some a =>
      match a with
      | '%' :: name =>
        if (jobNamed? jobs name).isSome then refuse "job not created under job control".toList 2
        else refuse ("No such job: ".toList ++ a) 2
      | a => refuse ("No such job: ".toList ++ a) 2

def caller (args : List Octets) : Run Int := do
  let s ← shell
  match s.calls with
  | [] => return 1
  | c :: rest =>
    let above := (rest.head?.map Call.name).getD "main".toList
    let source := (rest.head?.map Call.source).getD s.name
    print (decimal c.line ++ ' ' :: (if args.isEmpty then [] else above ++ [' ']) ++
      (if args.isEmpty ∧ rest.isEmpty then "NULL".toList else source) ++ ['\n'])
    return 0

/-- Remember where programs are; nothing is, so all that can be wrong is that they are nowhere. -/
def hash (args : List Octets) : Run Int := do
  let s ← shell
  let fs ← files
  let search ← value "PATH"
  let mut status := 0
  for name in args.filter fun a => a.head? ≠ some '-' do
    let known := (s.functions.lookup name).isSome || (Program.locate fs search name).isOk ||
      (Tool.Shared.builtin? (String.ofList name)).isSome
    if !known then
      complain (name ++ ": not found".toList)
      status := 1
  return status

def ofBash? (name : String) : Option (List Octets → Run Int) :=
  match name with
  | "let" => some let_
  | "shopt" => some shopt
  | "mapfile" | "readarray" => some mapfile
  | "pushd" => some pushd
  | "popd" => some popd
  | "dirs" => some dirs
  | "caller" => some caller
  | "disown" => some fun args => refuse (args.headD "current".toList ++ ": no such job".toList) 1
  | "suspend" => some fun _ => refuse "cannot suspend: no job control".toList 1
  | "logout" => some fun _ => refuse "not login shell: use \x60exit'".toList 1
  | "enable" | "history" | "fc" | "bind" | "complete" | "compgen" | "compopt" | "help" => some fun _ => return 0
  | _ => none

def defining? (d : Dialect) (name : String) : Option (List Operand → Run Int) :=
  match d, name with
  | _, "export" => some (mark "export" (·.exported) ({ · with exported := true }))
  | _, "readonly" => some (mark "readonly" (·.readonly) ({ · with readonly := true }))
  | _, "local" => some makeLocal
  | .bash, "declare" | .bash, "typeset" => some (declare name)
  | _, _ => none

def find? (d : Dialect) (name : String) : Option (List Octets → Run Int) :=
  match name with
  | "cd" => some cd
  | "chdir" => if d = .posix then some cd else none
  | "unset" => some unsetAll
  | "read" => some read
  | "set" => some set
  | "shift" => some shift
  | "getopts" => some getopts
  | "trap" => some trap
  | "kill" => some kill
  | "alias" => some defineAlias
  | "unalias" => some unalias
  | "umask" => some umask
  | "ulimit" => some fun args => do
    if args.length < 2 then print "unlimited\n".toList
    return 0
  | "times" => some fun _ => do
    print (if d = .bash then "0m0.000s 0m0.000s\n0m0.000s 0m0.000s\n" else "0m0.00s 0m0.00s\n0m0.00s 0m0.00s\n").toList
    return 0
  | "hash" => some hash
  | "bg" | "fg" => some resume
  | name => (Tool.Shared.builtin? name).or (if d = .bash then ofBash? name else none)

end CMakeHelm.Sh.Builtin
