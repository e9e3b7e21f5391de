import CMakeHelm.Sh.Awk.Eval
import CMakeHelm.Sh.Braces
import CMakeHelm.Sh.Finder
import CMakeHelm.Sh.Open

namespace CMakeHelm.Sh

open Run Parameter Control

namespace Eval

def separate (texts : List Octets) (inQuotes : Bool) : Run (List Atom) := do
  let between ← match (← shell).dialect, inQuotes, ← separators with
    | .bash, false, c :: _ => pure (Atom.char c false true)
    | _, _, _ => pure Atom.boundary
  return ((texts.map (Atom.ofValue inQuotes)).intersperse [between]).flatten

/-- Parameters without what matches at one of their ends. Some shells look only at the two ends of
them all. -/
def stripAll (d : Dialect) (rules : PatternRules) (pattern : List Glyph) (atEnd longest : Bool)
    (texts : List Octets) : List Octets :=
  let strip := stripMatch rules pattern atEnd longest
  match d with
  | .bash => texts.map strip
  | .posix => if atEnd then texts.dropLast ++ texts.getLast?.toList.map strip else texts.modifyHead strip

def atomsOf (g : Got) (inQuotes : Bool) : Run (List Atom) := do
  match g with
  | .one text => return Atom.ofValue inQuotes (text.getD [])
  | .many texts isJoined =>
    if isJoined ∧ inQuotes then return Atom.ofValue true (← joined texts)
    else separate texts inQuotes

def textOf? (g : Got) : Run (Option Octets) := do
  match g with
  | .one text => return text
  | .many texts _ => if texts.isEmpty ∧ (← Builtin.isBash) then return none else return some (← joined texts)

def mapGot (f : Octets → Octets) : Got → Got
  | .one text => .one (text.map f)
  | .many texts isJoined => .many (texts.map f) isJoined

def refuseUnset {α : Type} (name : Octets) : Run α := do
  if ← Builtin.isBash then
    let shown := if name.all Char.isDigit then '$' :: name else name
    fail (shown ++ ": unbound variable".toList)
  else fail (name ++ ": parameter not set".toList)

def present (name : Octets) (g : Got) : Run Unit := do
  if g = .one none ∧ (← hasOption 'u') then refuseUnset name

def splittable : Atom → Atom
  | .char c false _ => .char c false true
  | a => a

def namesFrom (front : Octets) : Run (List Octets) :=
  return (((← shell).vars.filter fun (name, v) => front.isPrefixOf name ∧ (v.value.isSome ∨ v.items.isSome)).map
    (·.1)).mergeSort inOrder

def described (name : Octets) (letter : Char) (g : Got) : Run Got := do
  let v := Shell.lookup? (← shell) name
  match letter, g, v with
  | 'a', _, some v => return .one (some (Builtin.letters v))
  | 'a', _, none => return .one (some [])
  | 'A', _, some v =>
    let flags := Builtin.letters v
    if v.items.isSome then return .one (some (Builtin.declaration name v).dropLast)
    else return .one (v.value.map fun text =>
      (if flags.isEmpty then [] else "declare -".toList ++ flags ++ [' ']) ++ name ++ '=' :: Quoting.reusable text)
  | 'K', .many _ _, some v =>
    return .one (some (Format.spaced (v.entries.map fun (k, text) => k ++ ' ' :: Quoting.double text)))
  | 'k', .many _ j, some v => return .many (v.entries.flatMap fun (k, text) => [k, text]) j
  | _, g, _ => return mapGot (transformed letter) g

def onlyInput? : List Command → Option Word
  | [.simple _ [] [] [.mk _ .read target]] => some target
  | _ => none

def regexText (gs : List Glyph) : Octets :=
  gs.flatMap fun g =>
    if g.quoted ∧ ".[]\\()*+?\x7b\x7d|^$".toList.contains g.char then ['\\', g.char] else [g.char]

/-- How long a command may go on for which nobody reads any more. -/
def patience : Nat := 30000

@[simp] theorem min_patience_lt (n : Nat) : min n patience < n + 1 := by omega

def menuText (texts : List Octets) : Octets :=
  let width := (decimal texts.length).length
  texts.zipIdx.flatMap fun (text, i) =>
    List.replicate (width - (decimal (i + 1)).length) ' ' ++ decimal (i + 1) ++ ") ".toList ++ text ++ ['\n']

def isDefinition (d : Dialect) : Word → Bool
  | .plain cs :: _ => (Grammar.target? d cs).isSome || (cs.contains '=' && isName (cs.takeWhile (· ≠ '=')))
  | _ => false

set_option maxHeartbeats 400000

def noticing (p : Nat → Bool) (jobs : List Job) : List Job :=
  jobs.map fun j => if p j.pid ∧ j.result.isSome then { j with noticed := true } else j

def jobLine (bash : Bool) (j : Job) (mark : Char) : Octets :=
  let state := match j.result with
    | none => "Running".toList
    | some 0 => "Done".toList
    | some 143 => "Terminated".toList
    | some 137 => "Killed".toList
    | some k => if bash then "Exit ".toList ++ integer k else "Done(".toList ++ integer k ++ [')']
  let front := '[' :: decimal j.number ++ [']']
  let shown := match j.text, j.text.getLast? with
    | '(' :: rest, some ')' => "( ".toList ++ ((rest.dropLast.dropWhile (· = ' ')).reverse.dropWhile (· = ' ')).reverse ++ " )".toList
    | text, _ => text
  if bash then
    let padded := state ++ List.replicate (24 - state.length) ' '
    front ++ mark :: ' ' :: ' ' :: padded ++ shown ++ (if j.result.isNone then " &".toList else []) ++ ['\n']
  else
    let line := front ++ ' ' :: mark :: ' ' :: state
    line ++ List.replicate (33 - line.length) ' ' ++ ['\n']

mutual

def part : Nat → Part → Run (List Atom)
  | 0, _ => throw .exhausted
  | n + 1, p => do
    match p with
    | .plain cs => return Atom.plain cs
    | .quoted cs => return Atom.quoted cs
    | .expansion r op q => expansion n r op q
    | .substitution body q =>
      let text ← match onlyInput? body, (← shell).dialect with
        | some target, .bash => do
          let name ← single n target
          match ← readNamed name with
          | .ok content =>
            modifyShell ({ · with substituted := 0 })
            pure content
          | .error e =>
            complain (name ++ ": ".toList ++ e.text.toList)
            modifyShell ({ · with substituted := 1 })
            pure []
        | _, d => do
          let body : Run Unit := do
            if d = .bash ∧ !(← hasSwitch "inherit_errexit") then
              modifyShell fun s => { s with options := s.options.filter (· ≠ 'e') }
            runAll n false body
          let (text, status) ← collecting (apart n body)
          modifyShell ({ · with substituted := status })
          pure text
      let text := text.filter (· ≠ '\x00')
      return Atom.ofValue q ((text.reverse.dropWhile (· = '\n')).reverse)
    | .arithmetic w q => return Atom.ofValue q (integer (← compute 8 (← single n w)))
    | .pipe isInput body =>
      let s ← shell
      let fd := (((List.range 40).map fun k => 63 - k).find? fun k => (s.fds.lookup k).isNone).getD 63
      let handle ←
        if isInput then do
          let (text, _) ← collecting (apart n (runAll n false body))
          addStream (.pipe text [])
        else do
          let handle ← addStream (.pipe [] [])
          modify fun m => { m with sinks := m.sinks ++ [(handle, .sequence body)] }
          pure handle
      modifyShell fun s => { s with fds := setFd fd (some handle) s.fds }
      return Atom.plain ("/dev/fd/".toList ++ decimal fd)
    | .definition _ => return []

/-- Here and below, every function spends fuel when it calls another, so that the fuel bounds the depth
of calls and the turns of a loop. -/
def reference : Nat → Reference → Run (Octets × Got)
  | 0, _ => throw .exhausted
  | n + 1, .mk name sub indirect => do
    let own ← match sub with
      | none => Parameter.named name
      | some (.all isJoined) => element name [if isJoined then '*' else '@']
      | some (.of w) => element name (← single n w)
    if !indirect then return (name, own)
    let s ← shell
    match s.vars.lookup name with
    | some v =>
      if v.reference then return (name, .one v.value)
    | none => pure ()
    match own with
    | .one (some text) => return (text, ← Parameter.named text)
    | .many texts _ => let text ← joined texts; return (text, ← Parameter.named text)
    | .one none => discard (name ++ ": invalid indirect expansion".toList)

def expansion : Nat → Reference → Operation → Bool → Run (List Atom)
  | 0, _, _, _ => throw .exhausted
  | n + 1, r, op, q => do
    if let .bad text := op then
      if (← shell).dialect = .posix then fail "Bad substitution".toList
      discard (text ++ ": bad substitution".toList)
    if let .names isJoined := op then return ← atomsOf (.many (← namesFrom r.name) isJoined) q
    let (name, got) ← reference n r
    let each (f : Octets → Octets) : Run (List Atom) := do
      present name got
      atomsOf (mapGot f got) q
    match op with
    | .value =>
      if name ≠ ['*'] ∧ name ≠ ['@'] then present name got
      atomsOf got q
    | .length =>
      match got with
      | .many texts _ => return Atom.ofValue q (decimal texts.length)
      | .one text =>
        present name got
        return Atom.ofValue q (decimal (text.getD []).length)
    | .keys isJoined =>
      let s ← shell
      let keys := match Shell.lookup? s (Shell.target s 8 name) with
        | some v => v.entries.map (·.1)
        | none => []
      atomsOf (.many keys isJoined) q
    | .names _ => return []
    | .fallback kind onEmpty w =>
      let given := match ← textOf? got with
        | some text => !(onEmpty && text.isEmpty)
        | none => false
      let instead : Run (List Atom) := do
        let w ← if q then pure w else tildes false w
        let as := (← w.mapM (part n)).flatten
        return if q then .mark :: as else as.map splittable
      match kind, given with
      | .alternative, true => instead
      | .alternative, false => return if q then [.mark] else []
      | _, true => atomsOf got q
      | .default, false => instead
      | .assign, false =>
        let text ← single n w
        match r.subscript with
        | some (.of key) => assignWithin 8 (name, some (← single n key)) false text
        | _ =>
          if !isName name then
            if ← Builtin.isBash then discard ('$' :: name ++ ": cannot assign in this way".toList)
            else fail (name ++ ": bad variable name".toList)
          assign name text
        return Atom.ofValue q text
      | .error, false =>
        let text ← single n w
        let usual := match ← Builtin.isBash, onEmpty with
          | true, true => "parameter null or not set"
          | false, true => "parameter not set or null"
          | _, false => "parameter not set"
        fail (name ++ ": ".toList ++ if text.isEmpty then usual.toList else text)
    | .strip atEnd longest w =>
      let gs ← glyphsOf n w
      let d := (← shell).dialect
      let rules ← rules
      match got with
      | .many texts isJoined =>
        if d = .posix ∧ (texts.isEmpty ∨ (isJoined ∧ q)) then each (stripMatch rules gs atEnd longest)
        else atomsOf (.many (stripAll d rules gs atEnd longest texts) isJoined) q
      | .one _ => each (stripMatch rules gs atEnd longest)
    | .replace which old new =>
      let old ← glyphsOf n old
      let new := glyphs (← (← tildes false new).mapM (part n)).flatten
      each (replaced (← rules) which old new)
    | .recase to_ every w => each (Parameter.recased (← rules) to_ every (← glyphsOf n w))
    | .slice offset length =>
      let start ← compute 8 (← single n offset)
      let length ← match length with
        | some w => do pure (some (← compute 8 (← single n w)))
        | none => pure none
      let s ← shell
      let wrong {α : Type} : Run α := do
        discard (integer (length.getD 0) ++ ": substring expression < 0".toList)
      match got with
      | .one text =>
        present name got
        match sliced (text.getD []) start length with
        | some text => return Atom.ofValue q text
        | none => wrong
      | .many texts isJoined =>
        if (length.getD 0) < 0 then wrong
        let chosen :=
          if name = ['@'] ∨ name = ['*'] then
            if start = 0 then (s.name :: texts).take ((length.getD (texts.length + 1)).toNat)
            else (sliced (s.name :: texts) start length).getD []
          else
            match Shell.lookup? s (Shell.target s 8 name) with
            | some v =>
              let from_ := if start < 0 then start + v.bound else start
              if from_ < 0 then []
              else
                let rest := match v.toItems with
                  | .indexed es => (es.filter fun e => from_ ≤ e.1).map (·.2)
                  | .keyed _ => texts.drop from_.toNat
                match length with
                | some k => rest.take k.toNat
                | none => rest
            | none => []
        atomsOf (.many chosen isJoined) q
    | .transform letter =>
      let got ← described name letter got
      atomsOf got q
    | .bad _ => return []

def word : Nat → (colons : Bool) → Word → Run (List Atom)
  | 0, _, _ => throw .exhausted
  | n + 1, colons, w => do return (← (← tildes colons w).mapM (part n)).flatten

def glyphsOf : Nat → Word → Run (List Glyph)
  | 0, _ => throw .exhausted
  | n + 1, w => return glyphs (← word n false w)

def single : Nat → Word → Run Octets
  | 0, _ => throw .exhausted
  | n + 1, w => return literal (← glyphsOf n w)

def valueOf : Nat → Word → Run Octets
  | 0, _ => throw .exhausted
  | n + 1, w => return literal (glyphs (← word n true w))

def fields : Nat → List Word → Run (List Octets)
  | 0, _ => throw .exhausted
  | n + 1, ws => do
    let ws := if ← hasOption 'B' then ws.flatMap Braces.expand else ws
    let mut all := []
    for w in ws do
      let gss := splitFields (← separators) (← word n false w)
      if ← hasOption 'f' then all := all ++ gss.map literal
      else
        let fs ← files
        let rules ← nameRules
        for gs in gss do
          let names := fileNames fs rules gs
          if isPattern rules.pattern gs ∧ (← hasSwitch "failglob") ∧ names = [literal gs] then
            discard ("no match: ".toList ++ literal gs)
          all := all ++ names
    return all

def arguments : Nat → List Word → Run (List Operand)
  | 0, _ => throw .exhausted
  | n + 1, ws => do
    let d := (← shell).dialect
    match ws with
    | first :: rest =>
      if Grammar.defines first ∧ (d = .bash ∨ first.any fun
          | .plain cs => String.ofList cs ∈ ["export", "readonly", "local"]
          | _ => false) then
        let operands ← rest.mapM fun w => do
          match w with
          | [.definition (.mk name _ appends (.items es))] =>
            return [Operand.items name appends (← members n es)]
          | w =>
            if isDefinition d w then return [.text (← valueOf n w)]
            else return (← fields n [w]).map .text
        return (← fields n [first]).map .text ++ operands.flatten
      else return (← fields n ws).map .text
    | [] => return []

def members : Nat → List Element → Run (List Member)
  | 0, _ => throw .exhausted
  | n + 1, es => do
    let all ← es.mapM fun
      | .mk none _ w => return (← fields n [w]).map fun text => (⟨none, false, text⟩ : Member)
      | .mk (some key) appends w => return [⟨some (← single n key), appends, ← single n w⟩]
    return all.flatten

def assignOne : Nat → Assignment → Run Unit
  | 0, _ => throw .exhausted
  | n + 1, .mk name key appends v => do
    match v with
    | .items es => assignItems name appends (← members n es)
    | .word w =>
      let text ← valueOf n w
      let key ← match key with
        | some k => do pure (some (← single n k))
        | none => pure none
      assignWithin 8 (name, key) appends text

def redirections : Nat → List Redirection → Run (Option Changes)
  | 0, _ => throw .exhausted
  | n + 1, rs => do
    let bash ← Builtin.isBash
    rs.foldlM (fun changes r => do
      match changes, r with
      | none, _ => return none
      | some changes, .mk fd .here target => redirect changes fd .here (← single n target)
      | some changes, .mk fd mode target =>
        if bash then
          match ← fields n [target] with
          | [text] => redirect changes fd mode text
          | _ =>
            let shown := target.flatMap fun
              | .plain cs | .quoted cs => cs
              | .expansion r _ _ => '$' :: r.name
              | _ => []
            complain (shown ++ ": ambiguous redirect".toList)
            return none
        else redirect changes fd mode (← single n target))
      (some [])

/-- A failed command that nobody tests ends the shell, if it is told so. -/
def checkExit : Nat → Bool → Run Unit
  | 0, _ => throw .exhausted
  | n + 1, tested => do
    let s ← shell
    if !tested ∧ s.status ≠ 0 then
      if let some action := s.traps.lookup 66 then
        if s.calls.isEmpty ∨ 'E' ∈ s.options then
          modifyShell fun s => { s with traps := s.traps.filter (·.1 ≠ 66) }
          text n true [] s.line action
          modifyShell fun now => { now with
            status := s.status
            traps := if (now.traps.lookup 66).isSome then now.traps else now.traps ++ [(66, action)] }
      if 'e' ∈ s.options then throw .exit

/-- `tested` says that the status is looked at, so that a failure does not end the shell. -/
def run : Nat → Bool → Command → Run Unit
  | 0, _, _ => throw .exhausted
  | n + 1, tested, c => do
    match c with
    | .simple line assigned ws rs =>
      modifyShell ({ · with line, substituted := 0 })
      if let some action := (← shell).traps.lookup 65 then
        let s ← shell
        if s.calls.isEmpty then
          modifyShell fun s => { s with traps := s.traps.filter (·.1 ≠ 65) }
          text n true [] line action
          modifyShell fun now => { now with status := s.status, line, traps := now.traps ++ [(65, action)] }
      let before := (← shell).fds
      simple n tested assigned ws rs
      tidy n before
      modifyShell fun s => { s with statuses := [s.status] }
      takeSignals n
      checkExit n tested
    | .pipeline true cs =>
      pipe n true cs
      setStatus (if (← shell).status = 0 then 1 else 0)
    | .pipeline false cs =>
      pipe n tested cs
      checkExit n tested
    | .both a b =>
      run n true a
      if (← shell).status = 0 then run n tested b
    | .either a b =>
      run n true a
      if (← shell).status ≠ 0 then run n tested b
    | .sequence cs => runAll n tested cs
    | .background text c =>
      let s ← shell
      let pid ← newPid
      let nothing ← addStream .null
      modify fun m =>
        let jobs := if s.dialect = .bash then m.jobs else m.jobs.filter fun j => !(j.noticed && j.result.isSome)
        let taken := (jobs.filter fun j => !j.noticed).map Job.number
        let number := if s.dialect = .bash then taken.foldl max 0 + 1
          else ((List.range (taken.length + 1)).find? fun k => !taken.contains (k + 1)).getD 0 + 1
        let shell := { s with fds := setFd 0 (some nothing) s.fds }
        { m with jobs := jobs ++ [({ pid, number, text, shell, body := c, started := m.clock } : Job)] }
      modifyShell ({ · with lastJob := some pid, status := 0 })
    | .subshell body =>
      setStatus (← apart n (run n tested body))
      modifyShell fun s => { s with statuses := [s.status] }
      checkExit n tested
    | .conditional test body otherwise =>
      run n true test
      if (← shell).status = 0 then run n tested body
      else
        match otherwise with
        | some c => run n tested c
        | none => setStatus 0
    | .loop until_ test body =>
      looping (repeating n tested until_ test body 0)
    | .each name ws body =>
      let before := (← shell).fds
      let texts ← match ws with
        | some ws => fields n ws
        | none => pure (← shell).args
      setStatus 0
      looping (eachOf n tested name texts body)
      tidy n before
    | .counted line first test next body =>
      modifyShell ({ · with line })
      setStatus 0
      if let some _ ← quietly n first then
        looping (counting n tested test next body)
    | .menu name ws body =>
      let texts ← match ws with
        | some ws => fields n ws
        | none => pure (← shell).args
      setStatus 0
      if !texts.isEmpty then looping (choosing n tested name texts body true)
    | .choice w arms =>
      let text ← single n w
      choose n tested text false arms
    | .function name body =>
      modifyShell fun s =>
        let source := match s.calls with
          | c :: _ => c.source
          | [] => if 'c' ∈ s.options then "environment".toList else if 's' ∈ s.options then "main".toList else s.name
        { s with functions := s.functions.filter (·.1 ≠ name) ++ [(name, ({ body, source } : Function))], status := 0 }
    | .arithmetic line w =>
      modifyShell ({ · with line })
      let value ← quietly n w
      setStatus (match value with
        | some k => if k = 0 then 1 else 0
        | none => 1)
      modifyShell fun s => { s with statuses := [s.status] }
      checkExit n tested
    | .condition line c =>
      modifyShell ({ · with line })
      setStatus (match ← condition n c with
        | some true => 0
        | some false => 1
        | none => 2)
      modifyShell fun s => { s with statuses := [s.status] }
      checkExit n tested
    | .redirected c rs =>
      let c := unredirected (← shell).dialect c
      let before := (← shell).fds
      match ← redirections n rs with
      | none =>
        setStatus (if (← shell).dialect = .bash then 1 else 2)
        checkExit n tested
      | some changes => withFds changes (run n tested c)
      tidy n before
where
  looping (body : Run Unit) : Run Unit :=
    restoring (fun before now => { now with loops := before.loops }) do
      modifyShell fun s => { s with loops := s.loops + 1 }
      body

def tidy : Nat → List (Nat × Nat) → Run Unit
  | 0, _ => throw .exhausted
  | n + 1, before => do
    if (← shell).fds.any fun e => e.1 ≥ 24 ∧ (before.lookup e.1).isNone then
      modifyShell fun s => { s with fds := s.fds.filter fun e => e.1 < 24 || (before.lookup e.1).isSome }
    match (← get).sinks with
    | [] => return
    | (handle, c) :: rest =>
      modify ({ · with sinks := rest })
      let _ ← withFds [(0, some handle)] (apart n (run n false c))
      tidy n before

def quietly : Nat → Word → Run (Option Int)
  | 0, _ => throw .exhausted
  | n + 1, w =>
    restoring (fun before now => { now with builtin := before.builtin }) do
      let text ← single n w
      modifyShell ({ · with builtin := "((".toList })
      try
        return some (← compute 8 text)
      catch
        | .discard => setStatus 1; return none
        | e => throw e

def condition : Nat → Condition → Run (Option Bool)
  | 0, _ => throw .exhausted
  | n + 1, c => do
    let scope ← Tool.Shared.testScope
    match c with
    | .word w => return some !(← single n w).isEmpty
    | .not c => return (← condition n c).map (!·)
    | .both a b =>
      match ← condition n a with
      | some true => condition n b
      | r => return r
    | .either a b =>
      match ← condition n a with
      | some false => condition n b
      | r => return r
    | .unary op w =>
      let text ← single n w
      return (Test.unary? scope op).map (· text)
    | .binary op a b =>
      let left ← single n a
      let folds ← hasSwitch "nocasematch"
      match String.ofList op with
      | "=" | "==" | "!=" =>
        let gs ← glyphsOf n b
        let matched := isMatch { caret := true, groups := true, folds } gs left
        return some (matched != (String.ofList op == "!="))
      | "=~" =>
        let pattern := regexText (← glyphsOf n b)
        match Regex.parse true pattern with
        | .error _ => return none
        | .ok r =>
          let t := left.toArray
          match (if folds then r.folded else r).find? t 0 with
          | some m =>
            let texts := (List.range (r.groups + 1)).map fun k => (m.group? t k).getD []
            putVariable "BASH_REMATCH".toList (ofTexts texts)
            return some true
          | none =>
            putVariable "BASH_REMATCH".toList (ofTexts [])
            return some false
      | "<" => return some (decide (left < (← single n b)))
      | ">" => return some (decide ((← single n b) < left))
      | "-nt" | "-ot" | "-ef" =>
        let right ← single n b
        match Test.binary? scope op with
        | some holds => return (holds left right).toOption
        | none => return none
      | name =>
        let right ← single n b
        let outer := (← shell).builtin
        modifyShell ({ · with builtin := "[[".toList })
        let values ← try
            pure (some (← compute 8 left, ← compute 8 right))
          catch
            | .discard => pure none
            | e => throw e
        modifyShell ({ · with builtin := outer })
        match values with
        | none => return some false
        | some (x, y) =>
          return match name with
            | "-eq" => some (x == y)
            | "-ne" => some (x != y)
            | "-lt" => some (decide (x < y))
            | "-le" => some (decide (x ≤ y))
            | "-gt" => some (decide (x > y))
            | "-ge" => some (decide (x ≥ y))
            | _ => none

def runAll : Nat → Bool → List Command → Run Unit
  | 0, _, _ => throw .exhausted
  | n + 1, tested, cs => cs.forM (run n tested)

def turn : Nat → Run Unit → Run Bool
  | 0, _ => throw .exhausted
  | _ + 1, body => do
    try
      body
      return true
    catch
      | .leave (k + 2) => throw (.leave (k + 1))
      | .leave _ => return false
      | .again (k + 2) => throw (.again (k + 1))
      | .again _ => return true
      | e => throw e

def repeating : Nat → Bool → Bool → Command → Command → Int → Run Unit
  | 0, _, _, _, _, _ => throw .exhausted
  | n + 1, tested, until_, test, body, last => do
    let further ← turn n (run n true test)
    if further ∧ ((← shell).status = 0) ≠ (until_ = true) then
      if ← turn n (run n tested body) then
        repeating n tested until_ test body (← shell).status
    else if further then setStatus last

def eachOf : Nat → Bool → Octets → List Octets → Command → Run Unit
  | 0, _, _, _, _ => throw .exhausted
  | _ + 1, _, _, [], _ => return
  | n + 1, tested, name, text :: rest, body => do
    let s ← shell
    match s.vars.lookup name with
    | some v => if v.reference then putVariable name { v with value := some text } else assign name text
    | none => assign name text
    if ← turn n (run n tested body) then eachOf n tested name rest body

def counting : Nat → Bool → Word → Word → Command → Run Unit
  | 0, _, _, _, _ => throw .exhausted
  | n + 1, tested, test, next, body => do
    let holds ← if test.isEmpty then pure (some 1) else quietly n test
    match holds with
    | none => setStatus 1
    | some 0 => return
    | some _ =>
      if ← turn n (run n tested body) then
        if let some _ ← quietly n next then counting n tested test next body

def choosing : Nat → Bool → Octets → List Octets → Command → (shows : Bool) → Run Unit
  | 0, _, _, _, _, _ => throw .exhausted
  | n + 1, tested, name, texts, body, shows => do
    if shows then
      let _ ← write 2 (menuText texts)
    let _ ← write 2 ((← value? "PS3".toList).getD "#? ".toList)
    let (line, ended) ← readPortion 0 (some '\n') none
    if !ended ∧ line.isEmpty then
      let _ ← write 1 ['\n']
      setStatus 1
    else
      let line := Arithmetic.trimmed line
      if line.isEmpty then choosing n tested name texts body true
      else
        assign "REPLY".toList line
        assign name (((Builtin.number? line).bind fun k => if k = 0 then none else texts[k - 1]?).getD [])
        if ← turn n (run n tested body) then choosing n tested name texts body false

def choose : Nat → Bool → Octets → (entered : Bool) → List Arm → Run Unit
  | 0, _, _, _, _ => throw .exhausted
  | _ + 1, _, _, entered, [] => if entered then return else setStatus 0
  | n + 1, tested, text, entered, .mk patterns body ending :: rest => do
    let folds ← hasSwitch "nocasematch"
    let rules := { ← rules with folds }
    let matched ← if entered then pure true else patterns.anyM fun w => return isMatch rules (← glyphsOf n w) text
    if matched then
      setStatus 0
      run n tested body
      match ending with
      | .stop => return
      | .fallThrough => if rest.isEmpty then return else choose n tested text true rest
      | .matchOn =>
        let status := (← shell).status
        choose n tested text false rest
        if (← shell).status = 0 then setStatus status
    else choose n tested text false rest

def pipe : Nat → Bool → List Command → Run Unit
  | 0, _, _ => throw .exhausted
  | n + 1, tested, cs => do
    match cs with
    | [c] => run n tested c
    | cs =>
      let statuses ← piped n tested [] cs
      modifyShell ({ · with statuses })
      if ← hasSwitch "pipefail" then
        setStatus (((statuses.reverse).find? (· ≠ 0)).getD 0)

def piped : Nat → Bool → Changes → List Command → Run (List Int)
  | 0, _, _, _ => throw .exhausted
  | _ + 1, _, _, [] => return []
  | n + 1, tested, input, c :: rest => do
    if rest.isEmpty then
      if ← hasSwitch "lastpipe" then withFds input (run n tested c)
      else setStatus (← withFds input (apart n (run n tested c)))
      return [(← shell).status]
    else
      let handle ← addStream (.pipe [] [])
      let status ←
        try withFds (input ++ [(1, some handle)]) (apart (min n patience) (run (min n patience) tested c))
        catch
          | .exhausted => pure 141
          | e => throw e
      return status :: (← piped n tested [(0, some handle)] rest)

def simple : Nat → Bool → List Assignment → List Word → List Redirection → Run Unit
  | 0, _, _, _, _ => throw .exhausted
  | n + 1, tested, assigned, ws, rs => do
    let operands ← arguments n ws
    let words := operands.map fun
      | .text t => t
      | .items name _ _ => name
    let changes ← redirections n rs
    let bash ← Builtin.isBash
    match words, changes with
    | [], none => setStatus (if bash then 1 else 2)
    | [], some changes =>
      withFds changes do
        for a in assigned do
          assignOne n a
          if ← hasOption 'x' then
            if let .mk name none _ (.word _) := a then
              let text ← value? name
              trace [name ++ '=' :: text.getD []]
      setStatus (← shell).substituted
    | name :: _, none =>
      setStatus (if bash then 1 else 2)
      if Builtin.isSpecial .posix (String.ofList name) ∧ !bash then throw .exit
    | name :: args, some changes =>
      let values ← assigned.filterMapM fun
        | .mk name none appends (.word w) => do
          let text ← valueOf n w
          let old ← value? name
          return some (name, if appends then old.getD [] ++ text else text)
        | _ => return none
      if ← hasOption 'x' then
        let shown := values.map fun (name, text) => name ++ '=' :: text
        if bash then
          for v in shown do trace [v]
          trace words
        else trace (shown ++ words)
      if name = "exec".toList ∧ args.isEmpty then
        for (name, text) in values do assign name text
        modifyShell fun s => { s with
          fds := changes.foldl (fun fds (fd, handle) => setFd fd handle fds) s.fds, status := 0 }
      else withFds changes (invoke n tested values name operands.tail args)
      if bash then
        let last := words.getLast?.getD []
        putVariable ['_'] { value := some last }

/-- Run a command by its name: what is special about shells, then functions, then what is built
in, then programs. -/
def invoke : Nat → Bool → List (Octets × Octets) → Octets → List Operand → List Octets → Run Unit
  | 0, _, _, _, _, _ => throw .exhausted
  | n + 1, tested, values, name, operands, args => do
    let s ← shell
    if s.dialect = .posix ∧ Builtin.isSpecial .posix (String.ofList name) then
      for (name, text) in values do assign name text
      named n tested name operands args
    else
      match s.functions.lookup name with
      | some f => withVariables values (call n tested name f args)
      | none =>
        if isBuiltin s.dialect name then withVariables values (named n tested name operands args)
        else program n values name args

def call : Nat → Bool → Octets → Function → List Octets → Run Unit
  | 0, _, _, _, _ => throw .exhausted
  | n + 1, tested, name, f, args => do
    restoring leaveFunction do
      modifyShell fun s => { s with
        args, loops := 0, locals := [] :: s.locals, calls := ⟨name, f.source, s.line⟩ :: s.calls }
      try run n tested f.body
      catch
        | .return_ => pure ()
        | e => throw e
      if let some action := (← shell).traps.lookup 67 then
        if 'T' ∈ (← shell).options then
          let status := (← shell).status
          text n true [] (← shell).line action
          setStatus status

def named : Nat → Bool → Octets → List Operand → List Octets → Run Unit
  | 0, _, _, _, _ => throw .exhausted
  | n + 1, tested, name, operands, args =>
    restoring (fun before now => { now with builtin := before.builtin }) do
      let d := (← shell).dialect
      modifyShell ({ · with builtin := name })
      if String.ofList name ∈ evaluating d then builtin n tested name args
      else if d = .posix ∧ Builtin.isSpecial d (String.ofList name) then plain d name operands args
      else
        try plain d name operands args
        catch
          | .exit => return
          | .discard => if d = .bash then setStatus 1 else throw .discard
          | e => throw e
where
  plain (d : Dialect) (name : Octets) (operands : List Operand) (args : List Octets) : Run Unit := do
    match Builtin.defining? d (String.ofList name), Builtin.find? d (String.ofList name) with
    | some act, _ => setStatus (← act operands)
    | none, some act => setStatus (← act args)
    | none, none => setStatus 0

def builtin : Nat → Bool → Octets → List Octets → Run Unit
  | 0, _, _, _ => throw .exhausted
  | n + 1, tested, name, args => do
    let s ← shell
    let bash := s.dialect = .bash
    if bash ∧ String.ofList name ∈ ["eval", ".", "source", "command", "builtin", "exec"] then
      modifyShell ({ · with builtin := [] })
    match String.ofList name, args with
    | "exit", _ =>
      if bash ∧ args.length > 1 then
        complain "too many arguments".toList
        setStatus 1
      else
        statusOf args
        throw .exit
    | "return", _ =>
      if bash ∧ s.calls.isEmpty then
        complain "can only \x60return' from a function or sourced script".toList
        setStatus 2
      else
        statusOf args
        throw .return_
    | "break", _ =>
      let k ← loopCount "break" args
      if k > 0 ∧ (← shell).status = s.status then setStatus 0
      if !bash ∨ s.loops = 0 then setStatus 0
      if k > 0 then throw (.leave k)
    | "continue", _ =>
      let k ← loopCount "continue" args
      setStatus 0
      if k > 0 then throw (.again k)
    | "eval", _ =>
      let args := if args.head? = some ['-', '-'] then args.tail else args
      text n tested "eval".toList (if bash then s.line else 1) (Format.spaced args)
    | "exec", ['-', 'a'] :: _ :: name :: args | "exec", ['-', 'c'] :: name :: args | "exec", name :: args =>
      program n [] name args
      throw .exit
    | "exec", [] => setStatus 0
    | ".", file :: args | "source", file :: args => sourced n tested file args
    | ".", [] | "source", [] => setStatus 2
    | "wait", _ => waitFor n args
    | "jobs", _ => listJobs n args
    | "type", _ => setStatus (← typeOf args)
    | "command", ['-', 'v'] :: rest =>
      let statuses ← (if bash then rest else rest.take 1).mapM whereabouts
      setStatus (if bash then (if statuses.any (· = 0) then 0 else 1) else statuses.head?.getD 0)
    | "command", ['-', 'V'] :: rest =>
      modifyShell ({ · with builtin := "command".toList })
      let statuses ← (if bash then rest else rest.take 1).mapM describe
      setStatus ((statuses.find? (· ≠ 0)).getD 0)
    | "command", ['-', 'p'] :: name :: rest | "command", ['-', '-'] :: name :: rest | "command", name :: rest
    | "builtin", name :: rest =>
      if isBuiltin s.dialect name then named n tested name (rest.map .text) rest
      else if String.ofList (s.builtin) = "builtin" then
        complain (name ++ ": not a shell builtin".toList)
        setStatus 1
      else
        modifyShell ({ · with builtin := [] })
        program n [] name rest
    | _, _ => setStatus 0

def sourced : Nat → Bool → Octets → List Octets → Run Unit
  | 0, _, _, _ => throw .exhausted
  | n + 1, tested, file, args => do
    let fs ← files
    let s ← shell
    let bash := s.dialect = .bash
    let dirs := Text.split (· == ':') (← value "PATH") ++ if bash then [['.']] else []
    let content : Except Fault Octets ←
      if '/' ∈ file then readNamed file
      else
        let tried := dirs.map fun dir => fs.read (Test.pathOf (dir ++ '/' :: file))
        pure (((tried.find? Except.isOk).getD (.error .absent)).map ofBytes)
    match content with
    | .error e =>
      if bash then
        complain (file ++ ": ".toList ++ e.text.toList)
        setStatus 1
      else
        complain ("cannot open ".toList ++ file ++ ": ".toList ++
          if e = .absent then "No such file".toList else e.text.toList)
        setStatus 2
        throw .exit
    | .ok content =>
      restoring
        (fun before now => { now with
          calls := before.calls, args := if args.isEmpty ∨ !bash then now.args else before.args })
        do
          modifyShell fun s => { s with
            calls := ⟨"source".toList, file, s.line⟩ :: s.calls, args := if args.isEmpty ∨ !bash then s.args else args }
          try text n tested [] 1 (content)
          catch
            | .return_ => return
            | e => throw e

def text : Nat → Bool → (place : Octets) → (line : Nat) → Octets → Run Unit
  | 0, _, _, _, _ => throw .exhausted
  | n + 1, tested, place, line, source => do
    let r := Shell.reader (← shell) (source ++ ['\n']) line true
    if Grammar.isSpent r then setStatus 0 else units n tested place r

def units : Nat → Bool → (place : Octets) → Reader → Run Unit
  | 0, _, _, _ => throw .exhausted
  | n + 1, tested, place, r => do
    if Grammar.isSpent r then return
    let s ← shell
    let fresh := Shell.reader s [] 1 true
    let r := { r with groups := fresh.groups, aliases := fresh.aliases }
    match Grammar.unit r with
    | .error t =>
      Invocation.complainTrouble place r.rest r.line t
      setStatus 2
      if s.dialect = .bash ∧ place = "eval".toList then return
      throw .exit
    | .ok (cs, rest) =>
      if !(← hasOption 'n') then
        try runAll n tested cs
        catch
          | .discard => if (← shell).level > 0 then throw .discard
          | e => throw e
      units n tested place rest

def typedUnits : Nat → Nat → Nat → Run Unit
  | 0, _, _ => throw .exhausted
  | n + 1, handle, line => do
    match (← get).streams[handle]? with
    | some (.typed rest) =>
      match Grammar.unit (Shell.reader (← shell) rest line false) with
      | .error (.incomplete _) => throw .blocked
      | .error t =>
        Invocation.complainTrouble [] rest line t
        setStatus 2
        throw .exit
      | .ok (cs, r) =>
        setStream handle (.typed r.rest)
        try runAll n false cs
        catch
          | .discard => pure ()
          | e => throw e
        typedUnits n handle r.line
    | _ => return

def ending : Nat → Run Unit → Run Unit
  | 0, _ => throw .exhausted
  | n + 1, body => do
    try body
    catch
      | .blocked => throw .blocked
      | .exhausted => throw .exhausted
      | .killed pid signal => throw (.killed pid signal)
      | _ => pure ()
    let s ← shell
    if let some action := s.traps.lookup 0 then
      modifyShell ({ · with traps := s.traps.filter (·.1 ≠ 0) })
      text n false [] 1 action
      setStatus s.status

def apart : Nat → Run Unit → Run Int
  | 0, _ => throw .exhausted
  | n + 1, body => do
    let s ← shell
    let since := (← get).nextPid
    let kept := s.traps.filter fun t => t.2.isEmpty || (t.1 ≥ 65 && 'E' ∈ s.options)
    let status ← inside { s with traps := kept, level := s.level + 1 } (ending n body)
    leave n since
    return status

/-- Run a job from its start. If it is not done by the limit, all that has happened is that what it
writes to pipes until then is there. -/
def runJob : Nat → Job → Option Nat → Run Bool
  | 0, _, _ => throw .exhausted
  | n + 1, job, limit => do
    let before ← get
    let stop := match job.told, limit with
      | some (time, signal), some l => some (if time ≤ l then (time, job.pid, signal) else (l, job.pid, 0))
      | some (time, signal), none => some (time, job.pid, signal)
      | none, some l => some (l, job.pid, 0)
      | none, none => none
    let record (f : Job → Job) : Run Unit :=
      modify fun m => { m with jobs := m.jobs.map fun j => if j.pid = job.pid then f j else j }
    record ({ · with result := some 0 })
    modify fun m => { m with clock := job.started, deadline := stop }
    let child := { job.shell with traps := [], level := job.shell.level + 1 }
    let result : Option Int ← try some <$> inside child (jobBody n job)
      catch
        | .killed pid signal =>
          if pid ≠ job.pid then throw (.killed pid signal)
          pure (if signal = 0 then none else some (128 + signal))
        | .exhausted => pure (job.told.map fun t => 128 + (t.2 : Int))
        | e => throw e
    let after ← get
    match result with
    | none =>
      set { before with streams := withAdded before.streams after.streams job.printed }
      record ({ · with printed := amounts before.streams after.streams })
      return false
    | some status =>
      record fun j => { j with result := some status, ended := after.clock }
      modify fun m => { m with clock := before.clock, deadline := before.deadline }
      if !job.printed.isEmpty then
        let kept := withAdded before.streams after.streams job.printed
        modify fun m => { m with streams := kept ++ m.streams.extract kept.size m.streams.size }
      return true

def jobBody : Nat → Job → Run Unit
  | 0, _ => throw .exhausted
  | n + 1, job => do
    let body := match job.body with
      | .subshell b => b
      | c => c
    try ending n (run n false body)
    catch
      | .killed pid signal =>
        match (← shell).traps.lookup signal with
        | some action =>
          if pid ≠ job.pid ∨ signal = 0 then throw (.killed pid signal)
          ending n (text n false [] 1 action)
        | none => throw (.killed pid signal)
      | e => throw e

def runNext : Nat → Option Nat → Nat → Run Bool
  | 0, _, _ => throw .exhausted
  | n + 1, limit, since => do
    let waiting := (← get).jobs.filter fun j => j.result.isNone ∧ j.pid ≥ since
    match waiting with
    | [] => return false
    | [job] => runJob n job limit
    | jobs =>
      let ends ← jobs.mapM fun job => do
        let before ← get
        let done ← runJob n job limit
        let ended := (((← get).jobs.find? fun j => j.pid = job.pid).map Job.ended).getD 0
        set before
        return if done then some (ended, job) else none
      let first := (ends.filterMap id).foldl (fun best e =>
        match best with
        | none => some e
        | some b => if e.1 < b.1 then some e else some b) none
      match first with
      | some (_, job) => runJob n job limit
      | none => return false

def settle : Nat → Option Nat → Nat → Run Unit
  | 0, _, _ => throw .exhausted
  | n + 1, limit, since => do
    if ← runNext n limit since then settle n limit since
    else if limit.isSome then
      let waiting := (← get).jobs.filter fun j => j.result.isNone ∧ j.pid ≥ since
      if waiting.length > 1 then
        for job in waiting do
          let _ ← runJob n job limit

/-- Jobs that are left behind run, unless they go on for long. -/
def leave : Nat → Nat → Run Unit
  | 0, _ => throw .exhausted
  | n + 1, since => do settle n (some ((← get).clock + 600000)) since

def await : Nat → Nat → Run Unit
  | 0, _ => throw .exhausted
  | n + 1, pid => do
    match (← get).jobs.find? fun j => j.pid = pid with
    | none => return
    | some job =>
      if job.result.isSome then modify fun m => { m with clock := max m.clock job.ended }
      else if ← runNext n none 0 then await n pid

def waitFor : Nat → List Octets → Run Unit
  | 0, _ => throw .exhausted
  | n + 1, args => do
    let next := args.contains ['-', 'n']
    let args := args.filter fun a => a ≠ ['-', 'n'] ∧ a ≠ ['-', 'f']
    let bash ← Builtin.isBash
    for a in args do
      if a.head? ≠ some '%' ∧ (Builtin.number? a).isNone then
        if bash then complain ('\x60' :: a ++ "': not a pid or valid job spec".toList)
        else complain ("Illegal number: ".toList ++ a)
        setStatus (if bash then 1 else 2)
        return
    match args.getLast? with
    | none =>
      if next then
        let _ ← runNext n none 0
        let done := ((← get).jobs.filter fun j => j.result.isSome ∧ !j.noticed).foldl (fun (best : Option Job) j =>
          match best with
          | none => some j
          | some b => if j.ended < b.ended then some j else some b) none
        match done with
        | some job =>
          modify fun m => { m with clock := max m.clock job.ended, jobs := noticing (· = job.pid) m.jobs }
          setStatus (job.result.getD 0)
        | none => setStatus 127
      else
        settle n none 0
        modify fun m => { m with
          clock := (m.jobs.map Job.ended).foldl max m.clock, jobs := noticing (fun _ => true) m.jobs }
        setStatus 0
    | some a =>
      let job? (jobs : List Job) : Option Job := match a with
        | '%' :: name => Builtin.jobNamed? jobs name
        | _ => (Builtin.number? a).bind fun pid => jobs.find? (·.pid = pid)
      match job? (← get).jobs with
      | none =>
        if bash then
          complain (if a.head? = some '%' then a ++ ": no such job".toList
            else "pid ".toList ++ a ++ " is not a child of this shell".toList)
          setStatus 127
        else if a.head? = some '%' then
          complain ("No such job: ".toList ++ a)
          setStatus 2
        else setStatus 127
      | some job =>
        await n job.pid
        let job := (job? (← get).jobs).getD job
        modify fun m => { m with jobs := noticing (· = job.pid) m.jobs }
        let status := job.result.getD 0
        if !bash then
          match [(143, "Terminated"), (137, "Killed"), (129, "Hangup"), (134, "Aborted"), (131, "Quit")].lookup status with
          | some word =>
            if job.told.isSome ∧ !job.noticed then
              discard <| write 2 (word.toList ++ ['\n'])
          | none => pure ()
        setStatus status

def listJobs : Nat → List Octets → Run Unit
  | 0, _ => throw .exhausted
  | n + 1, args => do
    let now := (← get).clock
    settle n (some (now - 1)) 0
    let bash ← Builtin.isBash
    let jobs := (← get).jobs
    let named := args.filter fun a => a.head? = some '%'
    match named.find? fun a => (Builtin.jobNamed? jobs a.tail).isNone with
    | some a =>
      complain (if bash then a ++ ": no such job".toList else "No such job: ".toList ++ a)
      setStatus (if bash then 1 else 2)
    | none =>
      let shown := if bash then jobs.filter fun j => !j.noticed else jobs
      let wanted := if named.isEmpty then shown else named.filterMap fun a => Builtin.jobNamed? jobs a.tail
      let wanted := if bash then wanted else wanted.reverse
      if args.contains ['-', 'p'] then print (wanted.flatMap fun j => decimal j.pid ++ ['\n'])
      else
        for j in wanted do
          let held := (← get).jobs
          let all := if bash then shown else held
          let isAt (k : Nat) : Bool := (all.reverse[k]?).any fun i => i.pid = j.pid
          print (jobLine bash j (if isAt 0 then '+' else if isAt 1 then '-' else ' '))
          if j.result.isSome then
            let kept (all : List Job) : List Job :=
              if bash then noticing (· = j.pid) all else all.filter fun i => i.pid ≠ j.pid
            modify fun m => { m with jobs := kept m.jobs }
      setStatus 0

def takeSignals : Nat → Run Unit
  | 0 => throw .exhausted
  | n + 1 => do
    match (← get).signals with
    | [] => return
    | signal :: rest =>
      modify ({ · with signals := rest })
      let s ← shell
      text n true [] 1 ((s.traps.lookup signal).getD [])
      setStatus s.status
      takeSignals n

def program : Nat → List (Octets × Octets) → Octets → List Octets → Run Unit
  | 0, _, _, _ => throw .exhausted
  | n + 1, values, name, args => do
    let fs ← files
    let s ← shell
    let search := (values.lookup "PATH".toList).getD (← value "PATH")
    match Program.locate fs search name with
    | .error e =>
      complainProgram name e
      setStatus (if '/' ∈ name then unrunnable e else 127)
    | .ok path =>
      let marked := values.map fun (name, text) => (name, ({ value := some text, exported := true } : Variable))
      let marked := marked ++ if s.dialect = .bash then
          [(['_'], ({ value := some path, exported := true } : Variable))] else []
      let vars := s.vars.filter (fun v => (marked.lookup v.1).isNone) ++ marked
      match ← launch n path (name :: args) (environment s.dialect vars) with
      | .ok status => setStatus status
      | .error e =>
        complainProgram name e
        setStatus (unrunnable e)

def launch : Nat → Octets → List Octets → List (Octets × Variable) → Run (Except Fault Int)
  | 0, _, _, _ => throw .exhausted
  | n + 1, path, argv, vars => do
    match Program.atPath (← files) path with
    | .error e => return .error e
    | .ok content =>
      match Program.form content with
      | .image name => return .ok (← image n name argv vars)
      | .script interpreter argument =>
        launch n interpreter (interpreter :: argument.toList ++ path :: argv.tail) vars
      | .text =>
        let child ← newShell (← shell).dialect path argv.tail vars
        return .ok (← own n child (text n false [] 1 content))

def image : Nat → String → List Octets → List (Octets × Variable) → Run Int
  | 0, _, _, _ => throw .exhausted
  | n + 1, name, argv, vars => do
    if Program.isShell name then interpreter n (Program.dialect name) argv vars
    else
      let run (vars : List (Octets × Variable)) (argv : List Octets) : Run (Except Fault Int) := do
        let search := ((vars.lookup "PATH".toList).bind (·.value)).getD "/bin:/usr/bin".toList
        match Program.locate (← files) search (argv.headD []) with
        | .ok path => launch n path argv vars
        | .error e => return .error e
      let child ← newShell .posix (argv.head?.getD []) argv.tail vars
      if name = "sleep" then
        let time := ((argv.tail.filterMap Tool.Files.milliseconds).foldl (· + ·) 0)
        settle n (some ((← get).clock + time - 1)) 0
      match (Launcher.table ++ Finder.table ++ Awk.table).lookup name, Tool.find? name with
      | some act, _ => inside child (do setStatus (← act { vars, run } argv.tail))
      | none, some act => inside child (do setStatus (← act argv.tail))
      | none, none =>
        if name = "kill" then inside child (do setStatus (← Builtin.kill argv.tail)) else return 127

def interpreter : Nat → Dialect → List Octets → List (Octets × Variable) → Run Int
  | 0, _, _, _ => throw .exhausted
  | n + 1, dialect, argv, vars => do
    let call := Invocation.ofWords argv
    let child ← newShell dialect call.name call.args vars
    let child := Invocation.configure call child
    match call.source with
    | .missing =>
      let _ ← write 2 (if dialect = .bash then call.name ++ ": -c: option requires an argument\n".toList
        else call.name ++ ": 0: -c requires an argument\n".toList)
      return 2
    | .given source => own n child (text n false "-c".toList 1 source)
    | .input =>
      match ← stream? 0 with
      | some (handle, .typed _) => own n child (typedUnits n handle 1)
      | _ => own n child (do text n false [] 1 (← readAll 0))
    | .file name =>
      match ← readNamed name with
      | .ok content => own n child (text n false [] 1 content)
      | .error e =>
        let self := argv.head?.getD []
        let _ ← write 2 (if dialect = .bash then self ++ ": ".toList ++ name ++ ": ".toList ++ e.text.toList ++ ['\n']
          else self ++ ": 0: cannot open ".toList ++ name ++ ": ".toList ++
            (if e = .absent then "No such file".toList else e.text.toList) ++ ['\n'])
        return if dialect = .bash then 127 else 2

def own : Nat → Shell → Run Unit → Run Int
  | 0, _, _ => throw .exhausted
  | n + 1, child, body => do
    let since := (← get).nextPid
    let status ← inside child (ending n body)
    leave n since
    return status

end

end Eval

end CMakeHelm.Sh
