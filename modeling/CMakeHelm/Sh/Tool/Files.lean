import CMakeHelm.Sh.Tool.Calendar

namespace CMakeHelm.Sh.Tool.Files

open Run

def namesIn (fs : FileSystem) (l : Location) : List Octets :=
  (fs.names l).mergeSort inOrder

def agrees (tool : String) (question : Octets) : Run Bool := do
  let _ ← write 2 ((← titleOf tool) ++ ": ".toList ++ question ++ ['?', ' '])
  let (answer, _) ← readPortion 0 (some '\n') none
  return answer.head?.any fun c => c = 'y' ∨ c = 'Y'

def mkdir (args : List Octets) : Run Int := do
  let r := request ['m'] [("parents", 'p'), ("mode", 'm'), ("verbose", 'v')] args
  if ← unknown? "mkdir" r "pmvZ" then return 1
  if r.named.isEmpty then
    misuse "mkdir" "missing operand".toList
    return 1
  let mask := (← shell).mask
  let mode? := (r.value? 'm').map fun text => Mode.change? mask true 511 text
  if mode? = some none then
    grumble "mkdir" ("invalid mode ".toList ++ inQuotes ((r.value? 'm').getD []))
    return 1
  let make (f : Octets) (l : Location) (isLast : Bool) : Run Unit := do
    setFiles ((← files).put l .directory)
    stamp l
    if let some (some mode) := mode? then
      if isLast then modify fun m => { m with modes := (l, mode) :: m.modes.filter (·.1 ≠ l) }
    if r.has 'v' then print ((← titleOf "mkdir") ++ ": created directory ".toList ++ inQuotes f ++ ['\n'])
  forEach r.named fun f => do
    if r.has 'p' then
      let pieces := Text.split (· == '/') f
      let fronts := (List.range pieces.length).map fun k => Text.join '/' (pieces.take (k + 1))
      let fronts := fronts.filter fun p => !p.isEmpty ∧ p.getLast? ≠ some '/'
      for p in fronts do
        let fs ← files
        match fs.find true (Test.pathOf p) with
        | .ok (.free l) => make p l (p = fronts.getLastD [])
        | .ok (.entry _ .directory) => pure ()
        | .ok (.entry _ _) =>
          failing "mkdir" "cannot create directory" p (if p = fronts.getLastD [] then .exists else .notDirectory)
          return false
        | .error e =>
          failing "mkdir" "cannot create directory" p e
          return false
      return true
    match (← files).find true (Test.pathOf f) with
    | .ok (.free l) =>
      make f l true
      return true
    | .ok (.entry _ _) =>
      failing "mkdir" "cannot create directory" f .exists
      return false
    | .error e =>
      failing "mkdir" "cannot create directory" f e
      return false

def removeDirectory (r : Request) (f : Octets) : Run Bool := do
  let fs ← files
  let refuse (e : Fault) : Run Bool := do
    if e = .notEmpty ∧ r.has 'i' then return true
    failing "rmdir" "failed to remove" f e
    return false
  if r.has 'v' then print ((← titleOf "rmdir") ++ ": removing directory, ".toList ++ inQuotes f ++ ['\n'])
  match fs.find false (Test.pathOf f) with
  | .ok (.entry l .directory) =>
    if !(fs.names l).isEmpty then refuse .notEmpty
    else
      setFiles (fs.cutOff l)
      return true
  | .ok (.entry _ _) => refuse .notDirectory
  | .ok (.free _) => refuse .absent
  | .error e => refuse e

def rmdir (args : List Octets) : Run Int := do
  let r := request [] [("parents", 'p'), ("verbose", 'v'), ("ignore-fail-on-non-empty", 'i')] args
  if ← unknown? "rmdir" r "pvi" then return 1
  if r.named.isEmpty then
    misuse "rmdir" "missing operand".toList
    return 1
  forEach r.named fun f => do
    if r.has 'p' then
      let pieces := (Text.split (· == '/') f).filter (· ≠ [])
      let fronts := (List.range pieces.length).reverse.map fun k => Text.join '/' (pieces.take (k + 1))
      for p in fronts do
        if !(← removeDirectory r p) then return false
      return true
    removeDirectory r f

def remove (r : Request) : Nat → Octets → Run Bool
  | 0, _ => return false
  | n + 1, f => do
    let fs ← files
    let asks (what : String) : Run Bool := do
      if r.has 'i' ∧ !r.has 'f' then agrees "rm" (what.toList ++ ' ' :: inQuotes f) else return true
    let say (what : String) : Run Unit := do if r.has 'v' then print (what.toList ++ inQuotes f ++ ['\n'])
    match fs.find false (Test.pathOf f) with
    | .ok (.entry l .directory) =>
      let names := namesIn fs l
      if !(r.has 'r' ∨ r.has 'R' ∨ r.has 'd') then
        failing "rm" "cannot remove" f .isDirectory
        return false
      if lastName f ∈ [['.'], ['.', '.']] then
        grumble "rm" ("refusing to remove '.' or '..' directory: skipping ".toList ++ inQuotes f)
        return false
      if !names.isEmpty then
        if !(r.has 'r' ∨ r.has 'R') then
          failing "rm" "cannot remove" f .notEmpty
          return false
        if !(← asks "descend into directory") then return true
        let done ← names.mapM fun name =>
          remove r n (f ++ (if f.getLast? = some '/' then [] else ['/']) ++ name)
        if !done.all id then return false
      if !(← asks "remove directory") then return true
      let fs ← files
      if (fs.names l).isEmpty then
        setFiles (fs.cutOff l)
        say "removed directory "
      return true
    | .ok (.entry l e) =>
      let kind := match e with
        | .link _ => "remove symbolic link"
        | .file [] _ => "remove regular empty file"
        | _ => "remove regular file"
      if !(← asks kind) then return true
      setFiles (fs.cutOff l)
      say "removed "
      return true
    | .ok (.free _) | .error .absent =>
      if r.has 'f' then return true
      failing "rm" "cannot remove" f .absent
      return false
    | .error e =>
      if r.has 'f' ∧ e = .notDirectory then return true
      failing "rm" "cannot remove" f e
      return false

def rm (args : List Octets) : Run Int := do
  let r := request [] [("recursive", 'r'), ("force", 'f'), ("dir", 'd'), ("verbose", 'v'), ("interactive", 'i')] args
  if ← unknown? "rm" r "rRfdviI" then return 1
  if r.named.isEmpty then
    if r.has 'f' then return 0
    misuse "rm" "missing operand".toList
    return 1
  forEach r.named (remove r 200)

def milliseconds (text : Octets) : Option Nat :=
  let unit? := (text.getLast?).bind fun c => [('s', 1), ('m', 60), ('h', 3600), ('d', 86400)].lookup c
  let unit := unit?.getD 1
  let text := if unit?.isSome then text.dropLast else text
  let whole := text.takeWhile Char.isDigit
  match text.drop whole.length with
  | [] => (natural whole).map (· * 1000 * unit)
  | '.' :: rest =>
    if rest.all Char.isDigit ∧ !(whole.isEmpty ∧ rest.isEmpty) then
      let thousandths := ((rest ++ ['0', '0', '0']).take 3).foldl (fun n d => 10 * n + (d.toNat - 48)) 0
      some (((natural whole).getD 0 * 1000 + thousandths) * unit)
    else none
  | _ => none

def sleep (args : List Octets) : Run Int := do
  if args.isEmpty then
    misuse "sleep" "missing operand".toList
    return 1
  match args.find? fun a => (milliseconds a).isNone with
  | some a =>
    misuse "sleep" ("invalid time interval ".toList ++ inQuotes a)
    return 1
  | none =>
    let m ← get
    let wake := m.clock + (args.filterMap milliseconds).foldl (· + ·) 0
    match m.deadline with
    | some (time, pid, signal) =>
      if time < wake then
        set { m with clock := time, deadline := none }
        throw (.killed pid signal)
      set { m with clock := wake }
    | none => set { m with clock := wake }
    return 0

def stampOf? (text : Octets) : Option Nat :=
  let main := text.takeWhile (· ≠ '.')
  let two (k : Nat) : Option Nat := natural ((main.drop k).take 2)
  let year? := if main.length = 12 then natural (main.take 4) else if main.length = 10 then (two 0).map fun y =>
    if y < 69 then 2000 + y else 1900 + y else some 2023
  let start := main.length - 8
  let seconds := (natural (text.drop (main.length + 1))).getD 0
  if main.length ∉ [8, 10, 12] then none
  else do
    let year ← year?
    let month ← two start
    let day ← two (start + 2)
    let hour ← two (start + 4)
    let minute ← two (start + 6)
    let moment : Calendar.Moment := { year, month, day, seconds := hour * 3600 + minute * 60 + seconds }
    return (moment.stamp * 1000).toNat

def touch (args : List Octets) : Run Int := do
  let r := request ['t', 'd', 'r'] [("no-create", 'c'), ("date", 'd'), ("reference", 'r')] args
  if ← unknown? "touch" r "tdrcamfh" then return 1
  if r.named.isEmpty then
    misuse "touch" "missing file operand".toList
    return 1
  let fs ← files
  let m ← get
  let now := Calendar.ofStamp (m.clock / 1000 : Nat)
  let given : Option (Option Nat) := match r.value? 'r', r.value? 'd', r.value? 't' with
    | some f, _, _ => some (((fs.locate (Test.pathOf f)).toOption).map fun (l, _) => (m.stamps.lookup l).getD 0)
    | none, some text, _ => some ((Calendar.read? now text).map fun t => (t.stamp * 1000).toNat)
    | none, none, some text => some (stampOf? text)
    | none, none, none => none
  if given = some none then
    match r.value? 'r' with
    | some f => grumble "touch" ("failed to get attributes of ".toList ++ inQuotes f ++ ": No such file or directory".toList)
    | none => grumble "touch" ("invalid date format ".toList ++ inQuotes (((r.value? 'd').or (r.value? 't')).getD []))
    return 1
  forEach r.named fun f => do
    let fs ← files
    let mark (l : Location) : Run Unit := do
      stamp l
      if let some (some t) := given then
        modify fun m => { m with stamps := (l, t) :: m.stamps.filter (·.1 ≠ l) }
    match fs.find true (Test.pathOf f) with
    | .ok (.free l) =>
      if !r.has 'c' then
        setFiles (fs.put l (.file [] false))
        mark l
      return true
    | .ok (.entry l _) =>
      mark l
      return true
    | .error e =>
      if r.has 'c' ∧ e = .absent then return true
      failing "touch" "cannot touch" f e
      return false

/-- Where something goes: below a directory under its own name, or to the place itself. -/
def destination (fs : FileSystem) (source target : Octets) : Octets :=
  if fs.isDirectory (Test.pathOf target) then
    target ++ (if target.getLast? = some '/' then [] else ['/']) ++ lastName source
  else target

def transplant (fs : FileSystem) (source target : Location) : FileSystem :=
  (fs.entries.filter fun e => source.isPrefixOf e.1).foldl
    (fun fs e => fs.put (target ++ e.1.drop source.length) e.2) fs

def carried {α : Type} (source target : Location) (notes : List (Location × α)) : List (Location × α) :=
  (notes.filter fun e => source.isPrefixOf e.1).map fun e => (target ++ e.1.drop source.length, e.2)

def movesOf (tool : String) (r : Request) : Run (Option (List Octets × Octets × Bool)) := do
  let fs ← files
  let isDir (f : Octets) : Bool := fs.isDirectory (Test.pathOf f)
  match r.value? 't', r.named with
  | some target, [] =>
    let _ := target
    misuse tool "missing file operand".toList
    return none
  | some target, sources => return some (sources, target, true)
  | none, [] =>
    misuse tool "missing file operand".toList
    return none
  | none, [f] =>
    misuse tool ("missing destination file operand after ".toList ++ inQuotes f)
    return none
  | none, named =>
    let target := named.getLastD []
    let sources := named.dropLast
    if sources.length > 1 ∧ !isDir target then
      let e : Fault := if fs.exists? (Test.pathOf target) then .notDirectory else .absent
      grumble tool ("target ".toList ++ inQuotes target ++ ": ".toList ++ e.text.toList)
      return none
    return some (sources, target, !r.has 'T')

def mayReplace (tool : String) (r : Request) (origin goal : Location) (target : Octets) : Run Bool := do
  let fs ← files
  let m ← get
  if (fs.get? goal).isNone then return true
  if r.has 'n' then return false
  let time (l : Location) : Nat := (m.stamps.lookup l).getD 0
  if r.has 'u' ∧ time origin ≤ time goal then return false
  if r.has 'i' then agrees tool ("overwrite ".toList ++ inQuotes target) else return true

def copyOrMove (tool : String) (moves : Bool) (args : List Octets) : Run Int := do
  let r := request ['t', 'S'] [("recursive", 'r'), ("archive", 'a'), ("force", 'f'), ("no-clobber", 'n'), ("verbose", 'v'),
    ("update", 'u'), ("preserve", 'p'), ("target-directory", 't'), ("no-target-directory", 'T'), ("interactive", 'i'),
    ("no-dereference", 'P'), ("dereference", 'L'), ("parents", 'q')] args
  if ← unknown? tool r "rRafnvuptTiPLdHsxlbS" then return 1
  match ← movesOf tool r with
  | none => return 1
  | some (sources, target, below) =>
    let deep := r.has 'r' || r.has 'R' || r.has 'a'
    let follows := !moves && (r.has 'L' || !(deep || r.has 'P' || r.has 'd'))
    forEach sources fun f => do
      let fs ← files
      let goalName := if below then destination fs f target else target
      let refuse (message : Octets) : Run Bool := do
        grumble tool message
        return false
      let creating : Octets :=
        if moves then "cannot move ".toList ++ inQuotes f ++ " to ".toList ++ inQuotes goalName
        else "cannot create regular file ".toList ++ inQuotes goalName
      match fs.find follows (Test.pathOf f), fs.find (!moves) (Test.pathOf goalName) with
      | .ok (.free _), _ => refuse ("cannot stat ".toList ++ inQuotes f ++ ": No such file or directory".toList)
      | .error e, _ => refuse ("cannot stat ".toList ++ inQuotes f ++ ": ".toList ++ e.text.toList)
      | .ok (.entry origin e), found =>
        if e = .directory ∧ !moves ∧ !deep then
          refuse ("-r not specified; omitting directory ".toList ++ inQuotes f)
        else
          match found with
          | .error e => refuse (creating ++ ": ".toList ++ e.text.toList)
          | .ok found =>
            let (goal, there?) := match found with
              | .free l => (l, none)
              | .entry l e => (l, some e)
            if goal = origin then
              refuse (inQuotes f ++ " and ".toList ++ inQuotes goalName ++ " are the same file".toList)
            else if e = .directory ∧ origin.isPrefixOf goal then
              refuse (if moves then
                "cannot move ".toList ++ inQuotes f ++ " to a subdirectory of itself, ".toList ++ inQuotes goalName
                else "cannot copy a directory, ".toList ++ inQuotes f ++ ", into itself, ".toList ++ inQuotes goalName)
            else if there? = some .directory ∧ e ≠ .directory then
              refuse ("cannot overwrite directory ".toList ++ inQuotes goalName ++
                (if moves then " with non-directory" else " with non-directory ").toList ++ if moves then [] else inQuotes f)
            else if e = .directory ∧ there?.isSome ∧ there? ≠ some .directory then
              refuse ("cannot overwrite non-directory ".toList ++ inQuotes goalName ++ " with directory ".toList ++ inQuotes f)
            else if moves ∧ there? = some .directory ∧ !(fs.names goal).isEmpty then
              refuse ("cannot overwrite ".toList ++ inQuotes goalName ++ ": Directory not empty".toList)
            else if !(← mayReplace tool r origin goal goalName) then
              if moves ∧ r.has 'n' then grumble tool ("not replacing ".toList ++ inQuotes goalName)
              return !(r.has 'n')
            else
              let m ← get
              let fs' := match e, there? with
                | .file content _, some (.file _ executable) =>
                  if moves then fs.put goal e else fs.put goal (.file content executable)
                | _, _ => transplant fs origin goal
              let keeps := moves || r.has 'p' || r.has 'a'
              setFiles (if moves then fs'.cutOff origin else fs')
              modify fun now => { now with
                stamps := (if keeps then carried origin goal m.stamps
                  else carried origin goal (fs.entries.map fun e => (e.1, m.clock))) ++
                  now.stamps.filter fun e => !goal.isPrefixOf e.1
                modes := if keeps ∨ there?.isNone then carried origin goal m.modes ++
                  now.modes.filter fun e => !goal.isPrefixOf e.1 else now.modes }
              if r.has 'v' then
                print ((if moves then "renamed " else "").toList ++ inQuotes f ++ " -> ".toList ++ inQuotes goalName ++ ['\n'])
              return true

def ln (args : List Octets) : Run Int := do
  let r := request ['t', 'S'] [("symbolic", 's'), ("force", 'f'), ("verbose", 'v'), ("no-dereference", 'n'),
    ("target-directory", 't'), ("no-target-directory", 'T'), ("relative", 'r'), ("interactive", 'i')] args
  if ← unknown? "ln" r "sfvntTriLPb" then return 1
  if r.named.isEmpty then
    misuse "ln" "missing file operand".toList
    return 1
  let fs ← files
  let (sources, target) := match r.value? 't', r.named with
    | some target, named => (named, target)
    | none, [source] => ([source], ['.'])
    | none, named => (named.dropLast, named.getLastD [])
  if sources.length > 1 ∧ !fs.isDirectory (Test.pathOf target) then
    let e : Fault := if fs.exists? (Test.pathOf target) then .notDirectory else .absent
    grumble "ln" ("target ".toList ++ inQuotes target ++ ": ".toList ++ e.text.toList)
    return 1
  forEach sources fun source => do
    let fs ← files
    let isLink : Bool := match fs.find false (Test.pathOf target) with
      | .ok (.entry _ (.link _)) => true
      | _ => false
    let goal := if (r.has 'n' ∧ isLink) ∨ r.has 'T' then target else destination fs source target
    let refuse (message : Octets) : Run Bool := do
      grumble "ln" message
      return false
    let origin? : Except Fault (Location × Entry) := do
      match ← fs.find false (Test.pathOf source) with
      | .entry l e => .ok (l, e)
      | .free _ => .error .absent
    match r.has 's', origin? with
    | false, .error e => refuse ("failed to access ".toList ++ inQuotes source ++ ": ".toList ++ e.text.toList)
    | false, .ok (_, .directory) => refuse (source ++ ": hard link not allowed for directory".toList)
    | symbolic, origin? =>
      let goalPath := Test.pathOf goal
      let fs := if r.has 'f' ∧ !fs.isDirectory goalPath then fs.delete goalPath else
        if r.has 'f' ∧ r.has 'n' then fs.delete goalPath else fs
      let made : Except Fault FileSystem :=
        if symbolic then fs.makeLink goalPath (Test.pathOf source)
        else do
          let (_, e) ← origin?
          match ← fs.find false goalPath with
          | .free l => return fs.put l e
          | .entry _ _ => .error .exists
      match made with
      | .ok fs =>
        setFiles fs
        if let .ok (.entry l _) := fs.find false goalPath then
          match origin? with
          | .ok (origin, _) =>
            if !symbolic then
              modify fun m => { m with stamps := (l, (m.stamps.lookup origin).getD 0) :: m.stamps.filter (·.1 ≠ l) }
          | .error _ => pure ()
        if r.has 'v' then
          print (inQuotes goal ++ (if symbolic then " -> " else " => ").toList ++ inQuotes source ++ ['\n'])
        return true
      | .error e =>
        failing "ln" (if symbolic then "failed to create symbolic link" else "failed to create hard link") goal e
        return false

def below (fs : FileSystem) (l : Location) : List (Location × Entry) :=
  (fs.get? l).toList.map (l, ·) ++ fs.entries.filter fun e => l.isPrefixOf e.1 && e.1 != l

def chmod (args : List Octets) : Run Int := do
  let isMode (a : Octets) : Bool :=
    match a with
    | '-' :: rest => !rest.isEmpty && rest.all fun c => c ∈ ['r', 'w', 'x', 'X', 's', 't', ',', '+', '=']
    | _ => false
  let (options, operands) := args.partition fun a => a.head? = some '-' && a.length > 1 && !isMode a
  let r := request ['r'] [("recursive", 'R'), ("verbose", 'v'), ("changes", 'c'), ("quiet", 'f'), ("silent", 'f'),
    ("reference", 'r')] (options.filter (· ≠ ['-', '-']))
  if ← unknown? "chmod" r "Rvcfr" then return 1
  let fs ← files
  let mask := (← shell).mask
  match operands with
  | [] =>
    misuse "chmod" "missing operand".toList
    return 1
  | mode :: named =>
    if named.isEmpty then
      misuse "chmod" ("missing operand after ".toList ++ inQuotes mode)
      return 1
    if (Mode.change? mask false 0 mode).isNone then
      misuse "chmod" ("invalid mode: ".toList ++ inQuotes mode)
      return 1
    forEach named fun f => do
      match fs.locate (Test.pathOf f) with
      | .ok (l, e) =>
        for (l, e) in if r.has 'R' then below fs l else [(l, e)] do
          let old ← modeAt l e
          let new := (Mode.change? mask (e = .directory) old mode).getD old
          let fs ← files
          match e with
          | .file content _ => setFiles (fs.put l (.file content (new &&& 73 ≠ 0)))
          | _ => pure ()
          modify fun m => { m with modes := (l, new) :: m.modes.filter (·.1 ≠ l) }
        return true
      | .error e =>
        failing "chmod" "cannot access" f e
        return false

def tee (args : List Octets) : Run Int := do
  let r := request [] [("append", 'a'), ("ignore-interrupts", 'i')] args
  if ← unknown? "tee" r "aip" then return 1
  let opened ← r.named.mapM fun f => do
    let fs ← files
    let path := Test.pathOf f
    let before := if r.has 'a' then (fs.read path).toOption.getD [] else []
    match fs.write path before (fs.isExecutable path) with
    | .ok fs =>
      setFiles fs
      return true
    | .error e =>
      grumble "tee" (fault f e)
      return false
  let text ← readAll 0
  print text
  for (f, isOpen) in r.named.zip opened do
    if isOpen then
      let fs ← files
      let path := Test.pathOf f
      if let .ok fs := fs.write path ((fs.read path).toOption.getD [] ++ bytesOf text) (fs.isExecutable path) then
        setFiles fs
        if let .ok (l, _) := fs.locate path then stamp l
  return if opened.all id then 0 else 1

def table : List (String × (List Octets → Run Int)) :=
  [("mkdir", mkdir), ("rmdir", rmdir), ("rm", rm), ("touch", touch), ("cp", copyOrMove "cp" false),
    ("mv", copyOrMove "mv" true), ("ln", ln), ("chmod", chmod), ("tee", tee), ("sleep", sleep),
    ("sync", fun _ => return 0)]

end CMakeHelm.Sh.Tool.Files
