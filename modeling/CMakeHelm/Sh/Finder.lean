import CMakeHelm.Sh.Launcher

namespace CMakeHelm.Sh.Finder

open Run Tool

structure Bound where
  sign : Option Char
  amount : Nat

def Bound.holds (b : Bound) (n : Nat) : Bool :=
  match b.sign with
  | some '+' => b.amount < n
  | some '-' => n < b.amount
  | _ => n = b.amount

inductive Action where
  | print (ending : Char)
  | format (text : Octets)
  | command (words : List Octets) (inPlace : Bool)
  | commandOnce (number : Nat) (words : List Octets)
  | delete
  | prune
  | quit

inductive Condition where
  | always (b : Bool)
  | name (pattern : List Glyph) (folds : Bool)
  | path (pattern : List Glyph) (folds : Bool)
  | linkTo (pattern : List Glyph)
  | regex (r : Regex)
  | kind (letters : List Char)
  | empty
  | executable
  | size (b : Bound) (unit : Nat)
  | age (b : Bound) (unit : Nat)
  | newer (time : Nat)
  | mode (bits : Nat) (sign : Option Char)
  | act (a : Action)
  | negated (c : Condition)
  | both (a b : Condition)
  | either (a b : Condition)
  | sequence (a b : Condition)

structure Plan where
  least : Nat := 0
  most : Option Nat := none
  depthFirst : Bool := false
  follows : Bool := false
  commands : Nat := 0
  acts : Bool := false

inductive Trouble where
  | unknown (word : Octets)
  | missing (word : Octets)
  | unknownKind (c : Char)
  | expected (text : String)
  | absent (file : Octets)
  | invalid (word value : Octets)

def Trouble.message : Trouble → Octets
  | .unknown w => "unknown predicate \x60".toList ++ w ++ ['\'']
  | .missing w => "missing argument to \x60".toList ++ w ++ ['\'']
  | .unknownKind c => "Unknown argument to -type: ".toList ++ [c]
  | .expected text => text.toList
  | .absent f => inQuotes f ++ ": No such file or directory".toList
  | .invalid w v => "invalid argument \x60".toList ++ v ++ "' to \x60".toList ++ w ++ ['\'']

def bound? (text : Octets) : Option (Bound × Octets) :=
  let sign := text.head?.filter (· ∈ ['+', '-'])
  let text := if sign.isSome then text.tail else text
  let digits := text.takeWhile Char.isDigit
  (natural digits).map fun n => (⟨sign, n⟩, text.drop digits.length)

abbrev Read := Except Trouble (Condition × Plan × List Octets)

def timeOf? (m : Machine) (fs : FileSystem) (file : Octets) : Option Nat :=
  match fs.locate (Test.pathOf file) with
  | .ok (l, _) => some ((m.stamps.lookup l).getD 0)
  | .error _ => none

def withValue (m : Machine) (fs : FileSystem) (word value : Octets) (p : Plan) : Except Trouble (Option (Condition × Plan)) :=
  let number? : Except Trouble (Bound × Octets) :=
    match bound? value with
    | some b => .ok b
    | none => .error (.invalid word value)
  let timed (unit : Nat) : Except Trouble (Option (Condition × Plan)) :=
    number?.map fun (b, _) => some (.age b unit, p)
  match String.ofList word with
  | "-name" => .ok (some (.name (Builtin.unprotected value) false, p))
  | "-iname" => .ok (some (.name (Builtin.unprotected value) true, p))
  | "-path" | "-wholename" => .ok (some (.path (Builtin.unprotected value) false, p))
  | "-ipath" => .ok (some (.path (Builtin.unprotected value) true, p))
  | "-lname" => .ok (some (.linkTo (Builtin.unprotected value), p))
  | "-regex" | "-iregex" =>
    match Regex.parse false value with
    | .ok r => .ok (some (.regex (if word = "-iregex".toList then r.folded else r), p))
    | .error _ => .error (.invalid word value)
  | "-regextype" => .ok (some (.always true, p))
  | "-type" =>
    match value.find? fun c => !("fdlbcps,".toList.contains c) with
    | some c => .error (.unknownKind c)
    | none => .ok (some (.kind (value.filter (· ≠ ',')), p))
  | "-maxdepth" => number?.map fun (b, _) => some (.always true, { p with most := some b.amount })
  | "-mindepth" => number?.map fun (b, _) => some (.always true, { p with least := b.amount })
  | "-size" => do
    let (b, rest) ← number?
    let unit := match rest with
      | ['c'] => 1
      | ['w'] => 2
      | ['k'] => 1024
      | ['M'] => Nat.pow 1024 2
      | ['G'] => Nat.pow 1024 3
      | _ => 512
    return some (.size b unit, p)
  | "-mtime" | "-atime" | "-ctime" => timed 86400000
  | "-mmin" | "-amin" | "-cmin" => timed 60000
  | "-newer" =>
    match timeOf? m fs value with
    | some t => .ok (some (.newer t, p))
    | none => .error (.absent value)
  | "-perm" =>
    let sign := value.head?.filter (· ∈ ['-', '/'])
    match Arithmetic.natural? 8 (if sign.isSome then value.tail else value) with
    | some bits => .ok (some (.mode bits sign, p))
    | none => .error (.invalid word value)
  | "-printf" => .ok (some (.act (.format value), { p with acts := true }))
  | _ => .ok none

def plain? (word : Octets) (p : Plan) : Option (Condition × Plan) :=
  let act (a : Action) : Condition × Plan := (.act a, { p with acts := true })
  match String.ofList word with
  | "-print" => some (act (.print '\n'))
  | "-print0" => some (act (.print '\x00'))
  | "-delete" => some (.act .delete, { p with acts := true, depthFirst := true })
  | "-quit" => some (.act .quit, p)
  | "-prune" => some (.act .prune, p)
  | "-empty" => some (.empty, p)
  | "-executable" => some (.executable, p)
  | "-readable" | "-writable" | "-true" => some (.always true, p)
  | "-false" => some (.always false, p)
  | "-depth" | "-d" => some (.always true, { p with depthFirst := true })
  | "-follow" => some (.always true, { p with follows := true })
  | "-mount" | "-xdev" | "-noleaf" | "-warn" | "-nowarn" | "-daystart" => some (.always true, p)
  | _ => none

def takesValue : List String :=
  ["-name", "-iname", "-path", "-wholename", "-ipath", "-lname", "-regex", "-iregex", "-regextype", "-type",
    "-maxdepth", "-mindepth", "-size", "-mtime", "-atime", "-ctime", "-mmin", "-amin", "-cmin", "-newer", "-perm",
    "-printf"]

def commandWords (word : Octets) (args : List Octets) : Except Trouble (List Octets × Bool × List Octets) :=
  let isEnd (i : Nat) (a : Octets) : Bool :=
    a = [';'] || (a = ['+'] && i > 0 && args[i - 1]? = some "\x7b\x7d".toList)
  match args.zipIdx.findIdx? fun (a, i) => isEnd i a with
  | none => .error (.missing word)
  | some 0 => .error (.missing word)
  | some i =>
    let all := args[i]? = some ['+']
    .ok (args.take (if all then i - 1 else i), all, args.drop (i + 1))

mutual

def primary (m : Machine) (fs : FileSystem) : Nat → Plan → List Octets → Read
  | 0, _, _ => .error (.expected "invalid expression")
  | n + 1, p, args =>
    match args with
    | ['('] :: [')'] :: _ => .error (.expected "invalid expression; empty parentheses are not allowed.")
    | ['('] :: rest => do
      let (c, p, rest) ← list m fs n p rest
      match rest with
      | [')'] :: rest => return (c, p, rest)
      | _ => .error (.expected
        "invalid expression; I was expecting to find a ')' somewhere but did not see one.")
    | ['!'] :: rest | ['-', 'n', 'o', 't'] :: rest => do
      if rest.isEmpty then .error (.expected "expected an expression after '!'")
      let (c, p, rest) ← primary m fs n p rest
      return (.negated c, p, rest)
    | word :: rest =>
      let name := String.ofList word
      match plain? word p with
      | some (c, p) => .ok (c, p, rest)
      | none =>
        if name ∈ ["-exec", "-execdir", "-ok", "-okdir"] then do
          let (words, all, rest) ← commandWords word rest
          let p := { p with acts := true }
          if all then return (.act (.commandOnce p.commands words), { p with commands := p.commands + 1 }, rest)
          return (.act (.command words (name = "-execdir")), p, rest)
        else if name ∈ takesValue then
          match rest with
          | [] => .error (.missing word)
          | value :: rest => do
            match ← withValue m fs word value p with
            | some (c, p) => return (c, p, rest)
            | none => .error (.unknown word)
        else if word.head? = some '-' then .error (.unknown word)
        else .error (.expected "paths must precede expression")
    | [] => .error (.expected "invalid expression")

def conjunction (m : Machine) (fs : FileSystem) : Nat → Condition → Plan → List Octets → Read
  | 0, c, p, args => .ok (c, p, args)
  | n + 1, c, p, args => do
    let stops : List String := ["-o", "-or", ",", ")"]
    match args with
    | [] => return (c, p, [])
    | word :: rest =>
      if String.ofList word ∈ stops then return (c, p, args)
      let args := if String.ofList word ∈ ["-a", "-and"] then rest else args
      let (d, p, rest) ← primary m fs n p args
      conjunction m fs n (.both c d) p rest

def disjunction (m : Machine) (fs : FileSystem) : Nat → Plan → List Octets → Read
  | 0, _, _ => .error (.expected "invalid expression")
  | n + 1, p, args => do
    let (c, p, rest) ← primary m fs n p args
    let (c, p, rest) ← conjunction m fs n c p rest
    match rest with
    | ['-', 'o'] :: rest | ['-', 'o', 'r'] :: rest => do
      let (d, p, rest) ← disjunction m fs n p rest
      return (.either c d, p, rest)
    | rest => return (c, p, rest)

def list (m : Machine) (fs : FileSystem) : Nat → Plan → List Octets → Read
  | 0, _, _ => .error (.expected "invalid expression")
  | n + 1, p, args => do
    let (c, p, rest) ← disjunction m fs n p args
    match rest with
    | [','] :: rest => do
      let (d, p, rest) ← list m fs n p rest
      return (.sequence c d, p, rest)
    | rest => return (c, p, rest)

end

structure File where
  path : Octets
  root : Octets
  depth : Nat
  place : Location
  entry : Entry

structure State where
  status : Int := 0
  prunes : Bool := false
  quits : Bool := false
  batches : List (Nat × List Octets × List Octets) := []

def letter : Entry → Char
  | .directory => 'd'
  | .link _ => 'l'
  | .file _ _ => 'f'

def isHollow (fs : FileSystem) (f : File) : Bool :=
  match f.entry with
  | .directory => (fs.names f.place).isEmpty
  | .file content _ => content.isEmpty
  | .link _ => false

def File.below (f : File) : Octets := (f.path.drop f.root.length).dropWhile (· = '/')

def File.above (f : File) : Octets :=
  let dir := ((f.path.reverse.dropWhile (· ≠ '/')).dropWhile (· = '/')).reverse
  if !dir.isEmpty then dir else if f.path.head? = some '/' ∧ f.path.length > 1 then [] else ['.']

def formatted (f : File) (mode time : Nat) : Nat → Octets → Octets
  | 0, _ => []
  | n + 1, cs =>
    match cs with
    | '%' :: c :: rest =>
      let text : Octets := match c with
        | 'p' => f.path
        | 'f' => lastName f.path
        | 'h' => f.above
        | 'P' => f.below
        | 'H' => f.root
        | 'd' => decimal f.depth
        | 'y' => [letter f.entry]
        | 'l' => match f.entry with
          | .link target => target.chars
          | _ => []
        | 'm' => Nat.toDigits 8 mode
        | c => Host.property f.path f.entry mode time c
      text ++ formatted f mode time n rest
    | '\\' :: rest =>
      let (out, rest) := Format.escape .tool rest
      out ++ formatted f mode time n rest
    | c :: rest => c :: formatted f mode time n rest
    | [] => []

def perform (l : Launch) (f : File) (a : Action) (s : State) : Run (Bool × State) := do
  let braces := "\x7b\x7d".toList
  match a with
  | .print ending =>
    print (f.path ++ [ending])
    return (true, s)
  | .format text =>
    let time := ((← get).stamps.lookup f.place).getD 0
    print (formatted f (← modeAt f.place f.entry) time (text.length + 1) text)
    return (true, s)
  | .command words inPlace =>
    let name := if inPlace then "./".toList ++ lastName f.path else f.path
    let argv := words.map fun w => Launcher.replaced braces name (w.length + 1) w
    let before := (← shell).dir
    if inPlace then modifyShell ({ · with dir := f.place.dropLast })
    let result ← l.run l.vars argv
    modifyShell ({ · with dir := before })
    match result with
    | .ok status => return (status = 0, s)
    | .error e =>
      grumble "find" (fault (inQuotes (argv.headD [])) e)
      return (false, s)
  | .commandOnce k words =>
    let files := match s.batches.find? fun b => b.1 = k with
      | some (_, _, files) => files
      | none => []
    return (true, { s with batches := (s.batches.filter fun b => b.1 ≠ k) ++ [(k, words, f.path :: files)] })
  | .delete =>
    let fs ← files
    if f.path = ['.'] then return (true, s)
    if f.entry = .directory ∧ !(fs.names f.place).isEmpty then
      grumble "find" ("cannot delete ".toList ++ inQuotes f.path ++ ": Directory not empty".toList)
      return (false, { s with status := 1 })
    setFiles (fs.cutOff f.place)
    return (true, s)
  | .prune => return (true, { s with prunes := true })
  | .quit => return (true, { s with quits := true })

def holds (l : Launch) (f : File) : Condition → State → Run (Bool × State)
  | .always b, s => return (b, s)
  | .name pattern folds, s => return (isMatch { folds } pattern (lastName f.path), s)
  | .path pattern folds, s => return (isMatch { folds } pattern f.path, s)
  | .linkTo pattern, s =>
    match f.entry with
    | .link target => return (isMatch {} pattern target.chars, s)
    | _ => return (false, s)
  | .regex r, s => return (r.accepts f.path, s)
  | .kind letters, s => return (letters.contains (letter f.entry), s)
  | .empty, s => do return (isHollow (← files) f, s)
  | .executable, s =>
    match f.entry with
    | .file _ x => return (x, s)
    | _ => return (true, s)
  | .size b unit, s => return (b.holds ((Host.sizeOf f.entry + unit - 1) / unit), s)
  | .age b unit, s => do
    let m ← get
    return (b.holds ((m.clock - (m.stamps.lookup f.place).getD 0) / unit), s)
  | .newer time, s => do return (time < ((← get).stamps.lookup f.place).getD 0, s)
  | .mode bits sign, s => do
    let mode ← modeAt f.place f.entry
    return (match sign with
      | some '-' => mode &&& bits == bits
      | some _ => bits == 0 || mode &&& bits != 0
      | none => mode == bits, s)
  | .act a, s => if s.quits then return (false, s) else perform l f a s
  | .negated c, s => do
    let (b, s) ← holds l f c s
    return (!b, s)
  | .both a b, s => do
    let (x, s) ← holds l f a s
    if x ∧ !s.quits then holds l f b s else return (false, s)
  | .either a b, s => do
    let (x, s) ← holds l f a s
    if x ∨ s.quits then return (x, s) else holds l f b s
  | .sequence a b, s => do
    let (_, s) ← holds l f a s
    if s.quits then return (false, s) else holds l f b s

def visit (l : Launch) (p : Plan) (c : Condition) : Nat → File → State → Run State
  | 0, _, s => return s
  | n + 1, f, s => do
    if s.quits then return s
    let check (s : State) : Run State := do
      if p.least ≤ f.depth then
        let (_, s) ← holds l f c s
        return s
      return s
    let s := { s with prunes := false }
    let s ← if p.depthFirst then pure s else check s
    let goesDown := f.entry = .directory ∧ (!s.prunes ∨ p.depthFirst) ∧ p.most.all (f.depth < ·)
    let s ← if goesDown then do
        let fs ← files
        (Files.namesIn fs f.place).foldlM (fun s name => do
          let path := f.path ++ (if f.path.getLast? = some '/' then [] else ['/']) ++ name
          match fs.find p.follows (Test.pathOf path) with
          | .ok (.entry place entry) => visit l p c n { path, root := f.root, depth := f.depth + 1, place, entry } s
          | _ => return s) s
      else pure s
    if p.depthFirst ∧ !s.quits then check s else return s

def find (l : Launch) (args : List Octets) : Run Int := do
  let follows := args.takeWhile (· ∈ [['-', 'L'], ['-', 'P'], ['-', 'H']])
  let args := args.drop follows.length
  let isPlace (a : Octets) : Bool := a.head? ≠ some '-' && a ≠ ['!'] && a ≠ ['('] && a ≠ [','] && a ≠ [')']
  let places := args.takeWhile isPlace
  let words := args.drop places.length
  let m ← get
  let fs ← files
  let start : Plan := { follows := follows.contains ['-', 'L'] }
  let parsed : Read :=
    if words.isEmpty then .ok (.always true, start, []) else list m fs (2 * words.length + 8) start words
  match parsed with
  | .error t =>
    grumble "find" t.message
    return 1
  | .ok (_, _, word :: _) =>
    grumble "find" (if word = [')'] then "invalid expression; you have too many ')'".toList
      else "paths must precede expression: ".toList ++ '\x60' :: word ++ ['\''])
    return 1
  | .ok (c, p, []) =>
    let c := if p.acts then c else .both c (.act (.print '\n'))
    let mut s : State := {}
    for place in if places.isEmpty then [['.']] else places do
      let fs ← files
      match fs.find (p.follows || place.getLast? = some '/') (Test.pathOf place) with
      | .ok (.entry l' entry) => s ← visit l p c 200 { path := place, root := place, depth := 0, place := l', entry } s
      | .ok (.free _) | .error .absent =>
        grumble "find" (inQuotes place ++ ": No such file or directory".toList)
        s := { s with status := 1 }
      | .error e =>
        grumble "find" (inQuotes place ++ ": ".toList ++ e.text.toList)
        s := { s with status := 1 }
    for (_, command, found) in s.batches do
      match ← l.run l.vars (command ++ found.reverse) with
      | .ok status => if status ≠ 0 then s := { s with status := 1 }
      | .error e =>
        grumble "find" (fault (inQuotes (command.headD [])) e)
        s := { s with status := 1 }
    return s.status

def table : List (String × (Launch → List Octets → Run Int)) := [("find", find)]

end CMakeHelm.Sh.Finder
