import CMakeHelm.Sh.Tool.Calendar

namespace CMakeHelm.Sh.Tool.Host

open Run

def say (text : String) : Run Int := do
  print (text.toList ++ ['\n'])
  return 0

def uname (args : List Octets) : Run Int := do
  let r := request [] [("all", 'a'), ("kernel-name", 's'), ("nodename", 'n'), ("kernel-release", 'r'),
    ("kernel-version", 'v'), ("machine", 'm'), ("processor", 'p'), ("hardware-platform", 'i'),
    ("operating-system", 'o')] args
  let all := [('s', "Linux"), ('n', "localhost"), ('r', "6.1.0"), ('v', "#1 SMP"), ('m', "x86_64"), ('o', "GNU/Linux")]
  let wanted := if r.has 'a' then all else all.filter fun (c, _) => r.has c
  say (" ".intercalate ((if wanted.isEmpty then all.take 1 else wanted).map (·.2)))

def id (args : List Octets) : Run Int := do
  let r := request [] [("user", 'u'), ("group", 'g'), ("groups", 'G'), ("name", 'n')] args
  let text := if r.has 'n' then "root" else "0"
  if r.has 'u' ∨ r.has 'g' ∨ r.has 'G' then say text else say "uid=0(root) gid=0(root) groups=0(root)"

def tty (args : List Octets) : Run Int := do
  let r := request [] [("silent", 's'), ("quiet", 's')] args
  if !r.has 's' then print "not a tty\n".toList
  return 1

def isEmptyFile : Entry → Bool
  | .file [] _ => true
  | _ => false

def kindName : Entry → String
  | .directory => "directory"
  | .link _ => "symbolic link"
  | e => if isEmptyFile e then "regular empty file" else "regular file"

def sizeOf : Entry → Nat
  | .directory => 4096
  | .link target => target.chars.length
  | .file content _ => content.length

def property (name : Octets) (e : Entry) (mode time : Nat) : Char → Octets
  | 'n' => name
  | 'N' => match e with
    | .link target => inQuotes name ++ " -> ".toList ++ inQuotes target.chars
    | _ => inQuotes name
  | 's' => decimal (sizeOf e)
  | 'F' => (kindName e).toList
  | 'a' => Nat.toDigits 8 mode
  | 'A' => Mode.kind e :: Mode.letters mode
  | 'u' | 'g' => ['0']
  | 'U' | 'G' => "root".toList
  | 'h' => ['1']
  | 'Y' | 'X' | 'Z' => decimal (time / 1000)
  | 'y' | 'x' | 'z' => Calendar.stampText time
  | 'b' => decimal ((sizeOf e + 4095) / 4096 * 8)
  | 'B' => "512".toList
  | 'o' => "4096".toList
  | '%' => ['%']
  | _ => ['?']

def described (escapes : Bool) (name : Octets) (e : Entry) (mode time : Nat) : Nat → Octets → Octets
  | 0, _ => []
  | n + 1, cs =>
    match cs with
    | '%' :: c :: rest => property name e mode time c ++ described escapes name e mode time n rest
    | '\\' :: rest =>
      if escapes then
        let (out, rest) := Format.escape .tool rest
        out ++ described escapes name e mode time n rest
      else '\\' :: described escapes name e mode time n rest
    | c :: rest => c :: described escapes name e mode time n rest
    | [] => []

def longFormat : String := "  File: %N\n  Size: %s\t%F\nAccess: (0%a/%A)  Uid: (    0/    root)   Gid: (    0/    root)\n"

def stat (args : List Octets) : Run Int := do
  let r := request ['c', 'P'] [("format", 'c'), ("printf", 'P'), ("dereference", 'L'), ("terse", 't')] args
  if r.named.isEmpty then
    misuse "stat" "missing operand".toList
    return 1
  forEach r.named fun f => do
    let fs ← files
    let found : Except Fault (Location × Entry) := do
      match ← fs.find (r.has 'L') (Test.pathOf f) with
      | .entry l e => .ok (l, e)
      | .free _ => .error .absent
    match found with
    | .error e =>
      grumble "stat" ("cannot statx ".toList ++ inQuotes f ++ ": ".toList ++ e.text.toList)
      return false
    | .ok (l, e) =>
      let time := ((← get).stamps.lookup l).getD 0
      let mode ← modeAt l e
      match r.value? 'c', r.value? 'P' with
      | some format, _ => print (described false f e mode time (format.length + 1) format ++ ['\n'])
      | none, some format => print (described true f e mode time (format.length + 1) format)
      | none, none => print (described false f e mode time longFormat.length longFormat.toList)
      return true

def temporaryLetters (n count : Nat) : Octets :=
  (List.range count).map fun i => "aB3dE5gH7j".toList.getD ((n / Nat.pow 7 i + i) % 10) 'k'

def mktemp (args : List Octets) : Run Int := do
  let r := request ['p', 's'] [("directory", 'd'), ("dry-run", 'u'), ("tmpdir", 'p'), ("suffix", 's'), ("quiet", 'q')] args
  let pattern := r.named.head?.getD "tmp.XXXXXXXXXX".toList
  let behind := if r.has 's' then (r.value? 's').getD [] else (pattern.reverse.takeWhile (· ≠ 'X')).reverse
  let front := if r.has 's' then pattern else pattern.take (pattern.length - behind.length)
  let marks := (front.reverse.takeWhile (· = 'X')).length
  if marks < 3 then
    if !r.has 'q' then grumble "mktemp" ("too few X's in template ".toList ++ inQuotes pattern)
    return 1
  let place := ((← shell).vars.lookup "TMPDIR".toList).bind (·.value)
  let dir := (r.value? 'p').getD (place.getD "/tmp".toList)
  let stem := front.take (front.length - marks)
  let count ← modifyGet fun m => (m.nextPid, { m with nextPid := m.nextPid + 1 })
  let name := stem ++ temporaryLetters count marks ++ behind
  let name := if r.named.isEmpty ∨ r.has 'p' ∨ r.has 't' then dir ++ '/' :: name else name
  let fs ← files
  if !r.has 'u' then
    match fs.find true (Test.pathOf name) with
    | .ok (.free l) =>
      setFiles (fs.put l (if r.has 'd' then .directory else .file [] false))
      stamp l
    | _ =>
      grumble "mktemp" ("failed to create ".toList ++ (if r.has 'd' then "directory" else "file").toList ++
        " via template ".toList ++ inQuotes pattern ++ ": No such file or directory".toList)
      return 1
  print (name ++ ['\n'])
  return 0

def size? (text : Octets) : Option Nat :=
  let digits := text.takeWhile Char.isDigit
  let unit? : Option Nat := match String.ofList (text.drop digits.length) with
    | "" => some 1
    | "b" => some 512
    | "K" | "k" | "KiB" => some 1024
    | "KB" | "kB" => some 1000
    | "M" | "MiB" => some (Nat.pow 1024 2)
    | "MB" => some (Nat.pow 1000 2)
    | _ => none
  match natural digits, unit? with
  | some n, some u => some (n * u)
  | _, _ => none

def truncate (args : List Octets) : Run Int := do
  let r := request ['s', 'r'] [("size", 's'), ("reference", 'r'), ("no-create", 'c')] args
  let fs ← files
  let given := (r.value? 's').getD []
  let sign := given.head?.filter (· ∈ ['+', '-', '<', '>', '/', '%'])
  let amount? := match r.value? 'r' with
    | some f => ((fs.read (Test.pathOf f)).toOption).map List.length
    | none => size? (if sign.isSome then given.tail else given)
  match amount? with
  | none =>
    misuse "truncate" (if given.isEmpty then "you must specify either '--size' or '--reference'".toList
      else "Invalid number: ".toList ++ inQuotes given)
    return 1
  | some amount =>
    if r.named.isEmpty then
      misuse "truncate" "missing file operand".toList
      return 1
    forEach r.named fun f => do
      let fs ← files
      let path := Test.pathOf f
      if r.has 'c' ∧ !fs.exists? path then return true
      let before := (fs.read path).toOption.getD []
      let length := match sign with
        | some '+' => before.length + amount
        | some '-' => before.length - amount
        | some '<' => min before.length amount
        | some '>' => max before.length amount
        | some '/' => before.length / amount * amount
        | some '%' => (before.length + amount - 1) / amount * amount
        | _ => amount
      let content := before.take length ++ List.replicate (length - before.length) 0
      match fs.write path content (fs.isExecutable path) with
      | .ok fs =>
        setFiles fs
        if let .ok (l, _) := fs.locate path then stamp l
        return true
      | .error e =>
        grumble "truncate" ("cannot open ".toList ++ inQuotes f ++ " for writing: ".toList ++ e.text.toList)
        return false

def pieceName (digits : Bool) (count i : Nat) : Octets :=
  let base := if digits then 10 else 26
  let first := if digits then 48 else 97
  (List.range count).map fun k => Char.ofNat (first + i / Nat.pow base (count - 1 - k) % base)

def pieces (size : Nat) : Nat → List Octets → List Octets
  | 0, _ => []
  | n + 1, xs => if xs.isEmpty then [] else (xs.take size).flatten :: pieces size n (xs.drop size)

def split (args : List Octets) : Run Int := do
  let r := request ['l', 'b', 'a', 'n'] [("lines", 'l'), ("bytes", 'b'), ("numeric-suffixes", 'd'), ("suffix-length", 'a')]
    args
  let file := r.named.head?.getD ['-']
  let stem := r.named.tail.head?.getD ['x']
  match ← source "split" file with
  | none => return 1
  | some text =>
    let units := match r.value? 'b' with
      | some _ => text.map ([·])
      | none => (lines text).map (· ++ ['\n'])
    let size := match r.value? 'b' with
      | some k => (size? k).getD 1
      | none => (r.number? 'l').getD 1000
    if size = 0 then
      grumble "split" "invalid number of lines: '0'".toList
      return 1
    for (piece, i) in (pieces size (units.length + 1) units).zipIdx do
      let fs ← files
      let path := Test.pathOf (stem ++ pieceName (r.has 'd') ((r.number? 'a').getD 2) i)
      let ended := r.has 'b' ∨ text.getLast? = some '\n' ∨ (i + 1) * size < units.length
      if let .ok fs := fs.write path (bytesOf (if ended then piece else piece.dropLast)) false then
        setFiles fs
        if let .ok (l, _) := fs.locate path then stamp l
    return 0

def table : List (String × (List Octets → Run Int)) :=
  [("uname", uname), ("whoami", fun _ => say "root"), ("id", id), ("groups", fun _ => say "root"),
    ("hostname", fun _ => say "localhost"), ("nproc", fun _ => say "4"), ("arch", fun _ => say "x86_64"), ("tty", tty),
    ("stat", stat), ("mktemp", mktemp), ("truncate", truncate), ("split", split)]

end CMakeHelm.Sh.Tool.Host
