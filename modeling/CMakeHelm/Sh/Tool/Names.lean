import CMakeHelm.Sh.Tool.Request

namespace CMakeHelm.Sh.Tool.Names

open Run

def basename (args : List Octets) : Run Int := do
  let r := leadingRequest ['s'] [("suffix", 's'), ("multiple", 'a'), ("zero", 'z')] args
  if ← unknown? "basename" r "saz" then return 1
  let many := r.has 'a' || r.has 's'
  match r.named with
  | [] =>
    misuse "basename" "missing operand".toList
    return 1
  | path :: more =>
    if !many ∧ more.length > 1 then
      misuse "basename" ("extra operand ".toList ++ inQuotes (more.getD 1 []))
      return 1
    let ending := if many then (r.value? 's').getD [] else more.headD []
    let shortened (path : Octets) : Octets :=
      let name := lastName path
      if name ≠ ending ∧ ending ≠ [] ∧ ending.isSuffixOf name then name.take (name.length - ending.length) else name
    let all := if many then path :: more else [path]
    print (all.flatMap fun p => shortened p ++ [if r.has 'z' then '\x00' else '\n'])
    return 0

def parent (path : Octets) : Octets :=
  let trimmed := path.reverse.dropWhile (· = '/')
  let above := ((trimmed.dropWhile (· ≠ '/')).dropWhile (· = '/')).reverse
  if !above.isEmpty then above else if path.head? = some '/' then ['/'] else ['.']

def dirname (args : List Octets) : Run Int := do
  let r := request [] [("zero", 'z')] args
  if ← unknown? "dirname" r "z" then return 1
  if r.named.isEmpty then
    misuse "dirname" "missing operand".toList
    return 1
  print (r.named.flatMap fun p => parent p ++ [if r.has 'z' then '\x00' else '\n'])
  return 0

/-- Without a last component that has to exist, with none that has to, or with all. -/
def resolved (fs : FileSystem) (existing missing : Bool) (name : Octets) : Except Fault Location :=
  match fs.find true (Test.pathOf name) with
  | .ok (.entry l _) => .ok l
  | .ok (.free l) => if existing then .error .absent else .ok l
  | .error e =>
    if missing then
      let start : Location := if name.head? = some '/' then [] else fs.workDir
      .ok ((Text.split (· == '/') name).foldl (fun l piece =>
        if piece = [] ∨ piece = ['.'] then l
        else if piece = ['.', '.'] then l.dropLast
        else l ++ [piece]) start)
    else .error e

def shown (l : Location) : Octets := (FileSystem.pathOf l).chars

def readlink (args : List Octets) : Run Int := do
  let r := request [] [("canonicalize", 'f'), ("canonicalize-existing", 'e'), ("canonicalize-missing", 'm'),
    ("no-newline", 'n'), ("quiet", 'q'), ("silent", 's'), ("verbose", 'v'), ("zero", 'z')] args
  if ← unknown? "readlink" r "femnqsvz" then return 1
  if r.named.isEmpty then
    misuse "readlink" "missing operand".toList
    return 1
  let fs ← files
  let ending := if r.has 'n' ∧ r.named.length = 1 then [] else if r.has 'z' then ['\x00'] else ['\n']
  forEach r.named fun f => do
    let found : Except Fault Octets :=
      if r.has 'f' ∨ r.has 'e' ∨ r.has 'm' then (resolved fs (r.has 'e') (r.has 'm') f).map shown
      else
        match fs.find false (Test.pathOf f) with
        | .ok (.entry _ (.link target)) => .ok target.chars
        | .ok (.entry _ _) => .error .invalidArgument
        | .ok (.free _) => .error .absent
        | .error e => .error e
    match found with
    | .ok text =>
      print (text ++ ending)
      return true
    | .error e =>
      if r.has 'v' then grumble "readlink" (fault f e)
      return false

def realpath (args : List Octets) : Run Int := do
  let r := request ['R'] [("canonicalize-existing", 'e'), ("canonicalize-missing", 'm'), ("no-symlinks", 's'),
    ("quiet", 'q'), ("strip", 's'), ("relative-to", 'R')] args
  if ← unknown? "realpath" r "emsqRLPz" then return 1
  if r.named.isEmpty then
    misuse "realpath" "missing operand".toList
    return 1
  let fs ← files
  let relative (base l : Location) : Octets :=
    let shared := ((base.zip l).takeWhile fun (a, b) => a == b).length
    let steps := List.replicate (base.length - shared) "..".toList ++ l.drop shared
    if steps.isEmpty then ['.'] else Text.join '/' steps
  forEach r.named fun f => do
    match resolved fs (r.has 'e') (r.has 'm') f with
    | .ok l =>
      let base? := (r.value? 'R').bind fun b => ((fs.locate (Test.pathOf b)).toOption).map (·.1)
      print ((base?.map fun base => relative base l).getD (shown l) ++ ['\n'])
      return true
    | .error e =>
      if !r.has 'q' then grumble "realpath" (fault f e)
      return false

def table : List (String × (List Octets → Run Int)) :=
  [("basename", basename), ("dirname", dirname), ("readlink", readlink), ("realpath", realpath)]

end CMakeHelm.Sh.Tool.Names
