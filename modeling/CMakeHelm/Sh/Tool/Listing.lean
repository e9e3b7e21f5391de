import CMakeHelm.Sh.Tool.Calendar

namespace CMakeHelm.Sh.Tool.Listing

open Run

structure Item where
  name : Octets
  place : Location
  entry : Entry
  mode : Nat
  time : Nat

def Item.size (i : Item) : Nat :=
  match i.entry with
  | .directory => 4096
  | .link target => target.chars.length
  | .file content _ => content.length

/-- How many blocks of 1024 octets a file takes, four at a time. -/
def Item.blocks (i : Item) : Nat :=
  match i.entry with
  | .link _ => 0
  | _ => (i.size + 4095) / 4096 * 4

def item (name : Octets) (place : Location) (entry : Entry) : Run Item := do
  let mode ← modeAt place entry
  return { name, place, entry, mode, time := ((← get).stamps.lookup place).getD 0 }

def mark (r : Request) (i : Item) : Octets :=
  match i.entry with
  | .directory => if r.has 'F' ∨ r.has 'p' then ['/'] else []
  | .link _ => if r.has 'F' ∧ !r.has 'l' then ['@'] else []
  | .file _ x => if r.has 'F' ∧ x then ['*'] else []

def ordered (r : Request) (items : List Item) : List Item :=
  if r.has 'U' ∨ r.has 'f' then items
  else
    let byName := items.mergeSort fun a b => inOrder a.name b.name
    let sorted :=
      if r.has 'S' then byName.mergeSort fun a b => decide (b.size ≤ a.size)
      else if r.has 't' then byName.mergeSort fun a b => decide (b.time ≤ a.time)
      else byName
    if r.has 'r' then sorted.reverse else sorted

def paddedLeft (width : Nat) (text : Octets) : Octets := List.replicate (width - text.length) ' ' ++ text

def subdirectories (fs : FileSystem) (i : Item) : Nat :=
  match i.entry with
  | .directory => 2 + ((fs.names i.place).filter fun n => fs.get? (i.place ++ [n]) = some .directory).length
  | _ => 1

def rows (r : Request) (fs : FileSystem) (items : List Item) : List Octets :=
  let widest (f : Item → Octets) : Nat := (items.map fun i => (f i).length).foldl max 0
  let links (i : Item) : Octets := decimal (subdirectories fs i)
  let size (i : Item) : Octets := decimal i.size
  let blocks (i : Item) : Octets := decimal i.blocks
  let owner := "root".toList
  items.map fun i =>
    let front := if r.has 's' then paddedLeft (widest blocks) (blocks i) ++ [' '] else []
    if r.has 'l' ∨ r.has 'n' ∨ r.has 'g' ∨ r.has 'o' then
      let owners := if r.has 'n' then "0 0".toList else if r.has 'g' ∨ r.has 'o' then owner
        else owner ++ ' ' :: owner
      let target := match i.entry with
        | .link target => " -> ".toList ++ target.chars
        | _ => []
      front ++ Mode.kind i.entry :: Mode.letters i.mode ++ ' ' :: paddedLeft (widest links) (links i) ++ ' ' :: owners ++
        ' ' :: paddedLeft (widest size) (size i) ++ ' ' :: Calendar.listed i.time ++ ' ' :: i.name ++ mark r i ++ target
    else front ++ i.name ++ mark r i

def isLong (r : Request) : Bool := r.has 'l' || r.has 'n' || r.has 'g' || r.has 'o'

def laidOut (r : Request) (ls : List Octets) : Octets :=
  if r.has 'm' ∧ !isLong r then (if ls.isEmpty then [] else (ls.intersperse ", ".toList).flatten ++ ['\n'])
  else unlines ls

def shownIn (r : Request) (fs : FileSystem) (l : Location) : Run (List Item) := do
  let hasAll := r.has 'a' || r.has 'f'
  let names := (fs.names l).filter fun n => hasAll || r.has 'A' || n.head? ≠ some '.'
  let items ← names.filterMapM fun n => do
    let place := l ++ [n]
    match fs.get? place with
    | some e => return some (← item n place e)
    | none => return none
  if hasAll then
    return (← item ['.'] l .directory) :: (← item ['.', '.'] l.dropLast .directory) :: items
  return items

def directory (r : Request) (fs : FileSystem) : Nat → Octets → Location → (titled : Bool) → Run (List Octets)
  | 0, _, _, _ => return []
  | n + 1, name, l, titled => do
    let items := ordered r (← shownIn r fs l)
    let title := if titled then name ++ ":\n".toList else []
    let total := if isLong r ∨ r.has 's' then
        "total ".toList ++ decimal ((items.map Item.blocks).foldl (· + ·) 0) ++ ['\n'] else []
    let block := title ++ total ++ laidOut r (rows r fs items)
    if !r.has 'R' then return [block]
    let below := items.filter fun i => i.entry = .directory ∧ i.name ≠ ['.'] ∧ i.name ≠ ['.', '.']
    let more ← below.mapM fun i =>
      directory r fs n (name ++ (if name.getLast? = some '/' then [] else ['/']) ++ i.name) i.place true
    return block :: more.flatten

def ls (args : List Octets) : Run Int := do
  let r := request ['w', 'I', 'T'] [("all", 'a'), ("almost-all", 'A'), ("directory", 'd'), ("classify", 'F'),
    ("recursive", 'R'), ("reverse", 'r'), ("size", 's'), ("color", 'G'), ("ignore", 'I'), ("width", 'w'),
    ("human-readable", 'h'), ("no-group", 'o'), ("numeric-uid-gid", 'n')] args
  match r.options.find? fun o => !("aAdFRrsGIwhon1lCxmpStUfgicuLHkqQNbBvXT".toList.contains o.1) with
  | some (c, _) =>
    misuse "ls" ("invalid option -- '".toList ++ [c, '\''])
    return 2
  | none =>
    let fs ← files
    let named := if r.named.isEmpty then [['.']] else r.named
    let found : List (Octets × Except Fault (Location × Entry)) := named.map fun f =>
      let followed := fs.locate (Test.pathOf f)
      let plain : Except Fault (Location × Entry) := do
        match ← fs.find false (Test.pathOf f) with
        | .entry l e => .ok (l, e)
        | .free _ => .error .absent
      (f, match followed with
        | .ok (l, .directory) => if (r.has 'd' || isLong r) && f.getLast? ≠ some '/' then plain else .ok (l, .directory)
        | .ok x => if isLong r then plain else .ok x
        | .error e => match plain with
          | .ok x => .ok x
          | .error _ => .error e)
    let mut status : Int := 0
    for (f, result) in found do
      if let .error e := result then
        grumble "ls" ("cannot access ".toList ++ inQuotes f ++ ": ".toList ++ e.text.toList)
        status := 2
    let isShown (e : Entry) : Bool := e = .directory && !r.has 'd'
    let plain ← found.filterMapM fun (f, result) => do
      match result with
      | .ok (l, e) => if isShown e then return none else return some (← item f l e)
      | .error _ => return none
    let dirs ← found.filterMapM fun (f, result) => do
      match result with
      | .ok (l, e) => if isShown e then return some (← item f l e) else return none
      | .error _ => return none
    let blocks := if plain.isEmpty then [] else [laidOut r (rows r fs (ordered r plain))]
    let titled := r.named.length > 1 || r.has 'R'
    let more ← (ordered r dirs).mapM fun i => directory r fs 100 i.name i.place titled
    print ((blocks ++ more.flatten).intersperse ['\n']).flatten
    return status

def table : List (String × (List Octets → Run Int)) := [("ls", ls), ("dir", ls)]

end CMakeHelm.Sh.Tool.Listing
