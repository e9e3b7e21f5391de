import CMakeHelm.Sh.Tool.Request

namespace CMakeHelm.Sh.Tool.Sorting

open Run

structure Manner where
  numeric : Bool := false
  general : Bool := false
  human : Bool := false
  month : Bool := false
  version : Bool := false
  folds : Bool := false
  dictionary : Bool := false
  printable : Bool := false
  reverse : Bool := false
  startBlanks : Bool := false
  endBlanks : Bool := false
deriving DecidableEq, Repr

def Manner.add (m : Manner) (ofEnd : Bool) : Char → Manner
  | 'n' => { m with numeric := true }
  | 'g' => { m with general := true }
  | 'h' => { m with human := true }
  | 'M' => { m with month := true }
  | 'V' => { m with version := true }
  | 'f' => { m with folds := true }
  | 'd' => { m with dictionary := true }
  | 'i' => { m with printable := true }
  | 'r' => { m with reverse := true }
  | 'b' => if ofEnd then { m with endBlanks := true } else { m with startBlanks := true, endBlanks := m.endBlanks }
  | _ => m

structure Key where
  startField : Nat
  startChar : Nat := 1
  stopField : Option Nat := none
  stopChar : Nat := 0
  manner : Manner := {}
  isOwn : Bool := false

def natPrefix (cs : Octets) : Nat × Octets :=
  let ds := cs.takeWhile Char.isDigit
  ((natural ds).getD 0, cs.drop ds.length)

def key (text : Octets) : Key :=
  let place (cs : Octets) : Nat × Nat × Octets :=
    let (f, rest) := natPrefix cs
    match rest with
    | '.' :: rest => let (c, rest) := natPrefix rest; (f, c, rest)
    | rest => (f, 0, rest)
  let (f, c, rest) := place text
  let startFlags := rest.takeWhile Char.isAlpha
  let m := startFlags.foldl (fun m c => m.add false c) ({} : Manner)
  match rest.drop startFlags.length with
  | ',' :: rest =>
    let (f', c', rest) := place rest
    let flags := rest.takeWhile Char.isAlpha
    let m := flags.foldl (fun m c => m.add true c) m
    { startField := f, startChar := max c 1, stopField := some f', stopChar := c', manner := m,
      isOwn := !(startFlags.isEmpty && flags.isEmpty) }
  | _ => { startField := f, startChar := max c 1, manner := m, isOwn := !startFlags.isEmpty }

def isBlank (c : Char) : Bool := c == ' ' || c == '\t' || c == '\n'

/-- The text from so many fields on. Without a separator, blanks belong to the field after them. -/
def skipFields (separator : Option Char) : Nat → Octets → Octets
  | 0, cs => cs
  | n + 1, cs =>
    match separator with
    | some t =>
      match cs.dropWhile (· ≠ t) with
      | _ :: rest => skipFields separator n rest
      | [] => []
    | none => skipFields separator n ((cs.dropWhile isBlank).dropWhile (!isBlank ·))

def Key.part (k : Key) (separator : Option Char) (line : Octets) : Octets :=
  let from_ := skipFields separator (k.startField - 1) line
  let from_ := if k.manner.startBlanks then from_.dropWhile isBlank else from_
  let from_ := from_.drop (k.startChar - 1)
  match k.stopField with
  | none => from_
  | some f =>
    let rest :=
      if k.stopChar = 0 then
        match separator with
        | some t => (skipFields separator (f - 1) line).dropWhile (· ≠ t)
        | none => skipFields none f line
      else
        let at_ := skipFields separator (f - 1) line
        let at_ := if k.manner.endBlanks then at_.dropWhile isBlank else at_
        at_.drop k.stopChar
    from_.take (from_.length - rest.length)

structure Decimal where
  negative : Bool
  whole : Octets
  fraction : Octets

def decimalOf (text : Octets) : Decimal × Octets :=
  let text := text.dropWhile isBlank
  let (negative, text) := match text with
    | '-' :: rest => (true, rest)
    | rest => (false, rest)
  let whole := text.takeWhile Char.isDigit
  let (fraction, rest) := match text.drop whole.length with
    | '.' :: rest => (rest.takeWhile Char.isDigit, rest.dropWhile Char.isDigit)
    | rest => ([], rest)
  ({ negative, whole, fraction }, rest)

def Decimal.scaled (d : Decimal) (places : Nat) : Int :=
  let n : Nat := (d.whole ++ d.fraction ++ List.replicate (places - d.fraction.length) '0').foldl
    (fun n c => 10 * n + (c.toNat - 48)) 0
  if d.negative then -(n : Int) else n

def compareDecimals (a b : Decimal) : Ordering :=
  let places := max a.fraction.length b.fraction.length
  compare (a.scaled places) (b.scaled places)

def compareOctets (a b : Octets) : Ordering := if a = b then .eq else if inOrder a b then .lt else .gt

def unitRank : Octets → Nat
  | c :: _ => (("KMGTPEZYRQ".toList.findIdx? (· == (if c = 'k' then 'K' else c))).map (· + 1)).getD 0
  | [] => 0

def compareHuman (a b : Octets) : Ordering :=
  let (x, restX) := decimalOf a
  let (y, restY) := decimalOf b
  let rank (d : Decimal) (rest : Octets) : Int :=
    let r : Int := unitRank rest
    if d.scaled d.fraction.length = 0 then 0 else if d.negative then -r - 1 else r + 1
  match compare (rank x restX) (rank y restY) with
  | .eq => compareDecimals x y
  | o => o

def monthOf (text : Octets) : Nat :=
  let name := ((text.dropWhile isBlank).take 3).map Char.toUpper
  let months := ["JAN", "FEB", "MAR", "APR", "MAY", "JUN", "JUL", "AUG", "SEP", "OCT", "NOV", "DEC"]
  ((months.findIdx? fun m => m.toList == name).map (· + 1)).getD 0

/-- Rank of a character in a version: a tilde before the end, letters before other characters. -/
def versionRank (c : Char) : Int :=
  if c = '~' then -1 else if c.isDigit then 0 else if c.isAlpha then c.toNat else c.toNat + 256

def compareVersions : Nat → Octets → Octets → Ordering
  | 0, _, _ => .eq
  | n + 1, a, b =>
    if a.isEmpty ∧ b.isEmpty then .eq
    else
      let da := a.takeWhile Char.isDigit
      let db := b.takeWhile Char.isDigit
      if !da.isEmpty ∧ !db.isEmpty then
        match compare ((natural da).getD 0) ((natural db).getD 0) with
        | .eq => compareVersions n (a.drop da.length) (b.drop db.length)
        | o => o
      else
        let rank (cs : Octets) : Int := cs.head?.elim 0 versionRank
        match compare (rank a) (rank b) with
        | .eq => compareVersions n a.tail b.tail
        | o => o

def compareGeneral (a b : Octets) : Ordering :=
  let value (text : Octets) : Option Floating := (Floating.read? .extended text).map (·.1)
  let less (x y : Floating) : Bool :=
    match x, y with
    | .finite s m e, .finite s' m' e' =>
      let low := min e e'
      let signed (s : Bool) (m : Nat) (e : Int) : Int :=
        let n : Int := (m <<< (e - low).toNat : Nat)
        if s then -n else n
      decide (signed s m e < signed s' m' e')
    | .infinite s, .infinite s' => s && !s'
    | .infinite s, _ => s
    | _, .infinite s => !s
    | _, _ => false
  match value a, value b with
  | none, none => .eq
  | none, some _ => .lt
  | some _, none => .gt
  | some x, some y => if less x y then .lt else if less y x then .gt else .eq

def Manner.compare (m : Manner) (a b : Octets) : Ordering :=
  let kept (text : Octets) : Octets :=
    let text := if m.dictionary then text.filter fun c => isBlank c || c.isAlphanum else text
    let text := if m.printable then text.filter fun c => ' ' ≤ c && c < '\x7f' else text
    if m.folds then text.map Char.toUpper else text
  let o :=
    if m.numeric then compareDecimals (decimalOf a).1 (decimalOf b).1
    else if m.general then compareGeneral a b
    else if m.human then compareHuman a b
    else if m.month then Ord.compare (monthOf a) (monthOf b)
    else if m.version then
      match compareVersions (a.length + b.length + 1) a b with
      | .eq => compareOctets a b
      | o => o
    else compareOctets (kept a) (kept b)
  if m.reverse then o.swap else o

def longOptions : List (String × Char) :=
  [("ignore-leading-blanks", 'b'), ("dictionary-order", 'd'), ("ignore-case", 'f'), ("general-numeric-sort", 'g'),
    ("human-numeric-sort", 'h'), ("ignore-nonprinting", 'i'), ("month-sort", 'M'), ("numeric-sort", 'n'),
    ("reverse", 'r'), ("version-sort", 'V'), ("check", 'c'), ("key", 'k'), ("merge", 'm'), ("output", 'o'),
    ("stable", 's'), ("field-separator", 't'), ("unique", 'u'), ("zero-terminated", 'z')]

def sort (args : List Octets) : Run Int := do
  let r := request ['k', 't', 'o', 'S', 'T'] longOptions args
  if ← unknown? "sort" r "bdfghiMnrRVcCkmosStTuz" then return 2
  let fs ← files
  let unread := r.named.filterMap fun f =>
    match fs.read (Test.pathOf f) with
    | .error e => if f = ['-'] ∨ (descriptorNamed? f).isSome then none else some (f, e)
    | .ok _ => none
  if let (f, e) :: _ := unread then
    grumble "sort" ((if e = .isDirectory then "read failed: " else "cannot read: ").toList ++ fault f e)
    return 2
  let (texts, _) ← sources "sort" r.named
  let overall := r.options.foldl (fun m (c, _) => m.add false c) ({} : Manner)
  let overall := { overall with endBlanks := overall.startBlanks }
  let separator? := (r.value? 't').bind fun t => if t = "\\0".toList then some '\x00' else t.head?
  let keys := (r.options.filter (·.1 = 'k')).map fun (_, text) =>
    let k := key text
    if k.isOwn then k else { k with manner := overall }
  let byKeys (a b : Octets) : Ordering :=
    if keys.isEmpty then { overall with reverse := overall.reverse }.compare a b
    else keys.foldl (fun o k => o.then (k.manner.compare (k.part separator? a) (k.part separator? b))) .eq
  let order (a b : Octets) : Ordering :=
    match byKeys a b with
    | .eq =>
      if r.has 's' ∨ r.has 'u' then .eq
      else
        let o := compareOctets a b
        if overall.reverse then o.swap else o
    | o => o
  let le (a b : Octets) : Bool := order a b != .gt
  let delimiter := if r.has 'z' then '\x00' else '\n'
  let pieces (text : Octets) : List Octets :=
    let all := Text.split (· == delimiter) text
    if all.getLast? = some [] then all.dropLast else all
  let all := texts.flatMap fun t => pieces t.2
  if r.has 'c' ∨ r.has 'C' then
    let disorder := (all.zip all.tail).zipIdx.find? fun ((a, b), _) =>
      order a b == .gt || (r.has 'u' && byKeys a b == .eq)
    match disorder with
    | some ((_, b), i) =>
      if r.has 'c' then
        let name := (r.named.head?).getD ['-']
        grumble "sort" (name ++ ':' :: decimal (i + 2) ++ ": disorder: ".toList ++ b)
      return 1
    | none => return 0
  let sorted := all.mergeSort le
  let once (ls : List Octets) : List Octets :=
    (ls.foldl (fun kept l =>
      match kept with
      | k :: _ => if byKeys k l == .eq then kept else l :: kept
      | [] => [l]) []).reverse
  let out := ((if r.has 'u' then once sorted else sorted).map (· ++ [delimiter])).flatten
  match r.value? 'o' with
  | some file =>
    let fs ← files
    match fs.write (Test.pathOf file) (bytesOf out) (fs.isExecutable (Test.pathOf file)) with
    | .ok fs =>
      setFiles fs
      return 0
    | .error e =>
      grumble "sort" ("open failed: ".toList ++ fault file e)
      return 2
  | none =>
    print out
    return 0

def uniq (args : List Octets) : Run Int := do
  let r := request ['f', 's', 'w'] [("count", 'c'), ("repeated", 'd'), ("unique", 'u'), ("ignore-case", 'i'),
    ("skip-fields", 'f'), ("skip-chars", 's'), ("check-chars", 'w'), ("zero-terminated", 'z')] args
  if ← unknown? "uniq" r "cdDuifswz" then return 1
  let (texts, status) ← sources "uniq" (r.named.take 1)
  if status ≠ 0 then return status
  let part (l : Octets) : Octets :=
    let l := skipFields none ((r.number? 'f').getD 0) l
    let l := l.drop ((r.number? 's').getD 0)
    let l := ((r.number? 'w').map (l.take ·)).getD l
    if r.has 'i' then l.map Char.toLower else l
  let groups := (texts.flatMap fun t => lines t.2).foldl (fun (gs : List (List Octets)) l =>
    match gs with
    | (m :: ms) :: rest => if part m = part l then (l :: m :: ms) :: rest else [l] :: gs
    | gs => [l] :: gs) []
  let groups := (groups.map List.reverse).reverse
  let groups := if r.has 'd' then groups.filter (·.length > 1) else groups
  let groups := if r.has 'u' then groups.filter (·.length == 1) else groups
  let out := if r.has 'D' then (groups.filter (·.length > 1)).flatten
    else groups.map fun g =>
      let l := (g.head?).getD []
      let k := decimal g.length
      if r.has 'c' then List.replicate (7 - k.length) ' ' ++ k ++ ' ' :: l else l
  match r.named[1]? with
  | some file =>
    let fs ← files
    match fs.write (Test.pathOf file) (bytesOf (unlines out)) false with
    | .ok fs => setFiles fs
    | .error e => grumble "uniq" (fault file e)
  | none => print (unlines out)
  return 0

def merged : Nat → List Octets → List Octets → List (Nat × Octets)
  | 0, _, _ => []
  | _, [], bs => bs.map (2, ·)
  | _, as, [] => as.map (1, ·)
  | n + 1, a :: as, b :: bs =>
    if a = b then (3, a) :: merged n as bs
    else if inOrder a b then (1, a) :: merged n as (b :: bs)
    else (2, b) :: merged n (a :: as) bs

def comm (args : List Octets) : Run Int := do
  let r := request [] [] args
  match r.named with
  | [a, b] =>
    match ← source "comm" a, ← source "comm" b with
    | some x, some y =>
      let hidden (k : Nat) : Bool := r.has (Char.ofNat (48 + k))
      let tabs (k : Nat) : Nat :=
        (if k ≥ 2 ∧ !hidden 1 then 1 else 0) + (if k = 3 ∧ !hidden 2 then 1 else 0)
      let all := merged ((lines x).length + (lines y).length + 1) (lines x) (lines y)
      print (all.flatMap fun (k, l) =>
        if hidden k then [] else List.replicate (tabs k) '\t' ++ l ++ ['\n'])
      return 0
    | _, _ => return 1
  | _ =>
    grumble "comm" "missing operand".toList
    return 1

def join (args : List Octets) : Run Int := do
  let r := request ['1', '2', 'j', 't', 'a', 'v', 'o', 'e'] [] args
  match r.named with
  | [a, b] =>
    match ← source "join" a, ← source "join" b with
    | some x, some y =>
      let sep? := (r.value? 't').bind List.head?
      let cells (l : Octets) : List Octets :=
        match sep? with
        | some t => Text.split (· == t) l
        | none => (Text.split isBlank l).filter (· ≠ [])
      let field (c : Char) : Nat := ((r.number? c).or (r.number? 'j')).getD 1 - 1
      let keyed (f : Nat) (l : Octets) : Octets × List Octets :=
        let cs := cells l
        (cs[f]?.getD [], cs.eraseIdx f)
      let xs := (lines x).map (keyed (field '1'))
      let ys := (lines y).map (keyed (field '2'))
      let d := sep?.getD ' '
      let blank := (r.value? 'e').getD []
      let shown (k : Octets) (p q : List Octets) : Octets :=
        match r.value? 'o' with
        | none => Text.join d (k :: p ++ q)
        | some spec =>
          let wanted := (Text.split (fun c => c == ',' || c == ' ') spec).map fun w =>
            if w = ['0'] then k
            else
              let f := ((natural (w.drop 2)).getD 1) - 1
              let own := if w.head? = some '1' then field '1' else field '2'
              let rest := if w.head? = some '1' then p else q
              let cell := if f = own then (if rest.isEmpty ∧ (p.isEmpty ∨ q.isEmpty) then none else some k)
                else if f < own then rest[f]? else rest[f - 1]?
              cell.getD blank
          Text.join d wanted
      let extras := (r.options.filter fun o => o.1 = 'a' ∨ o.1 = 'v').map (·.2)
      let paired := xs.flatMap fun (k, p) =>
        let same := ys.filter (·.1 = k)
        if same.isEmpty then (if ['1'] ∈ extras then [(k, shown k p [])] else [])
        else if r.has 'v' then []
        else same.map fun (_, q) => (k, shown k p q)
      let alone := if ['2'] ∈ extras then
          (ys.filter fun (k, _) => xs.all (·.1 ≠ k)).map fun (k, q) => (k, shown k [] q)
        else []
      let all := (paired ++ alone).mergeSort fun a b => inOrder a.1 b.1
      print (unlines (all.map (·.2)))
      return 0
    | _, _ => return 1
  | _ =>
    grumble "join" "missing operand".toList
    return 1

structure Node where
  name : Octets
  before : Nat
  after : List Octets

def related (nodes : List Node) (a b : Octets) : List Node :=
  let known (nodes : List Node) (x : Octets) : List Node :=
    if nodes.any (·.name == x) then nodes else ⟨x, 0, []⟩ :: nodes
  let nodes := known (known nodes a) b
  if a = b then nodes
  else nodes.map fun n =>
    if n.name = a then { n with after := b :: n.after }
    else if n.name = b then { n with before := n.before + 1 } else n

def freed : Nat → List Octets → List Node → List Octets × List Node
  | 0, queue, nodes => (queue, nodes)
  | _, [], nodes => ([], nodes)
  | n + 1, x :: queue, nodes =>
    let after := ((nodes.find? fun m => m.name = x).map Node.after).getD []
    let (queue, nodes) := after.foldl (fun (queue, nodes) y =>
      let count := ((nodes.find? fun (m : Node) => m.name = y).map Node.before).getD 0
      (if count = 1 then queue ++ [y] else queue,
        nodes.map fun m => if m.name = y then { m with before := m.before - 1 } else m))
      (queue, nodes.filter fun m => m.name ≠ x)
    let (out, nodes) := freed n queue nodes
    (x :: out, nodes)

def tsort (args : List Octets) : Run Int := do
  let (texts, status) ← sources "tsort" args
  let ws := words ((texts.map (·.2)).flatten)
  let rec pairs : List Octets → List (Octets × Octets)
    | a :: b :: rest => (a, b) :: pairs rest
    | _ => []
  if ws.length % 2 = 1 then
    grumble "tsort" (args.headD ['-'] ++ ": input contains an odd number of tokens".toList)
    return 1
  let nodes := (pairs ws).foldl (fun nodes (a, b) => related nodes a b) []
  let free := ((nodes.filter fun n => n.before = 0).map Node.name).mergeSort inOrder
  let (out, left) := freed (nodes.length + 1) free nodes
  print (unlines out)
  if left.isEmpty then return status
  grumble "tsort" (args.headD ['-'] ++ ": input contains a loop:".toList)
  for n in left do grumble "tsort" n.name
  print (unlines (left.map Node.name))
  return 1

def table : List (String × (List Octets → Run Int)) :=
  [("sort", sort), ("uniq", uniq), ("comm", comm), ("join", join), ("tsort", tsort)]

end CMakeHelm.Sh.Tool.Sorting
