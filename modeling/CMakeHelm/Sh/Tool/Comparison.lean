import CMakeHelm.Sh.Tool.Calendar

namespace CMakeHelm.Sh.Tool.Comparison

open Run

def cmp (args : List Octets) : Run Int := do
  let r := request ['n', 'i'] [("quiet", 's'), ("silent", 's'), ("verbose", 'l'), ("print-bytes", 'b'), ("bytes", 'n')] args
  match r.named with
  | [] =>
    grumble "cmp" "missing operand after 'cmp'".toList
    return 2
  | first :: more =>
    let second := more.head?.getD ['-']
    let some x ← source "cmp" first | return 2
    let some y ← source "cmp" second | return 2
    let (x, y) := match r.number? 'n' with
      | some k => (x.take k, y.take k)
      | none => (x, y)
    let pairs := x.zip y
    if r.has 'l' then
      let octal (c : Char) : Octets :=
        let ds := Nat.toDigits 8 c.toNat
        List.replicate (3 - ds.length) ' ' ++ ds
      let width := (decimal (max x.length y.length)).length
      let differing := pairs.zipIdx.filter fun ((a, b), _) => a ≠ b
      print (differing.flatMap fun ((a, b), i) =>
        let place := decimal (i + 1)
        List.replicate (width - place.length) ' ' ++ place ++ ' ' :: octal a ++ ' ' :: octal b ++ ['\n'])
    match pairs.findIdx? fun (a, b) => a ≠ b with
    | some i =>
      if !r.has 's' ∧ !r.has 'l' then
        let line := (x.take i).count '\n' + 1
        print (first ++ ' ' :: second ++ " differ: char ".toList ++ decimal (i + 1) ++ ", line ".toList ++
          decimal line ++ ['\n'])
      return 1
    | none =>
      if x.length = y.length then return 0
      let (short, text) := if x.length < y.length then (first, x) else (second, y)
      if !r.has 's' then
        if r.has 'l' then grumble "cmp" ("EOF on ".toList ++ short ++ " after byte ".toList ++ decimal text.length)
        else if text.isEmpty then grumble "cmp" ("EOF on ".toList ++ short ++ " which is empty".toList)
        else
          let count := text.count '\n'
          let place := if text.getLast? = some '\n' then "line ".toList ++ decimal count
            else "in line ".toList ++ decimal (count + 1)
          grumble "cmp" ("EOF on ".toList ++ short ++ " after byte ".toList ++ decimal text.length ++ ", ".toList ++ place)
      return 1

inductive Piece where
  | kept
  | taken
  | given
deriving DecidableEq

/-- How many elements two lists can have in common, for all their ends. Row `i` is about the first
list without its first `i` elements. -/
def commonLengths (same : Octets → Octets → Bool) (xs ys : List Octets) : List (Array Nat) :=
  let size := ys.length
  let reversed := ys.zipIdx.reverse
  xs.foldr (fun x rows =>
    let below := rows.headD (Array.replicate (size + 1) 0)
    let row := reversed.foldl (fun (row : Array Nat) (y, j) =>
      let after := row.getD (j + 1) 0
      let best := if same x y then below.getD (j + 1) 0 + 1 else max (below.getD j 0) after
      row.set! j best) (Array.replicate (size + 1) 0)
    row :: rows) [Array.replicate (size + 1) 0]

/-- A shortest way from one list to the other, which takes lines out before it puts others in. -/
def way (same : Octets → Octets → Bool) : List (Array Nat) → Nat → List Octets → List Octets → List Piece
  | _, _, [], ys => ys.map fun _ => .given
  | _, _, x :: xs, [] => (x :: xs).map fun _ => .taken
  | rows, j, x :: xs, y :: ys =>
    if same x y then .kept :: way same rows.tail (j + 1) xs ys
    else
      let here := rows.headD #[]
      let below := rows.tail.headD #[]
      if below.getD j 0 ≥ here.getD (j + 1) 0 then .taken :: way same rows.tail j xs (y :: ys)
      else .given :: way same rows (j + 1) (x :: xs) ys
termination_by _ _ xs ys => xs.length + ys.length

structure Change where
  first : Nat
  taken : Nat
  second : Nat
  given : Nat
deriving Inhabited

def changes (pieces : List Piece) : List Change :=
  let step (acc : List Change × Nat × Nat × Bool) (p : Piece) : List Change × Nat × Nat × Bool :=
    let (out, i, j, inside) := acc
    let start : Change := ⟨i, 0, j, 0⟩
    let current := if inside then out.headD start else start
    let rest := if inside then out.tail else out
    match p with
    | .kept => (out, i + 1, j + 1, false)
    | .taken => ({ current with taken := current.taken + 1 } :: rest, i + 1, j, true)
    | .given => ({ current with given := current.given + 1 } :: rest, i, j + 1, true)
  (pieces.foldl step ([], 0, 0, false)).1.reverse

def withEnd (text : Octets) : List (Octets × Bool) :=
  let ls := lines text
  let ended := text.isEmpty || text.getLast? = some '\n'
  ls.zipIdx.map fun (l, i) => (l, ended || i + 1 < ls.length)

def marked (mark : Octets) (ls : List (Octets × Bool)) : Octets :=
  ls.flatMap fun (l, ended) =>
    mark ++ l ++ (if ended then ['\n'] else "\n\\ No newline at end of file\n".toList)

def span (start count : Nat) : Octets :=
  if count = 0 then decimal start
  else if count = 1 then decimal (start + 1)
  else decimal (start + 1) ++ ',' :: decimal (start + count)

def plain (xs ys : List (Octets × Bool)) (cs : List Change) : Octets :=
  cs.flatMap fun c =>
    let letter := if c.taken = 0 then 'a' else if c.given = 0 then 'd' else 'c'
    span c.first c.taken ++ letter :: span c.second c.given ++ ['\n'] ++
      marked ['<', ' '] ((xs.drop c.first).take c.taken) ++
      (if letter = 'c' then "---\n".toList else []) ++
      marked ['>', ' '] ((ys.drop c.second).take c.given)

def gathered (context : Nat) (cs : List Change) : List (List Change) :=
  let step (acc : List (List Change)) (c : Change) : List (List Change) :=
    match acc with
    | (last :: group) :: rest =>
      if c.first - (last.first + last.taken) ≤ 2 * context then (c :: last :: group) :: rest else [c] :: acc
    | _ => [c] :: acc
  (cs.foldl step []).reverse.map List.reverse

def unifiedSpan (start count : Nat) : Octets :=
  if count = 0 then decimal start ++ ",0".toList
  else if count = 1 then decimal (start + 1)
  else decimal (start + 1) ++ ',' :: decimal count

def unified (context : Nat) (xs ys : List (Octets × Bool)) (cs : List Change) : Octets :=
  (gathered context cs).flatMap fun group =>
    let head := group.headD default
    let last := group.getLastD default
    let before := min context head.first
    let behind := min context (xs.length - (last.first + last.taken))
    let start := head.first - before
    let startY := head.second - before
    let count := last.first + last.taken + behind - start
    let countY := last.second + last.given + behind - startY
    let body := group.foldl (fun (acc : Octets × Nat) c =>
      (acc.1 ++ marked [' '] ((xs.drop acc.2).take (c.first - acc.2)) ++
        marked ['-'] ((xs.drop c.first).take c.taken) ++ marked ['+'] ((ys.drop c.second).take c.given),
        c.first + c.taken)) ([], start)
    "@@ -".toList ++ unifiedSpan start count ++ " +".toList ++ unifiedSpan startY countY ++ " @@\n".toList ++ body.1 ++
      marked [' '] ((xs.drop body.2).take behind)

structure Style where
  brief : Bool
  alike : Bool
  unified : Option Nat
  same : Octets → Octets → Bool

def compareTexts (s : Style) (first second x y : Octets) (header : Octets) : Run Int := do
  let xs := withEnd x
  let ys := withEnd y
  let same (a b : Octets) : Bool := s.same a b
  let keys (ls : List (Octets × Bool)) : List Octets := ls.map fun (l, ended) => if ended then l else l ++ ['\n']
  let pieces := way same (commonLengths same (keys xs) (keys ys)) 0 (keys xs) (keys ys)
  let cs := changes pieces
  if cs.isEmpty then
    if s.alike then print ("Files ".toList ++ first ++ " and ".toList ++ second ++ " are identical\n".toList)
    return 0
  if s.brief then print ("Files ".toList ++ first ++ " and ".toList ++ second ++ " differ\n".toList)
  else
    match s.unified with
    | some context => print (header ++ unified context xs ys cs)
    | none => print (header ++ plain xs ys cs)
  return 1

def timeOf (file : Octets) : Run Octets := do
  let fs ← files
  let stamps := (← get).stamps
  let t := match fs.locate (Test.pathOf file) with
    | .ok (l, _) => stamps.lookup l
    | .error _ => none
  return Calendar.stampText (t.getD 0)

def inDirectory (dir name : Octets) : Octets := dir ++ (if dir.getLast? = some '/' then [] else ['/']) ++ name

def compareFiles (s : Style) (command first second : Octets) (missingIsEmpty : Bool) : Run Int := do
  let fs ← files
  let absent (f : Octets) : Bool := missingIsEmpty && !fs.exists? (Test.pathOf f) && f ≠ ['-']
  let x? ← if absent first then pure (some []) else source "diff" first
  let y? ← if absent second then pure (some []) else source "diff" second
  match x?, y? with
  | some x, some y =>
    let header ← if s.unified.isSome then do
        pure ("--- ".toList ++ first ++ '\t' :: (← timeOf first) ++ "\n+++ ".toList ++ second ++ '\t' :: (← timeOf second) ++ ['\n'])
      else pure []
    compareTexts s first second x y (command ++ header)
  | _, _ => return 2

def compareTrees (s : Style) (options : Octets) (deep new : Bool) : Nat → Octets → Octets → Run Int
  | 0, _, _ => return 2
  | n + 1, first, second => do
    let fs ← files
    let namesOf (dir : Octets) : List Octets :=
      match fs.locate (Test.pathOf dir) with
      | .ok (l, .directory) => fs.names l
      | _ => []
    let all := (namesOf first ++ namesOf second).mergeSort inOrder |>.eraseDups
    let mut status : Int := 0
    for name in all do
      let a := inDirectory first name
      let b := inDirectory second name
      let isDir (f : Octets) : Bool := fs.isDirectory (Test.pathOf f)
      let there (f : Octets) : Bool := fs.exists? (Test.pathOf f)
      if !there a ∧ !new then
        print ("Only in ".toList ++ second ++ ": ".toList ++ name ++ ['\n'])
        status := max status 1
      else if !there b ∧ !new then
        print ("Only in ".toList ++ first ++ ": ".toList ++ name ++ ['\n'])
        status := max status 1
      else if (isDir a || !there a) ∧ (isDir b || !there b) then
        if deep then status := max status (← compareTrees s options deep new n a b)
        else print ("Common subdirectories: ".toList ++ a ++ " and ".toList ++ b ++ ['\n'])
      else
        let command := if s.brief then [] else
          "diff ".toList ++ options ++ a ++ ' ' :: b ++ ['\n']
        status := max status (← compareFiles s command a b new)
    return status

def diff (args : List Octets) : Run Int := do
  let r := request ['U'] [("brief", 'q'), ("unified", 'u'), ("report-identical-files", 's'), ("ignore-case", 'i'),
    ("ignore-all-space", 'w'), ("ignore-space-change", 'b'), ("recursive", 'r'), ("new-file", 'N'),
    ("ignore-trailing-space", 'Z')] args
  match r.named with
  | [first, second] =>
    let squeezed (l : Octets) : Octets := ((words l).intersperse [' ']).flatten
    let trimmed (l : Octets) : Octets := (l.reverse.dropWhile Arithmetic.isWhite).reverse
    let key (l : Octets) : Octets :=
      let l := if r.has 'i' then l.map Char.toLower else l
      if r.has 'w' then (words l).flatten
      else if r.has 'b' then
        (if l.head?.any Arithmetic.isWhite then [' '] else []) ++ squeezed l
      else if r.has 'Z' then trimmed l
      else l
    let context := match r.value? 'U' with
      | some k => natural k
      | none =>
        let digits := (r.options.map (·.1)).filter Char.isDigit
        if r.has 'u' then some ((natural digits).getD 3) else none
    let style : Style := { brief := r.has 'q', alike := r.has 's', unified := context, same := fun a b => key a == key b }
    let fs ← files
    let isDir (f : Octets) : Bool := fs.isDirectory (Test.pathOf f)
    match isDir first, isDir second with
    | true, true =>
      let options := (args.filter fun a => a.head? = some '-').flatMap (· ++ [' '])
      compareTrees style options (r.has 'r') (r.has 'N') 64 first second
    | true, false => compareFiles style [] (inDirectory first (lastName second)) second (r.has 'N')
    | false, true => compareFiles style [] first (inDirectory second (lastName first)) (r.has 'N')
    | false, false => compareFiles style [] first second (r.has 'N')
  | named =>
    grumble "diff" (match named.getLast? with
      | none => "missing operand after 'diff'".toList
      | some last => (if named.length = 1 then "missing operand after " else "extra operand ").toList ++ inQuotes last)
    let _ ← write 2 "diff: Try 'diff --help' for more information.\n".toList
    return 2

def table : List (String × (List Octets → Run Int)) := [("cmp", cmp), ("diff", diff)]

end CMakeHelm.Sh.Tool.Comparison
