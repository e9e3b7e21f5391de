import CMakeHelm.Sh.Regex
import CMakeHelm.Sh.Tool.Request

namespace CMakeHelm.Sh.Tool.Columns

open Run

inductive Part where
  | chars (cs : List Char)
  | fill (c : Char) (count : Option Nat)

def between (a b : Char) : List Char := (List.range (b.toNat + 1 - a.toNat)).map fun i => Char.ofNat (a.toNat + i)

def character : Octets → Option (Char × Octets)
  | '\\' :: cs =>
    match Format.escape .posix cs with
    | ([c], rest) => if c = '\\' ∧ cs.head? ≠ some '\\' then (cs.head?.map (·, cs.tail)).or (some ('\\', [])) else some (c, rest)
    | _ => none
  | c :: cs => some (c, cs)
  | [] => none

def parts : Nat → Octets → List Part
  | 0, _ => []
  | _, [] => []
  | n + 1, '[' :: ':' :: cs =>
    let name := cs.takeWhile (· ≠ ':')
    match CharSet.className? (String.ofList name) with
    | some ranges => .chars (ranges.flatMap fun (a, b) => between a b) :: parts n (cs.drop (name.length + 2))
    | none => .chars ['['] :: parts n (':' :: cs)
  | n + 1, '[' :: '=' :: c :: '=' :: ']' :: cs => .chars [c] :: parts n cs
  | n + 1, cs =>
    let repeated? : Option (Part × Octets) := match cs with
      | '[' :: rest =>
        (character rest).bind fun (c, rest) =>
          match rest with
          | '*' :: rest =>
            let ds := rest.takeWhile Char.isDigit
            match rest.drop ds.length with
            | ']' :: rest =>
              let count := if ds.head? = some '0' then Arithmetic.natural? 8 ds else natural ds
              some (.fill c (if count = some 0 then none else count), rest)
            | _ => none
          | _ => none
      | _ => none
    match repeated? with
    | some (p, rest) => p :: parts n rest
    | none =>
      match character cs with
      | none => []
      | some (a, '-' :: rest) =>
        match character rest with
        | some (b, rest) => .chars (between a b) :: parts n rest
        | none => .chars [a, '-'] :: parts n []
      | some (a, rest) => .chars [a] :: parts n rest

def expand (size : Nat) (text : Octets) : List Char :=
  let ps := parts (text.length + 1) text
  let fixed := (ps.map fun
    | .chars cs => cs.length
    | .fill _ (some k) => k
    | .fill _ none => 0).foldl (· + ·) 0
  ps.flatMap fun
    | .chars cs => cs
    | .fill c (some k) => List.replicate k c
    | .fill c none => List.replicate (size - fixed) c

def squeeze (set : Char → Bool) (text : Octets) : Octets :=
  (text.foldl (fun (out : Octets) c => if set c ∧ out.head? = some c then out else c :: out) []).reverse

def tr (args : List Octets) : Run Int := do
  let (opts, sets) := readOptions [] (shortened [] [("delete", 'd'), ("squeeze-repeats", 's'), ("complement", 'c'),
    ("truncate-set1", 't')] args)
  let has (c : Char) := (opts.lookup c).isSome
  let complement (set : List Char) : List Char :=
    if has 'c' ∨ has 'C' then ((List.range 256).map Char.ofNat).filter (· ∉ set) else set
  let wrong (message : Octets) : Run Int := do
    grumble "tr" message
    return 1
  match sets with
  | [] => wrong "missing operand\nTry 'tr --help' for more information.".toList
  | [wanted] =>
    if !has 'd' ∧ !has 's' then
      return ← wrong ("missing operand after ".toList ++ inQuotes wanted ++
        "\nTwo strings must be given when translating.\nTry 'tr --help' for more information.".toList)
    let set := (complement (expand 0 wanted)).toArray
    let text ← readAll 0
    if has 'd' then print (text.filter fun c => !set.contains c) else print (squeeze set.contains text)
    return 0
  | wanted :: given :: extra =>
    if let some e := extra.head? then return ← wrong ("extra operand ".toList ++ inQuotes e ++
      "\nTry 'tr --help' for more information.".toList)
    let set := complement (expand 0 wanted)
    let images := expand set.length given
    if has 'd' then
      if !has 's' then
        return ← wrong ("extra operand ".toList ++ inQuotes given ++
          "\nOnly one string may be given when deleting without squeezing repeats.\nTry 'tr --help' for more information.".toList)
      let text ← readAll 0
      print (squeeze images.contains (text.filter (· ∉ set)))
      return 0
    if images.isEmpty then return ← wrong "when not truncating set1, string2 must be non-empty".toList
    let last := images.getLast?.getD ' '
    let pairs := (set.zipIdx.filter fun (_, i) => !has 't' || i < images.length).map fun (c, i) => (c, images.getD i last)
    let table := (List.range 256).toArray.map fun k =>
      let c := Char.ofNat k
      (pairs.reverse.lookup c).getD c
    let text ← readAll 0
    let mapped := text.map fun c => table.getD c.toNat c
    print (if has 's' then squeeze images.contains mapped else mapped)
    return 0

def ranges? (list : Octets) : Option (List (Nat × Option Nat)) :=
  (Text.split (fun c => c == ',' || c == ' ') list).mapM fun piece =>
    match Text.split (· == '-') piece with
    | [a] => (natural a).bind fun k => if k = 0 then none else some (k, some k)
    | [a, b] =>
      if a.isEmpty ∧ b.isEmpty then none
      else if a.isEmpty then (natural b).map fun k => (1, some k)
      else if b.isEmpty then (natural a).bind fun k => if k = 0 then none else some (k, none)
      else (natural a).bind fun k => (natural b).bind fun m => if k = 0 ∨ m < k then none else some (k, some m)
    | _ => none

def cut (args : List Octets) : Run Int := do
  let r := request ['d', 'f', 'c', 'b', 'O'] [("delimiter", 'd'), ("fields", 'f'), ("characters", 'c'), ("bytes", 'b'),
    ("only-delimited", 's'), ("complement", 'C'), ("output-delimiter", 'O'), ("zero-terminated", 'z')] args
  let wrong (message : String) : Run Int := do
    grumble "cut" (message.toList ++ "\nTry 'cut --help' for more information.".toList)
    return 1
  let list? := ((r.value? 'f').or (r.value? 'c')).or (r.value? 'b')
  match list? with
  | none => wrong "you must specify a list of bytes, characters, or fields"
  | some list =>
    match ranges? list with
    | none =>
      wrong (if r.has 'f' then "invalid field value" else "invalid byte/character position")
    | some ranges =>
      if (r.value? 'd').any fun d => d.length > 1 then return ← wrong "the delimiter must be a single character"
      if r.has 'd' ∧ !r.has 'f' then
        return ← wrong "an input delimiter may be specified only when operating on fields"
      let (texts, status) ← sources "cut" r.named
      let isChosen (i : Nat) : Bool := (ranges.any fun (a, b) => a ≤ i && (b.all fun b => decide (i ≤ b))) != r.has 'C'
      let select {α : Type} (items : List α) : List α :=
        (items.zipIdx 1).filterMap fun (a, i) => if isChosen i then some a else none
      let d := ((r.value? 'd').bind List.head?).getD (if r.value? 'd' = some [] then '\x00' else '\t')
      let between := (r.value? 'O').getD [d]
      let line (l : Octets) : Option Octets :=
        if r.has 'f' then
          if l.contains d then some (((select (Text.split (· == d) l)).intersperse between).flatten)
          else if r.has 's' then none else some l
        else
          match r.value? 'O' with
          | none => some (select l)
          | some o =>
            let marked := (l.zipIdx 1).filter fun (_, i) => isChosen i
            let runs := marked.foldl (fun (acc : List (List Char) × Nat) (c, i) =>
              if i = acc.2 + 1 ∧ !(ranges.any fun (a, _) => a = i) then (acc.1.modifyHead (c :: ·), i) else ([c] :: acc.1, i)) ([], 0)
            some ((((runs.1.reverse).map List.reverse).intersperse o).flatten)
      print (unlines ((texts.flatMap fun t => lines t.2).filterMap line))
      return status

def rev (args : List Octets) : Run Int := do
  let (texts, status) ← sources "rev" args
  print (unlines ((texts.flatMap fun t => lines t.2).map List.reverse))
  return status

def delimiters : Octets → List Octets
  | '\\' :: 'n' :: cs => ['\n'] :: delimiters cs
  | '\\' :: 't' :: cs => ['\t'] :: delimiters cs
  | '\\' :: '\\' :: cs => ['\\'] :: delimiters cs
  | '\\' :: '0' :: cs => [] :: delimiters cs
  | c :: cs => [c] :: delimiters cs
  | [] => []

def joinedBy (ds : List Octets) (texts : List Octets) : Octets :=
  texts.zipIdx.flatMap fun (t, i) =>
    if i = 0 then t else (if ds.isEmpty then [] else ds.getD ((i - 1) % ds.length) []) ++ t

/-- Columns of lines, where several may come from the standard input in turn. -/
def dealt (sources : List (Option (List Octets))) (shared : List Octets) : Nat → List (List Octets)
  | 0 => []
  | n + 1 =>
    let (row, shared, more) := sources.foldl (fun (acc : List Octets × List Octets × Bool) s =>
      match s with
      | some ls => (acc.1 ++ [ls.head?.getD []], acc.2.1, acc.2.2 || !ls.isEmpty)
      | none => (acc.1 ++ [acc.2.1.head?.getD []], acc.2.1.tail, acc.2.2 || !acc.2.1.isEmpty)) ([], shared, false)
    if more then row :: dealt (sources.map (·.map List.tail)) shared n else []

def paste (args : List Octets) : Run Int := do
  let r := request ['d'] [("delimiters", 'd'), ("serial", 's')] args
  let ds := delimiters ((r.value? 'd').getD ['\t'])
  let named := if r.named.isEmpty then [['-']] else r.named
  let shared ← if named.contains ['-'] then do pure (lines (← readAll 0)) else pure []
  let all ← named.mapM fun f => do
    if f = ['-'] then return some none
    else return (← source "paste" f).map fun t => some (lines t)
  if all.any (·.isNone) then return 1
  let columns : List (Option (List Octets)) := all.filterMap id
  if r.has 's' then
    let (rows, _) := columns.foldl (fun (acc : List Octets × List Octets) c =>
      match c with
      | some ls => (acc.1 ++ [joinedBy ds ls], acc.2)
      | none => (acc.1 ++ [joinedBy ds acc.2], [])) ([], shared)
    print (unlines rows)
  else
    let most := (columns.map fun c => (c.getD shared).length).foldl max 0
    print (unlines ((dealt columns shared (most + 1)).map (joinedBy ds)))
  return 0

def tac (args : List Octets) : Run Int := do
  let (texts, status) ← sources "tac" args
  print (texts.flatMap fun (_, t) =>
    let pieces := Text.split (· == '\n') t
    let ended := pieces.dropLast.map (· ++ ['\n'])
    let last := pieces.getLast?.getD []
    last ++ ended.reverse.flatten)
  return status

def nl (args : List Octets) : Run Int := do
  let r := request ['b', 'w', 's', 'v', 'i', 'n', 'h', 'f', 'd', 'l'] [] args
  let (texts, status) ← sources "nl" r.named
  let style := (r.value? 'b').getD ['t']
  let width := (r.number? 'w').getD 6
  let separator := (r.value? 's').getD ['\t']
  let chosen (l : Octets) : Bool :=
    match style with
    | 'a' :: _ => true
    | 'n' :: _ => false
    | 'p' :: re => ((Regex.parse false re).toOption).any (·.occursIn l)
    | _ => !l.isEmpty
  let shown (k : Nat) : Octets :=
    let ds := decimal k
    match r.value? 'n' with
    | some ('l' :: _) => ds ++ List.replicate (width - ds.length) ' '
    | some ('r' :: 'z' :: _) => List.replicate (width - ds.length) '0' ++ ds
    | _ => List.replicate (width - ds.length) ' ' ++ ds
  let step := (r.number? 'i').getD 1
  let (out, _) := (texts.flatMap fun t => lines t.2).foldl (fun (acc : List Octets × Nat) l =>
    if chosen l then ((shown acc.2 ++ separator ++ l) :: acc.1, acc.2 + step)
    else ((List.replicate (width + separator.length) ' ' ++ l) :: acc.1, acc.2)) ([], (r.number? 'v').getD 1)
  print (unlines out.reverse)
  return status

def folded (width : Nat) (atBlanks : Bool) : Nat → Octets → List Octets
  | 0, l => [l]
  | n + 1, l =>
    if l.length ≤ width then [l]
    else
      let front := l.take width
      let upToBlank := (front.reverse.dropWhile fun c => c ≠ ' ' && c ≠ '\t').reverse
      let front := if atBlanks ∧ !upToBlank.isEmpty then upToBlank else front
      front :: folded width atBlanks n (l.drop front.length)

def fold (args : List Octets) : Run Int := do
  let args := args.map fun a => match a with
    | '-' :: d :: ds => if (d :: ds).all Char.isDigit then '-' :: 'w' :: d :: ds else a
    | a => a
  let r := request ['w'] [("width", 'w'), ("spaces", 's'), ("bytes", 'b')] args
  let (texts, status) ← sources "fold" r.named
  let width := max 1 ((r.number? 'w').getD 80)
  print (texts.flatMap fun (_, t) =>
    let pieces := (Text.split (· == '\n') t).map fun l =>
      ((folded width (r.has 's') (l.length + 1) l).intersperse ['\n']).flatten
    (pieces.intersperse ['\n']).flatten)
  return status

def columnAfter (tab column : Nat) (c : Char) : Nat := if c = '\t' then (column / tab + 1) * tab else column + 1

def expandTabs (args : List Octets) : Run Int := do
  let r := request ['t'] [("tabs", 't'), ("initial", 'i')] args
  let (texts, status) ← sources "expand" r.named
  let tab := max 1 ((r.number? 't').getD 8)
  print (texts.flatMap fun (_, t) =>
    (t.foldl (fun (acc : List Octets × Nat) c =>
      if c = '\n' then (['\n'] :: acc.1, 0)
      else
        let next := columnAfter tab acc.2 c
        ((if c = '\t' then List.replicate (next - acc.2) ' ' else [c]) :: acc.1, next)) ([], 0)).1.reverse.flatten)
  return status

def unexpandTabs (args : List Octets) : Run Int := do
  let r := request ['t'] [("tabs", 't'), ("all", 'a')] args
  let (texts, status) ← sources "unexpand" r.named
  let tab := max 1 ((r.number? 't').getD 8)
  let line (l : Octets) : Octets :=
    let front := l.takeWhile fun c => c == ' ' || c == '\t'
    let width := front.foldl (columnAfter tab) 0
    List.replicate (width / tab) '\t' ++ List.replicate (width % tab) ' ' ++ l.drop front.length
  print (texts.flatMap fun (_, t) => ((Text.split (· == '\n') t).map line |>.intersperse ['\n']).flatten)
  return status

def table : List (String × (List Octets → Run Int)) :=
  [("tr", tr), ("cut", cut), ("rev", rev), ("paste", paste), ("tac", tac), ("nl", nl), ("fold", fold), ("expand", expandTabs), ("unexpand", unexpandTabs)]

end CMakeHelm.Sh.Tool.Columns
