import CMakeHelm.Sh.Tool.Request

namespace CMakeHelm.Sh.Tool.Printing

open Run

def visible (c : Char) : Octets :=
  let low (n : Nat) : Octets := if n < 32 then ['^', Char.ofNat (n + 64)] else if n = 127 then ['^', '?'] else [Char.ofNat n]
  if c = '\n' ∨ c = '\t' then [c]
  else if c.toNat ≥ 128 then ['M', '-'] ++ low (c.toNat - 128)
  else low c.toNat

def decorated (r : Request) (first : Nat) (text : Octets) : Octets × Nat :=
  let has (c : Char) : Bool := r.has c
  let ends := has 'E' || has 'A' || has 'e'
  let tabs := has 'T' || has 'A' || has 't'
  let shows := has 'v' || has 'A' || has 'e' || has 't'
  let pieces := Text.split (· == '\n') text
  let hasRest := pieces.getLast? ≠ some []
  let all := (pieces.dropLast.map (·, true)) ++ if hasRest then [(pieces.getLast?.getD [], false)] else []
  let step (acc : List Octets × Nat × Bool) (line : Octets × Bool) : List Octets × Nat × Bool :=
    let (out, k, wasEmpty) := acc
    let (l, ended) := line
    if has 's' ∧ l.isEmpty ∧ wasEmpty then acc
    else
      let numbers := if has 'b' then !l.isEmpty else has 'n'
      let front := if numbers then List.replicate (6 - (decimal k).length) ' ' ++ decimal k ++ ['\t'] else []
      let l' := if shows then l.flatMap visible else l
      let l' := if tabs then l'.flatMap fun c => if c = '\t' then ['^', 'I'] else [c] else l'
      let ending := if ended then (if ends then ['$', '\n'] else ['\n']) else []
      ((front ++ l' ++ ending) :: out, if numbers then k + 1 else k, l.isEmpty)
  let (out, k, _) := all.foldl step ([], first, false)
  (out.reverse.flatten, k)

def cat (args : List Octets) : Run Int := do
  let r := request [] [("number", 'n'), ("number-nonblank", 'b'), ("squeeze-blank", 's'), ("show-all", 'A'),
    ("show-ends", 'E'), ("show-tabs", 'T'), ("show-nonprinting", 'v')] args
  if ← unknown? "cat" r "nbsAETvetu" then return 1
  let all := if r.named.isEmpty then [['-']] else r.named
  let mut status := 0
  let mut count := 1
  for f in all do
    match ← source "cat" f with
    | some text =>
      if r.options.isEmpty then print text
      else
        let (out, k) := decorated r count text
        print out
        count := k
    | none => status := 1
  return status

def portion (first : Bool) (opts : List (Char × Octets)) (text : Octets) : Octets :=
  let amount (cs : Octets) (size : Nat) : Nat :=
    match cs with
    | '+' :: cs => if first then (natural cs).getD 0 else size - ((natural cs).getD 1 - 1)
    | '-' :: cs => if first then size - (natural cs).getD 0 else (natural cs).getD 0
    | cs => (natural cs).getD 0
  match opts.lookup 'c' with
  | some count =>
    let k := amount count text.length
    if first then text.take k else text.drop (text.length - k)
  | none =>
    let pieces := (lines text).map (· ++ ['\n'])
    let pieces :=
      if text.getLast? = some '\n' then pieces
      else pieces.dropLast ++ (pieces.getLast?.map List.dropLast).toList
    let k := amount ((opts.lookup 'n').getD ['1', '0']) pieces.length
    (if first then pieces.take k else pieces.drop (pieces.length - k)).flatten

def shortCount : List Octets → List Octets
  | ('-' :: d :: ds) :: rest =>
    if (d :: ds).all Char.isDigit then ['-', 'n'] :: (d :: ds) :: rest else ('-' :: d :: ds) :: rest
  | args => args

def headOrTail (tool : String) (first : Bool) (args : List Octets) : Run Int := do
  let r := request ['n', 'c'] [("lines", 'n'), ("bytes", 'c'), ("quiet", 'q'), ("verbose", 'v')] (shortCount args)
  if ← unknown? tool r "ncqvfFzs" then return 1
  let opts := r.options
  let amount := (opts.reverse.find? fun o => o.1 = 'n' ∨ o.1 = 'c').map (·.2)
  let digits := (amount.map fun a => if a.head? ∈ [some '-', some '+'] then a.tail else a).getD ['1']
  if (natural digits).isNone then
    grumble tool ("invalid number of ".toList ++ (if r.has 'c' then "bytes: " else "lines: ").toList ++
      inQuotes (amount.getD []))
    return 1
  let opts := opts.filter fun o => o.1 = 'n' ∨ o.1 = 'c'
  let mut status : Int := 0
  let mut texts : List (Octets × Octets) := []
  for f in if r.named.isEmpty then [['-']] else r.named do
    if f = ['-'] then texts := texts ++ [("standard input".toList, ← readAll 0)]
    else
      match ← readNamed f with
      | .ok content => texts := texts ++ [(f, content)]
      | .error e =>
        if e = .isDirectory then
          grumble tool ("error reading ".toList ++ inQuotes f ++ ": Is a directory".toList)
          status := 1
        else
          grumble tool ("cannot open ".toList ++ inQuotes f ++ " for reading: ".toList ++ e.text.toList)
          status := 1
  let shows := (r.named.length > 1 ∨ r.has 'v') ∧ !r.has 'q'
  if !shows then print (texts.flatMap fun t => portion first opts t.2)
  else
    print (((texts.map fun (f, t) => "==> ".toList ++ f ++ " <==\n".toList ++ portion first opts t).intersperse
      ['\n']).flatten)
  return status

def widest (text : Octets) : Nat :=
  let width (l : Octets) : Nat := l.foldl (fun k c => if c = '\t' then (k / 8 + 1) * 8 else if c < ' ' then k else k + 1) 0
  ((lines text).map width).foldl max 0

def wc (args : List Octets) : Run Int := do
  let r := request [] [("lines", 'l'), ("words", 'w'), ("bytes", 'c'), ("chars", 'm'), ("max-line-length", 'L')] args
  if ← unknown? "wc" r "lwcmL" then return 1
  let (texts, status) ← sources "wc" r.named
  let wanted := if r.options.isEmpty then ['l', 'w', 'c'] else r.options.map (·.1)
  let counts (text : Octets) : List Nat :=
    let all := [('l', text.count '\n'), ('w', (words text).length), ('m', (textOf text).length), ('c', text.length),
      ('L', widest text)]
    (all.filter fun (c, _) => c ∈ wanted).map (·.2)
  let rows := texts.map fun (f, t) => (counts t, if r.named.isEmpty then [] else f)
  let whole := (texts.map (·.2)).flatten
  let total := (counts whole).zipIdx.map fun (n, i) =>
    if wanted.contains 'L' ∧ i + 1 = (counts whole).length then (rows.map fun row => row.1.getD i 0).foldl max 0 else n
  let rows := if r.named.length > 1 then rows ++ [(total, "total".toList)] else rows
  let width :=
    if rows.all (·.1.length == 1) ∧ r.named.length ≤ 1 then 1
    else if r.named.isEmpty ∨ ['-'] ∈ r.named then 7
    else (decimal whole.length).length
  let cell (n : Nat) := List.replicate (width - (decimal n).length) ' ' ++ decimal n
  for (ns, name) in rows do
    print (((ns.map cell).intersperse [' ']).flatten ++ (if name.isEmpty then [] else ' ' :: name) ++ ['\n'])
  return status

/-- As far as a reader that stops early can tell, the lines go on for ever. -/
def yes (args : List Octets) : Run Int := do
  let line := if args.isEmpty then ['y'] else Format.spaced args
  print (List.replicate 200000 (line ++ ['\n'])).flatten
  return 141

def table : List (String × (List Octets → Run Int)) :=
  [("cat", cat), ("head", headOrTail "head" true), ("tail", headOrTail "tail" false), ("wc", wc), ("yes", yes)]

end CMakeHelm.Sh.Tool.Printing
