import CMakeHelm.Sh.Regex
import CMakeHelm.Sh.Tool.Request

namespace CMakeHelm.Sh.Tool.Calculation

open Run

inductive Fault where
  | notInteger
  | divisionByZero
  | missing (after : Octets)
  | unexpected (arg : Octets)
  | unclosed (after : Octets)
  | regex (t : Regex.Trouble)
deriving Repr

def Fault.message : Fault → Octets
  | notInteger => "non-integer argument".toList
  | divisionByZero => "division by zero".toList
  | missing after => "syntax error: missing argument after ".toList ++ inQuotes after
  | unexpected arg => "syntax error: unexpected argument ".toList ++ inQuotes arg
  | unclosed after => "syntax error: expecting ')' after ".toList ++ inQuotes after
  | regex t => t.message.toList

def integer? (text : Octets) : Option Int :=
  match text with
  | '-' :: ds => (natural ds).map fun n => -(n : Int)
  | ds => (natural ds).map fun n => (n : Int)

def isNull (text : Octets) : Bool := text.isEmpty || integer? text == some 0

def numbers (a b : Octets) : Except Fault (Int × Int) :=
  match integer? a, integer? b with
  | some x, some y => .ok (x, y)
  | _, _ => .error .notInteger

/-- What of a text a basic expression matches from its start: the first group, or how much. -/
def matched (text pattern : Octets) : Except Fault Octets :=
  match Regex.parse false pattern with
  | .error t => .error (.regex t)
  | .ok r =>
    let t := text.toArray
    let hasGroup := r.groups > 0
    match r.matchAt? t 0 with
    | some m => .ok (if hasGroup then (m.group? t 1).getD [] else decimal (m.stop - m.start))
    | none => .ok (if hasGroup then [] else ['0'])

abbrev Read := Except Fault (Octets × List Octets)

def ranks : List (List String) :=
  [["|"], ["&"], ["<", "<=", "=", "==", "!=", ">=", ">"], ["+", "-"], ["*", "/", "%"], [":"]]

def apply (op : String) (a b : Octets) : Except Fault Octets := do
  let truth (p : Bool) : Octets := if p then ['1'] else ['0']
  let ordered (o : Ordering → Bool) : Octets :=
    truth (o (match integer? a, integer? b with
      | some x, some y => compare x y
      | _, _ => if a = b then .eq else if inOrder a b then .lt else .gt))
  match op with
  | "|" => return if !isNull a then a else if isNull b then ['0'] else b
  | "&" => return if isNull a ∨ isNull b then ['0'] else a
  | "<" => return ordered (· == .lt)
  | "<=" => return ordered (· != .gt)
  | "=" | "==" => return ordered (· == .eq)
  | "!=" => return ordered (· != .eq)
  | ">=" => return ordered (· != .lt)
  | ">" => return ordered (· == .gt)
  | ":" => matched a b
  | op =>
    let (x, y) ← numbers a b
    match op with
    | "+" => return integer (x + y)
    | "-" => return integer (x - y)
    | "*" => return integer (x * y)
    | _ =>
      if y = 0 then .error .divisionByZero
      else return integer (if op = "/" then x.tdiv y else x.tmod y)

mutual

def primary : Nat → Octets → List Octets → Read
  | 0, last, _ => .error (.missing last)
  | _ + 1, last, [] => .error (.missing last)
  | n + 1, _, word :: rest =>
    match String.ofList word, rest with
    | "(", rest => do
      let (v, rest) ← level n 0 word rest
      match rest with
      | [')'] :: rest => return (v, rest)
      | arg :: _ => .error (.unclosed arg)
      | [] => .error (.unclosed v)
    | "+", arg :: rest => .ok (arg, rest)
    | "length", rest => do
      let (v, rest) ← primary n word rest
      return (decimal v.length, rest)
    | "match", rest => do
      let (a, rest) ← primary n word rest
      let (b, rest) ← primary n a rest
      return (← matched a b, rest)
    | "index", rest => do
      let (a, rest) ← primary n word rest
      let (b, rest) ← primary n a rest
      return (decimal (((a.findIdx? (· ∈ b)).map (· + 1)).getD 0), rest)
    | "substr", rest => do
      let (a, rest) ← primary n word rest
      let (b, rest) ← primary n a rest
      let (c, rest) ← primary n b rest
      match integer? b, integer? c with
      | some i, some k => return (if i ≤ 0 ∨ k ≤ 0 then [] else (a.drop (i.toNat - 1)).take k.toNat, rest)
      | _, _ => return ([], rest)
    | ")", _ => .error (.unexpected word)
    | _, rest => .ok (word, rest)

def level : Nat → Nat → Octets → List Octets → Read
  | 0, _, last, _ => .error (.missing last)
  | n + 1, rank, last, args => do
    match ranks[rank]? with
    | none => primary n last args
    | some _ =>
      let (a, rest) ← level n (rank + 1) last args
      operations n rank a rest

def operations : Nat → Nat → Octets → List Octets → Read
  | 0, _, a, _ => .error (.missing a)
  | n + 1, rank, a, args => do
    match args with
    | op :: rest =>
      if String.ofList op ∈ (ranks[rank]?).getD [] then
        let (b, rest) ← level n (rank + 1) op rest
        operations n rank (← apply (String.ofList op) a b) rest
      else return (a, args)
    | [] => return (a, [])

end

def expr (args : List Octets) : Run Int := do
  let args := if args.head? = some ['-', '-'] then args.tail else args
  if args.isEmpty then
    grumble "expr" "missing operand".toList
    let _ ← write 2 "Try 'expr --help' for more information.\n".toList
    return 2
  match level (20 * args.length + 40) 0 [] args with
  | .ok (v, []) =>
    print (v ++ ['\n'])
    return if isNull v then 1 else 0
  | .ok (_, arg :: _) =>
    grumble "expr" (Fault.unexpected arg).message
    return 2
  | .error f =>
    grumble "expr" f.message
    return 2

structure Scaled where
  units : Int
  places : Nat

def scaled? (text : Octets) : Option Scaled :=
  let (negative, ds) := match text with
    | '-' :: ds => (true, ds)
    | '+' :: ds => (false, ds)
    | ds => (false, ds)
  let whole := ds.takeWhile Char.isDigit
  let fraction? : Option Octets := match ds.drop whole.length with
    | [] => some []
    | '.' :: f => if f.all Char.isDigit then some f else none
    | _ => none
  fraction?.bind fun f =>
    if whole.isEmpty ∧ f.isEmpty then none
    else
      let n : Nat := (whole ++ f).foldl (fun n d => 10 * n + (d.toNat - 48)) 0
      some ⟨if negative then -(n : Int) else n, f.length⟩

def Scaled.at (s : Scaled) (places : Nat) : Int := s.units * (Nat.pow 10 (places - s.places) : Nat)

def shown (units : Int) (places : Nat) : Octets :=
  let ds := Nat.toDigits 10 units.natAbs
  let ds := List.replicate (places + 1 - ds.length) '0' ++ ds
  (if units < 0 then ['-'] else []) ++ ds.take (ds.length - places) ++
    if places = 0 then [] else '.' :: ds.drop (ds.length - places)

def zeroPadded (width : Nat) (text : Octets) : Octets :=
  match text with
  | '-' :: ds => '-' :: List.replicate (width - text.length) '0' ++ ds
  | ds => List.replicate (width - ds.length) '0' ++ ds

def seqOptions : Nat → List (Char × Octets) → List Octets → List (Char × Octets) × List Octets
  | 0, os, args => (os, args)
  | n + 1, os, args =>
    match args with
    | ['-', 's'] :: v :: rest => seqOptions n (('s', v) :: os) rest
    | ('-' :: 's' :: v) :: rest => seqOptions n (('s', v) :: os) rest
    | ['-', 'f'] :: v :: rest => seqOptions n (('f', v) :: os) rest
    | ('-' :: 'f' :: v) :: rest => seqOptions n (('f', v) :: os) rest
    | ['-', 'w'] :: rest => seqOptions n (('w', []) :: os) rest
    | ['-', '-'] :: rest => (os, rest)
    | args => (os, args)

def seq (args : List Octets) : Run Int := do
  let args := shortened ['s', 'f'] [("separator", 's'), ("format", 'f'), ("equal-width", 'w')] args
  let (opts, args) := seqOptions (args.length + 1) [] args
  let wrong (message : Octets) : Run Int := do
    grumble "seq" message
    let _ ← write 2 "Try 'seq --help' for more information.\n".toList
    return 1
  if args.isEmpty then return ← wrong "missing operand".toList
  if let some extra := args[3]? then return ← wrong ("extra operand ".toList ++ inQuotes extra)
  match args.find? fun a => (scaled? a).isNone with
  | some a => wrong ("invalid floating point argument: ".toList ++ inQuotes a)
  | none =>
    let ns := args.filterMap scaled?
    let one : Scaled := ⟨1, 0⟩
    let (first, step, last) := match ns with
      | [last] => (one, one, last)
      | [first, last] => (first, one, last)
      | [first, step, last] => (first, step, last)
      | _ => (one, one, one)
    if step.units = 0 then
      return ← wrong ("invalid Zero increment value: ".toList ++ inQuotes (args[1]?.getD []))
    let places := max first.places step.places
    let fine := max places last.places
    let (a, b, c) := (first.at fine, step.at fine, last.at fine)
    let count := ((c - a).fdiv b + 1).toNat
    let coarse (n : Int) : Int := n / (Nat.pow 10 (fine - places) : Nat)
    let values := (List.range count).map fun (i : Nat) => coarse (a + b * i)
    let texts := values.map fun v => shown v places
    let texts := match opts.lookup 'f' with
      | some format => texts.map fun t => (Format.printf .tool format [t]).out
      | none =>
        if (opts.lookup 'w').isSome then
          let width := (texts.map List.length).foldl max 0
          let width := max width (shown (coarse a) places).length
          texts.map (zeroPadded width)
        else texts
    if !texts.isEmpty then
      print ((texts.intersperse ((opts.lookup 's').getD ['\n'])).flatten ++ ['\n'])
    return 0

def factors : Nat → (n d : Nat) → List Nat
  | 0, n, _ => [n]
  | fuel + 1, n, d =>
    if n < 2 then []
    else if d * d > n then [n]
    else if n % d = 0 then d :: factors fuel (n / d) d
    else factors fuel n (d + 1)

def factor (args : List Octets) : Run Int := do
  let args ← if args.isEmpty then do pure (words (← readAll 0)) else pure args
  let mut status : Int := 0
  for a in args do
    match natural a with
    | some n => print (decimal n ++ ':' :: (factors 100000 n 2).flatMap (fun p => ' ' :: decimal p) ++ ['\n'])
    | none =>
      grumble "factor" (inQuotes a ++ " is not a valid positive integer".toList)
      status := 1
  return status

/-- A number with a unit of thousands, rounded up; below ten it has one decimal place. -/
def withUnit (base : Nat) (suffix : Octets) (n : Nat) : Octets :=
  let units := "KMGTPE".toList
  let power := ((List.range 7).filter fun k => Nat.pow base k ≤ n).getLast?.getD 0
  if power = 0 then decimal n
  else
    let size := Nat.pow base power
    let tenths := (n * 10 + size - 1) / size
    let whole := (n + size - 1) / size
    let text := if tenths < 100 then decimal (tenths / 10) ++ '.' :: decimal (tenths % 10) else decimal whole
    text ++ [units.getD (power - 1) 'K'] ++ suffix

def ofUnit? (base : Nat) (text : Octets) : Option Nat :=
  let text := if text.getLast? = some 'i' then text.dropLast else text
  match text.getLast? with
  | some c =>
    match "KMGTPE".toList.findIdx? (· == c) with
    | some k => (scaled? text.dropLast).map fun s => (s.units.toNat * Nat.pow base (k + 1)) / Nat.pow 10 s.places
    | none => natural text
  | none => none

def numfmt (args : List Octets) : Run Int := do
  let r := request ['t', 'f'] [("to", 't'), ("from", 'f')] args
  let named ← if r.named.isEmpty then do pure (words (← readAll 0)) else pure r.named
  let base (c : Char) : Nat := if (r.value? c).any fun v => v.take 3 = "iec".toList then 1024 else 1000
  for a in named do
    let n? := if r.has 'f' then ofUnit? (base 'f') a else natural a
    match n? with
    | some n =>
      let suffix := if r.value? 't' = some "iec-i".toList then ['i'] else []
      print ((if r.has 't' then withUnit (base 't') suffix n else decimal n) ++ ['\n'])
    | none =>
      grumble "numfmt" ("invalid number: ".toList ++ inQuotes a)
      return 2
  return 0

def table : List (String × (List Octets → Run Int)) :=
  [("expr", expr), ("seq", seq), ("factor", factor), ("numfmt", numfmt)]

end CMakeHelm.Sh.Tool.Calculation
