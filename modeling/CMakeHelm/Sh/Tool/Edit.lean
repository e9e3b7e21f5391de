import CMakeHelm.Sh.Pattern
import CMakeHelm.Sh.Tool.Request

namespace CMakeHelm.Sh.Tool.Edit

open Run

/-- Without an expression, the one that was used last is meant. -/
abbrev Search := Option Regex

inductive Address where
  | line (n : Nat)
  | last
  | search (r : Search)
  | step (first by_ : Nat)
  | later (n : Nat)
  | multiple (n : Nat)

inductive Letters where
  | upper | lower | plain | upperNext | lowerNext
deriving DecidableEq, Repr

inductive Piece where
  | text (cs : Octets)
  | group (n : Nat)
  | letters (l : Letters)

structure Substitution where
  search : Search
  new : List Piece
  all : Bool := false
  number : Nat := 1
  prints : Bool := false
  file : Option Octets := none

inductive Action where
  | nothing
  | block (after : Nat)
  | substitute (s : Substitution)
  | translate (pairs : List (Char × Char))
  | print | printFirst | delete | deleteFirst
  | quit (status : Nat) (silent : Bool)
  | append (text : Octets)
  | insert (text : Octets)
  | change (text : Octets)
  | next | nextToo
  | fetch | fetchToo | keep | keepToo | exchange
  | show_ | number | name | empty
  | branch (label : Octets) | branchIf (label : Octets) | branchUnless (label : Octets)
  | label (name : Octets)
  | read (file : Octets) | write (file : Octets) | writeFirst (file : Octets)

structure Step where
  first : Option Address := none
  second : Option Address := none
  negated : Bool := false
  action : Action

structure Trouble where
  message : String
  left : Nat

def trouble {α : Type} (message : String) (rest : Octets) : Except Trouble α := .error ⟨message, rest.length⟩

def blanks (cs : Octets) : Octets := cs.dropWhile Arithmetic.isWhite

/-- The text up to a delimiter. A backslash protects it; other escapes are kept, but for a line feed. -/
def delimited? (d : Char) (isRegex : Bool) : Nat → (inSet : Bool) → Octets → Option (Octets × Octets)
  | 0, _, _ => none
  | _, _, [] => none
  | n + 1, inSet, '\\' :: c :: cs =>
    if inSet then (delimited? d isRegex n inSet (c :: cs)).map fun (t, r) => ('\\' :: t, r)
    else if c = d then (delimited? d isRegex n inSet cs).map fun (t, r) =>
      (if isRegex ∧ d ∉ ".[]\\()*+?\x7b\x7d|^$".toList then c :: t
        else if isRegex ∧ d ∈ ['|', '+', '?', '(', ')', '\x7b', '\x7d'] then c :: t
        else if isRegex then '\\' :: c :: t else if c = '&' then '\\' :: c :: t else c :: t, r)
    else (delimited? d isRegex n inSet cs).map fun (t, r) => ('\\' :: c :: t, r)
  | n + 1, inSet, c :: cs =>
    if c = d ∧ !inSet then some ([], cs)
    else if c = '\n' ∧ isRegex ∧ !inSet then none
    else
      let inSet' := isRegex && (if inSet then c ≠ ']' else c = '[')
      match isRegex && !inSet && c = '[', cs with
      | true, '^' :: ']' :: cs => (delimited? d isRegex n true cs).map fun (t, r) => ('[' :: '^' :: ']' :: t, r)
      | true, ']' :: cs => (delimited? d isRegex n true cs).map fun (t, r) => ('[' :: ']' :: t, r)
      | _, _ => (delimited? d isRegex n inSet' cs).map fun (t, r) => (c :: t, r)

def delimited (d : Char) (isRegex : Bool) (cs : Octets) : Option (Octets × Octets) :=
  delimited? d isRegex (cs.length + 1) false cs

def search (extended folds : Bool) (text rest : Octets) : Except Trouble Search :=
  if text.isEmpty then .ok none
  else
    match Regex.parse extended text with
    | .ok r => .ok (some (if folds then r.folded else r))
    | .error t => trouble t.message rest

def number (cs : Octets) : Nat × Octets :=
  let ds := cs.takeWhile Char.isDigit
  ((natural ds).getD 0, cs.drop ds.length)

def address? (extended : Bool) (cs : Octets) : Except Trouble (Option Address × Octets) := do
  let within (d : Char) (rest : Octets) : Except Trouble (Option Address × Octets) := do
    match delimited d true rest with
    | none => trouble "unterminated address regex" []
    | some (text, rest) =>
      let folds := rest.head? = some 'I'
      let rest := rest.dropWhile fun c => c == 'I' || c == 'M'
      return (some (.search (← search extended folds text rest)), rest)
  match cs with
  | '/' :: rest => within '/' rest
  | '\\' :: d :: rest => within d rest
  | '$' :: rest => return (some .last, rest)
  | c :: _ =>
    if c.isDigit then
      let (n, rest) := number cs
      match blanks rest with
      | '~' :: more => let (k, rest) := number more; return (some (.step n k), rest)
      | _ => return (some (.line n), rest)
    else return (none, cs)
  | [] => return (none, [])

def secondAddress (extended : Bool) (cs : Octets) : Except Trouble (Option Address × Octets) := do
  match cs with
  | '+' :: rest => let (n, rest) := number rest; return (some (.later n), rest)
  | '~' :: rest => let (n, rest) := number rest; return (some (.multiple n), rest)
  | cs =>
    let (a, rest) ← address? extended cs
    if a.isNone then trouble "unexpected \x60,'" rest
    return (a, rest)

def pieces : Nat → Octets → List Piece
  | 0, _ => []
  | _, [] => []
  | n + 1, '\\' :: c :: cs =>
    let rest := pieces n cs
    if c.isDigit then .group (c.toNat - 48) :: rest
    else
      match c with
      | 'n' => .text ['\n'] :: rest
      | 't' => .text ['\t'] :: rest
      | 'U' => .letters .upper :: rest
      | 'L' => .letters .lower :: rest
      | 'E' => .letters .plain :: rest
      | 'u' => .letters .upperNext :: rest
      | 'l' => .letters .lowerNext :: rest
      | c => .text [c] :: rest
  | n + 1, '&' :: cs => .group 0 :: pieces n cs
  | n + 1, c :: cs => .text [c] :: pieces n cs

def flags (s : Substitution) : Nat → (folds : Bool) → Octets → Except Trouble (Substitution × Bool × Octets)
  | 0, _, rest => trouble "unknown option to \x60s'" rest
  | n + 1, folds, cs =>
    match cs with
    | 'g' :: rest => flags { s with all := true } n folds rest
    | 'p' :: rest => flags { s with prints := true } n folds rest
    | 'i' :: rest | 'I' :: rest => flags s n true rest
    | 'M' :: rest | 'm' :: rest | 'e' :: rest => flags s n folds rest
    | 'w' :: rest =>
      let file := (blanks rest).takeWhile (· ≠ '\n')
      .ok ({ s with file := some file }, folds, (blanks rest).drop file.length)
    | c :: _ =>
      if c.isDigit then
        let (k, rest) := number cs
        if k = 0 then trouble "number option to \x60s' command may not be zero" rest
        else flags { s with number := k } n folds rest
      else if c ∈ ['\n', ';', '}', '#'] ∨ Arithmetic.isWhite c then .ok (s, folds, cs)
      else trouble "unknown option to \x60s'" (cs.drop 1)
    | [] => .ok (s, folds, [])

def plainText : Octets → Octets
  | '\\' :: 'n' :: cs => '\n' :: plainText cs
  | '\\' :: '\\' :: cs => '\\' :: plainText cs
  | c :: cs => c :: plainText cs
  | [] => []

def textLines : Octets → Octets × Octets
  | '\\' :: c :: cs => let (t, rest) := textLines cs; (c :: t, rest)
  | ['\\'] => ([], [])
  | '\n' :: cs => ([], cs)
  | c :: cs => let (t, rest) := textLines cs; (c :: t, rest)
  | [] => ([], [])

def givenText (cs : Octets) : Except Trouble (Octets × Octets) :=
  match blanks' cs with
  | '\\' :: rest =>
    match rest.dropWhile (fun c => c == ' ' || c == '\t') with
    | '\n' :: rest => let (t, rest) := textLines rest; .ok (t ++ ['\n'], rest)
    | [] => trouble "expected \\ after \x60a', \x60c' or \x60i'" []
    | _ => let (t, rest) := textLines rest; .ok (t ++ ['\n'], rest)
  | [] => trouble "expected \\ after \x60a', \x60c' or \x60i'" []
  | '\n' :: rest => trouble "expected \\ after \x60a', \x60c' or \x60i'" rest
  | cs => let (t, rest) := textLines cs; .ok (t ++ ['\n'], rest)
where
  blanks' (cs : Octets) : Octets := cs.dropWhile fun c => c == ' ' || c == '\t'

def toLineEnd (cs : Octets) : Octets × Octets :=
  let cs := cs.dropWhile fun c => c == ' ' || c == '\t'
  let t := cs.takeWhile (· ≠ '\n')
  (t, cs.drop (t.length + 1))

def labelText (cs : Octets) : Octets × Octets :=
  let cs := cs.dropWhile fun c => c == ' ' || c == '\t'
  let t := cs.takeWhile fun c => c ≠ '\n' && c ≠ ';' && c ≠ '\x7d'
  ((t.reverse.dropWhile Arithmetic.isWhite).reverse, cs.drop t.length)

def action (extended : Bool) (cs : Octets) : Except Trouble (Action × Octets) := do
  match cs with
  | [] => trouble "missing command" []
  | c :: rest =>
    let plain (a : Action) : Except Trouble (Action × Octets) := .ok (a, rest)
    match c with
    | 's' =>
      match rest with
      | [] => trouble "unterminated \x60s' command" []
      | d :: rest =>
        match delimited d true rest with
        | none => trouble "unterminated \x60s' command" []
        | some (old, rest) =>
          match delimited d false rest with
          | none => trouble "unterminated \x60s' command" []
          | some (new, rest) =>
            let news := pieces (new.length + 1) new
            let (s, folds, rest) ← flags { search := none, new := news } (rest.length + 1) false rest
            let found ← search extended folds old rest
            let most := news.foldl (fun k p => match p with
              | .group n => max k n
              | _ => k) 0
            if let some r := found then
              if most > r.groups then
                let _ ← (trouble ("invalid reference \\" ++ Nat.repr most ++ " on \x60s' command's RHS") rest :
                  Except Trouble Unit)
            return (.substitute { s with search := found }, rest)
    | 'y' =>
      match rest with
      | [] => trouble "unterminated \x60y' command" []
      | d :: rest =>
        match (delimited d false rest) with
        | none => trouble "unterminated \x60y' command" []
        | some (a, rest) =>
          match delimited d false rest with
          | none => trouble "unterminated \x60y' command" []
          | some (b, rest) =>
            let (a, b) := (plainText a, plainText b)
            if a.length ≠ b.length then trouble "strings for \x60y' command are different lengths" rest
            return (.translate (a.zip b), rest)
    | 'p' => plain .print
    | 'P' => plain .printFirst
    | 'd' => plain .delete
    | 'D' => plain .deleteFirst
    | 'n' => plain .next
    | 'N' => plain .nextToo
    | 'g' => plain .fetch
    | 'G' => plain .fetchToo
    | 'h' => plain .keep
    | 'H' => plain .keepToo
    | 'x' => plain .exchange
    | '=' => plain .number
    | 'F' => plain .name
    | 'z' => plain .empty
    | 'l' => let (_, rest) := number (rest.dropWhile (· == ' ')); return (.show_, rest)
    | 'q' | 'Q' => let (k, rest) := number (rest.dropWhile (· == ' ')); return (.quit k (c = 'Q'), rest)
    | 'a' => let (t, rest) ← givenText rest; return (.append t, rest)
    | 'i' => let (t, rest) ← givenText rest; return (.insert t, rest)
    | 'c' => let (t, rest) ← givenText rest; return (.change t, rest)
    | 'r' => let (t, rest) := toLineEnd rest; return (.read t, rest)
    | 'w' => let (t, rest) := toLineEnd rest; return (.write t, rest)
    | 'W' => let (t, rest) := toLineEnd rest; return (.writeFirst t, rest)
    | 'b' => let (t, rest) := labelText rest; return (.branch t, rest)
    | 't' => let (t, rest) := labelText rest; return (.branchIf t, rest)
    | 'T' => let (t, rest) := labelText rest; return (.branchUnless t, rest)
    | ':' =>
      let t := (rest.dropWhile (· == ' ')).takeWhile fun c => c ≠ '\n' && c ≠ ';'
      let after := (rest.dropWhile (· == ' ')).drop t.length
      if t.isEmpty then trouble "\":\" lacks a label" rest
      return (.label ((t.reverse.dropWhile Arithmetic.isWhite).reverse), after)
    | c => trouble ("unknown command: \x60" ++ String.ofList [c] ++ "'") rest

def endsItself : Action → Bool
  | .append _ | .insert _ | .change _ | .read _ | .write _ | .writeFirst _ => true
  | _ => false

def steps (extended : Bool) : Nat → List Nat → Array Step → Octets → Except Trouble (Array Step)
  | 0, _, _, rest => trouble "unknown command" rest
  | n + 1, opened, done, cs => do
    match cs.dropWhile fun c => Arithmetic.isWhite c || c == ';' with
    | [] => if opened.isEmpty then return done else trouble "unmatched \x60\x7b'" []
    | '#' :: rest => steps extended n opened done ((rest.dropWhile (· ≠ '\n')).drop 1)
    | '}' :: rest =>
      match opened with
      | [] => trouble "unexpected \x60\x7d'" rest
      | b :: opened =>
        let done := done.modify b fun s => { s with action := .block done.size }
        steps extended n opened done rest
    | cs =>
      let (first, rest) ← address? extended cs
      let rest := blanks rest
      let (second, rest) ← match first, rest with
        | some _, ',' :: rest => secondAddress extended (blanks rest)
        | _, rest => .ok (none, rest)
      let rest := blanks rest
      let negated := rest.head? = some '!'
      let rest := if negated then rest.dropWhile fun c => c == '!' || Arithmetic.isWhite c else rest
      match rest with
      | '{' :: rest =>
        let s : Step := { first, second, negated, action := .block 0 }
        steps extended n (done.size :: opened) (done.push s) rest
      | rest =>
        let (a, rest) ← action extended rest
        let done := done.push { first, second, negated, action := a }
        if endsItself a then steps extended n opened done rest
        else
          match rest.dropWhile fun c => c == ' ' || c == '\t' with
          | [] => steps extended n opened done []
          | c :: more =>
            if c ∈ [';', '\n'] then steps extended n opened done more
            else if c ∈ ['\x7d', '#'] then steps extended n opened done (c :: more)
            else trouble "extra characters after command" more

def labelOf? (ss : Array Step) (name : Octets) : Option Nat :=
  ss.findIdx? fun s => match s.action with
    | .label l => l == name
    | _ => false

def missingLabel? (ss : Array Step) : Option Octets :=
  ss.toList.findSome? fun s => match s.action with
    | .branch l | .branchIf l | .branchUnless l => if l.isEmpty ∨ (labelOf? ss l).isSome then none else some l
    | _ => none

structure Line where
  text : Octets
  ended : Bool
  file : Octets

structure State where
  input : List Line
  space : Octets := []
  held : Octets := []
  count : Nat := 0
  ended : Bool := true
  file : Octets := ['-']
  /-- For each step with a range that has begun, where it ends if that is a line. -/
  open_ : List (Nat × Option Nat) := []
  replaced : Bool := false
  last : Search := none
  later : List (Octets × Bool) := []
  out : List Octets := []
  lacks : Bool := false
  written : List (Octets × Octets) := []
  status : Nat := 0
  over_ : Bool := false

structure Settings where
  steps : Array Step
  quiet : Bool
  delimiter : Char := '\n'
  texts : Octets → Option Octets

namespace State

variable (s : State)

def say (text : Octets) (ended : Bool) (d : Char) : State :=
  let front := if s.lacks then [d] else []
  { s with out := (front ++ text ++ if ended then [d] else []) :: s.out, lacks := !ended }

def sayWhole (text : Octets) (d : Char) : State :=
  let front := if s.lacks then [d] else []
  { s with out := (front ++ text) :: s.out, lacks := false }

def note (file text : Octets) (d : Char) : State :=
  if file = "/dev/stdout".toList then s.say text true d
  else
    let old := (s.written.lookup file).getD []
    { s with written := (file, old ++ text ++ [d]) :: s.written.filter (·.1 ≠ file) }

def advance? (joined : Bool) (d : Char) : Option State :=
  match s.input with
  | [] => none
  | l :: rest => some { s with
      input := rest, count := s.count + 1, ended := l.ended, file := l.file
      space := if joined then s.space ++ d :: l.text else l.text }

def flush (d : Char) : State :=
  { s.later.foldl (fun s (text, whole) => if whole then s.sayWhole text d else s.say text false d) s with later := [] }

end State

def isLast (s : State) : Bool := s.input.isEmpty

def finds (s : State) (r : Search) : Bool × State :=
  match r.or s.last with
  | some x => (x.occursIn s.space, { s with last := some x })
  | none => (false, s)

def holds (s : State) (a : Address) : Bool × State :=
  match a with
  | .line n => (s.count = n, s)
  | .last => (isLast s, s)
  | .search r => finds s r
  | .step first by_ =>
    (if by_ = 0 then s.count = first else decide (s.count ≥ first) && (s.count - first) % by_ = 0, s)
  | .later _ | .multiple _ => (false, s)

def applies (i : Nat) (p : Step) (s : State) : Bool × State :=
  let (hit, s) := match p.first, p.second with
    | none, _ => (true, s)
    | some a, none => holds s a
    | some a, some b =>
      let opened : List (Nat × Option Nat) := s.open_.filter (·.1 ≠ i)
      let start (s : State) : Bool × State :=
        let stop : Option (Option Nat) := match b with
          | .line n => some (some n)
          | .later n => some (some (s.count + n))
          | .multiple n => some (some (if n = 0 then s.count else (s.count + n - 1) / n * n))
          | _ => none
        match stop with
        | some (some n) =>
          (true, { s with open_ := if n ≤ s.count then opened else (i, some n) :: opened })
        | _ => (true, { s with open_ := (i, none) :: opened })
      match s.open_.lookup i with
      | some (some n) =>
        if s.count < n then (true, s)
        else (decide (s.count = n), { s with open_ := opened })
      | some none =>
        let (closes, s) := holds s b
        (true, if closes then { s with open_ := opened } else s)
      | none =>
        match a with
        | .line 0 =>
          if s.count = 1 then
            let (closes, s) := holds s b
            (true, if closes then s else { s with open_ := (i, none) :: opened })
          else (false, s)
        | a =>
          let (opens, s) := holds s a
          if opens then
            match b with
            | .last => if isLast s then (true, s) else start s
            | _ => start s
          else (false, s)
  (hit != p.negated, s)

structure Casing where
  now : Letters := .plain
  next : Letters := .plain

def cased (c : Casing) (text : Octets) : Octets × Casing :=
  let base (t : Octets) : Octets := match c.now with
    | .upper => t.map Char.toUpper
    | .lower => t.map Char.toLower
    | _ => t
  match text with
  | [] => ([], c)
  | x :: xs =>
    match c.next with
    | .upperNext => (x.toUpper :: base xs, { c with next := .plain })
    | .lowerNext => (x.toLower :: base xs, { c with next := .plain })
    | _ => (base (x :: xs), c)

def fill (new : List Piece) (t : Array Char) (m : Regex.Match) : Octets :=
  (new.foldl (fun (acc : List Octets × Casing) p =>
    match p with
    | .text cs => let (o, c) := cased acc.2 cs; (o :: acc.1, c)
    | .group n => let (o, c) := cased acc.2 ((m.group? t n).getD []); (o :: acc.1, c)
    | .letters .upperNext => (acc.1, { acc.2 with next := .upperNext })
    | .letters .lowerNext => (acc.1, { acc.2 with next := .lowerNext })
    | .letters l => (acc.1, { now := l, next := .plain })) ([], {})).1.reverse.flatten

def replaceAll (r : Regex) (new : List Piece) (all : Bool) (wanted : Nat) (t : Array Char) :
    Nat → (from_ seen : Nat) → (previous : Option Nat) → List Octets × Bool
  | 0, i, _, _ => ([t.toList.drop i], false)
  | n + 1, i, seen, previous =>
    match r.find? t i with
    | none => ([t.toList.drop i], false)
    | some m =>
      let between := (t.toList.drop i).take (m.start - i)
      if m.stop = m.start ∧ previous = some m.start then
        match t[m.start]? with
        | some c =>
          let (rest, hit) := replaceAll r new all wanted t n (m.start + 1) seen none
          (between :: [c] :: rest, hit)
        | none => ([between], false)
      else
        let seen := seen + 1
        let chosen := seen = wanted ∨ (all ∧ seen ≥ wanted)
        let shown := if chosen then fill new t m else (t.toList.drop m.start).take (m.stop - m.start)
        if chosen ∧ !all then ([between, shown, t.toList.drop m.stop], true)
        else
          let (rest, hit) :=
            if m.stop = m.start then
              match t[m.start]? with
              | some c =>
                let (rest, hit) := replaceAll r new all wanted t n (m.start + 1) seen none
                ([c] :: rest, hit)
              | none => ([], false)
            else replaceAll r new all wanted t n m.stop seen (some m.stop)
          (between :: shown :: rest, hit || chosen)

def visible (text : Octets) : Octets :=
  let shown := text.map fun c =>
    match c with
    | '\\' => ['\\', '\\']
    | '\x07' => ['\\', 'a']
    | '\x08' => ['\\', 'b']
    | '\x0c' => ['\\', 'f']
    | '\n' => ['\\', 'n']
    | '\r' => ['\\', 'r']
    | '\t' => ['\\', 't']
    | '\x0b' => ['\\', 'v']
    | c =>
      if ' ' ≤ c ∧ c < '\x7f' then [c]
      else
        let ds := Nat.toDigits 8 c.toNat
        '\\' :: List.replicate (3 - ds.length) '0' ++ ds
  let (ls, current) := shown.foldl (fun (acc : List Octets × Octets) piece =>
    if acc.2.length + piece.length > 69 then (acc.1 ++ [acc.2 ++ ['\\', '\n']], piece)
    else (acc.1, acc.2 ++ piece)) ([], [])
  ls.flatten ++ current ++ ['$']

inductive Exit where
  | done
  | dropped
  | again

def jump (ss : Array Step) (label : Octets) : Nat := if label.isEmpty then ss.size else (labelOf? ss label).getD ss.size

def runSteps (g : Settings) : Nat → Nat → State → State × Exit
  | 0, _, s => (s, .done)
  | n + 1, i, s =>
    match g.steps[i]? with
    | none => (s, .done)
    | some p =>
      let d := g.delimiter
      let (hit, s) := applies i p s
      match p.action, hit with
      | .block after, false => runSteps g n after s
      | _, false => runSteps g n (i + 1) s
      | a, true =>
        let continue_ (s : State) : State × Exit := runSteps g n (i + 1) s
        match a with
        | .nothing | .label _ | .block _ => continue_ s
        | .substitute sub =>
          match sub.search.or s.last with
          | none => continue_ s
          | some r =>
            let t := s.space.toArray
            let (parts, hit) := replaceAll r sub.new sub.all sub.number t (t.size + 2) 0 0 none
            let s := { s with last := some r }
            if !hit then continue_ s
            else
              let s := { s with space := parts.flatten, replaced := true }
              let s := if sub.prints then s.say s.space s.ended d else s
              let s := match sub.file with
                | some f => s.note f s.space d
                | none => s
              continue_ s
        | .translate pairs => continue_ { s with space := s.space.map fun c => (pairs.lookup c).getD c }
        | .print => continue_ (s.say s.space s.ended d)
        | .printFirst => continue_ (s.say (s.space.takeWhile (· ≠ d)) true d)
        | .delete => (s, .dropped)
        | .deleteFirst =>
          if s.space.contains d then ({ s with space := (s.space.dropWhile (· ≠ d)).tail }, .again)
          else (s, .dropped)
        | .quit k silent => ({ s with status := k, over_ := true }, if silent then .dropped else .done)
        | .append text => continue_ { s with later := s.later ++ [(text, true)] }
        | .insert text => continue_ (s.sayWhole text d)
        | .change text =>
          let inRange := p.second.isSome ∧ (s.open_.lookup i).isSome ∧ !p.negated
          (if inRange then s else s.sayWhole text d, .dropped)
        | .next =>
          if s.input.isEmpty then ({ s with over_ := true }, .done)
          else
            let s := if g.quiet then s else s.say s.space s.ended d
            let s := s.flush d
            continue_ ((s.advance? false d).getD s)
        | .nextToo =>
          if s.input.isEmpty then ({ s with over_ := true }, .done)
          else
            let s := s.flush d
            continue_ ((s.advance? true d).getD s)
        | .fetch => continue_ { s with space := s.held }
        | .fetchToo => continue_ { s with space := s.space ++ d :: s.held }
        | .keep => continue_ { s with held := s.space }
        | .keepToo => continue_ { s with held := s.held ++ d :: s.space }
        | .exchange => continue_ { s with held := s.space, space := s.held }
        | .show_ => continue_ (s.say (visible s.space) true '\n')
        | .number => continue_ (s.sayWhole (decimal s.count ++ ['\n']) d)
        | .name => continue_ (s.sayWhole (s.file ++ ['\n']) d)
        | .empty => continue_ { s with space := [] }
        | .branch l => runSteps g n (jump g.steps l) s
        | .branchIf l => if s.replaced then runSteps g n (jump g.steps l) { s with replaced := false } else continue_ s
        | .branchUnless l => if s.replaced then continue_ { s with replaced := false } else runSteps g n (jump g.steps l) s
        | .read f => continue_ (match g.texts f with
            | some text => { s with later := s.later ++ [(text, text.getLast? = some '\n' || text.isEmpty)] }
            | none => s)
        | .write f => continue_ (s.note f s.space d)
        | .writeFirst f => continue_ (s.note f (s.space.takeWhile (· ≠ d)) d)

def runLines (g : Settings) : Nat → (again : Bool) → State → State
  | 0, _, s => s
  | n + 1, again, s =>
    match if again then some s else s.advance? false g.delimiter with
    | none => s
    | some s =>
      let s := { s with replaced := if again then s.replaced else false }
      let (s, exit) := runSteps g 100000 0 s
      match exit with
      | .again => runLines g n true (s.flush g.delimiter)
      | exit =>
        let s := match exit with
          | .done => if g.quiet then s else s.say s.space s.ended g.delimiter
          | _ => s
        let s := s.flush g.delimiter
        if s.over_ then s else runLines g n false s

def splitInPlace (args : List Octets) : List Octets × Option Octets :=
  args.foldl (fun (acc : List Octets × Option Octets) arg =>
    match arg with
    | '-' :: '-' :: rest =>
      if "in-place".toList.isPrefixOf rest then (acc.1, some ((rest.dropWhile (· ≠ '=')).drop 1)) else (acc.1 ++ [arg], acc.2)
    | '-' :: cs =>
      let front := cs.takeWhile fun c => c ∈ ['n', 'E', 'r', 's', 'u', 'z', 'b']
      match cs.drop front.length with
      | 'i' :: suffix => (acc.1 ++ (if front.isEmpty then [] else ['-' :: front]), some suffix)
      | _ => (acc.1 ++ [arg], acc.2)
    | arg => (acc.1 ++ [arg], acc.2)) ([], none)

def linesOf (d : Char) (file text : Octets) : List Line :=
  let all := Text.split (· == d) text
  match all.getLast? with
  | some [] => all.dropLast.map fun t => ⟨t, true, file⟩
  | some l => all.dropLast.map (fun t => ⟨t, true, file⟩) ++ [⟨l, false, file⟩]
  | none => []

def sed (args : List Octets) : Run Int := do
  let (args, inPlace) := splitInPlace args
  let r := request ['e', 'f', 'l'] [("expression", 'e'), ("file", 'f'), ("quiet", 'n'), ("silent", 'n'),
    ("regexp-extended", 'E'), ("separate", 's'), ("null-data", 'z'), ("unbuffered", 'u'), ("posix", 'p')] args
  if ← unknown? "sed" r "nefEslruzpb" then return 1
  let scripts ← (r.options.filter fun o => o.1 = 'e' ∨ o.1 = 'f').mapM fun (c, text) => do
    if c = 'e' then return text
    let text := (← source "sed" text).getD []
    return if text.getLast? = some '\n' then text.dropLast else text
  let (script, named) ← match scripts, r.named with
    | [], script :: named => pure (script, named)
    | [], [] => do
      let _ ← write 2 "Usage: sed [OPTION]... \x7bscript-only-if-no-other-script\x7d [input-file]...\n".toList
      return 1
    | scripts, named => pure (Text.join '\n' scripts, named)
  match steps (r.has 'E' || r.has 'r') (2 * script.length + 10) [] #[] script with
  | .error t =>
    let at_ := script.length - t.left
    grumble "sed" ("-e expression #1, char ".toList ++ decimal at_ ++ ": ".toList ++ t.message.toList)
    return 1
  | .ok ss =>
    if let some l := missingLabel? ss then
      grumble "sed" ("-e expression #1, char ".toList ++ decimal script.length ++ ": ".toList ++
        "can't find label for jump to \x60".toList ++ l ++ ['\''])
      return 1
    let d := if r.has 'z' then '\x00' else '\n'
    let fs ← files
    let settings : Settings := {
      steps := ss
      quiet := r.has 'n' || "#n\n".toList.isPrefixOf script
      delimiter := d
      texts := fun f => (fs.read (Test.pathOf f)).toOption.map ofBytes }
    let named := if named.isEmpty then [['-']] else named
    let mut status : Int := 0
    let mut inputs : List (Octets × Octets) := []
    for f in named do
      if f = ['-'] ∧ inPlace.isNone then inputs := inputs ++ [(f, ← readAll 0)]
      else
        match ← readNamed f with
        | .ok content => inputs := inputs ++ [(f, content)]
        | .error e =>
          if e = .isDirectory then
            grumble "sed" ((if inPlace.isSome then "couldn't edit ".toList ++ f ++ ": not a regular file".toList
              else "read error on ".toList ++ f ++ ": Is a directory".toList))
          else grumble "sed" ("can't read ".toList ++ f ++ ": ".toList ++ e.text.toList)
          status := 2
    let fuel (s : State) : Nat := 10 * s.input.length + 100000
    let keep (written : List (Octets × Octets)) : Run Unit := do
      for (f, text) in written do
        if f = "/dev/stderr".toList then
          let _ ← write 2 text
        else
          match (← files).write (Test.pathOf f) (bytesOf text) false with
          | .ok fs => setFiles fs
          | .error e => grumble "sed" ("couldn't open file ".toList ++ f ++ ": ".toList ++ e.text.toList)
    let outFiles := (ss.toList.filterMap fun p => match p.action with
      | .write f | .writeFirst f => some f
      | .substitute sub => sub.file
      | _ => none).filter fun f => !("/dev/".toList.isPrefixOf f)
    keep (outFiles.map (·, []))
    match inPlace with
    | none =>
      let groups := if r.has 's' then inputs.map fun i => [i] else [inputs]
      let mut s : State := { input := [] }
      for g in groups do
        if !s.over_ then
          s := { s with count := 0, open_ := [] }
          s := { s with input := g.flatMap fun (f, t) => linesOf d f t }
          s := runLines settings (fuel s) false s
      print s.out.reverse.flatten
      keep s.written
      return if s.status ≠ 0 then s.status else status
    | some suffix =>
      for (f, t) in inputs do
        let s : State := { input := linesOf d f t }
        let s := runLines settings (fuel s) false s
        let path := Test.pathOf f
        let now ← files
        let executable := now.isExecutable path
        let rest := s.input.flatMap fun l => l.text ++ if l.ended then [d] else []
        if !suffix.isEmpty then
          if let .ok fs := now.write (Test.pathOf (f ++ suffix)) (bytesOf t) executable then setFiles fs
        match (← files).write path (bytesOf (s.out.reverse.flatten ++ rest)) executable with
        | .ok fs => setFiles fs
        | .error e => grumble "sed" (fault f e)
        keep s.written
        if s.status ≠ 0 then status := s.status
      return status

def table : List (String × (List Octets → Run Int)) := [("sed", sed)]

end CMakeHelm.Sh.Tool.Edit
