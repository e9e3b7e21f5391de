import CMakeHelm.Sh.Syntax

namespace CMakeHelm.Sh

structure CharSet where
  negated : Bool := false
  ranges : List (Char × Char)
deriving DecidableEq, Repr

namespace CharSet

def single (c : Char) : CharSet := { ranges := [(c, c)] }

def all : CharSet := { negated := true, ranges := [] }

def contains (s : CharSet) (c : Char) : Bool :=
  (s.ranges.any fun (a, b) => decide (a ≤ c ∧ c ≤ b)) != s.negated

def className? : String → Option (List (Char × Char))
  | "digit" => some [('0', '9')]
  | "lower" => some [('a', 'z')]
  | "upper" => some [('A', 'Z')]
  | "alpha" => some [('A', 'Z'), ('a', 'z')]
  | "alnum" => some [('0', '9'), ('A', 'Z'), ('a', 'z')]
  | "xdigit" => some [('0', '9'), ('A', 'F'), ('a', 'f')]
  | "blank" => some [('\t', '\t'), (' ', ' ')]
  | "space" => some [('\t', '\r'), (' ', ' ')]
  | "punct" => some [('!', '/'), (':', '@'), ('[', '\x60'), ('\x7b', '~')]
  | "cntrl" => some [('\x00', '\x1f'), ('\x7f', '\x7f')]
  | "print" => some [(' ', '~')]
  | "graph" => some [('!', '~')]
  | "word" => some [('0', '9'), ('A', 'Z'), ('_', '_'), ('a', 'z')]
  | _ => none

def wordRanges : List (Char × Char) := (className? "word").getD []

def spaceRanges : List (Char × Char) := (className? "space").getD []

def folded (s : CharSet) : CharSet :=
  let letters := (List.range 26).map fun i => (Char.ofNat (65 + i), Char.ofNat (97 + i))
  let within (c : Char) : Bool := s.ranges.any fun (a, b) => decide (a ≤ c ∧ c ≤ b)
  { s with ranges := s.ranges ++ letters.flatMap fun (u, l) =>
      if within u || within l then [(u, u), (l, l)] else [] }

end CharSet

inductive Regex where
  | empty
  | set (s : CharSet)
  | start
  | finish
  | edge (opens closes : Bool)
  | noEdge
  | seq (a b : Regex)
  | alt (a b : Regex)
  | repeat (r : Regex) (min : Nat) (max : Option Nat)
  | group (n : Nat) (r : Regex)
  | back (n : Nat)
  | except (r : Regex)
deriving Repr

namespace Regex

def char (c : Char) : Regex := .set (.single c)

def anyChar : Regex := .set .all

def literal (cs : Octets) : Regex := cs.foldl (fun r c => .seq r (char c)) .empty

def folded : Regex → Regex
  | .set s => .set s.folded
  | .seq a b => .seq a.folded b.folded
  | .alt a b => .alt a.folded b.folded
  | .repeat r min max => .repeat r.folded min max
  | .group n r => .group n r.folded
  | .except r => .except r.folded
  | r => r

def hasBack : Regex → Bool
  | .back _ => true
  | .seq a b | .alt a b => a.hasBack || b.hasBack
  | .repeat r _ _ | .group _ r | .except r => r.hasBack
  | _ => false

def groups : Regex → Nat
  | .seq a b | .alt a b => max a.groups b.groups
  | .repeat r _ _ | .except r => r.groups
  | .group n r => max n r.groups
  | _ => 0

/-- How far a match has come, and where its groups are, the last one first. -/
structure Spot where
  pos : Nat
  groups : List (Nat × Nat × Nat) := []

def distinct (size : Nat) (spots : List Spot) : List Spot :=
  ((spots.foldl (fun (acc : List Spot × Array Bool) s =>
    if acc.2.getD s.pos false then acc else (s :: acc.1, acc.2.setIfInBounds s.pos true))
    ([], Array.replicate (size + 1) false)).1).reverse

def closure (step : Spot → List Spot) : Nat → List Spot → Spot → List Spot
  | 0, found, _ => found
  | n + 1, found, s =>
    if found.any (·.pos == s.pos) then found
    else ((step s).filter (·.pos > s.pos)).foldl (closure step n) found ++ [s]

def upTo (step : List Spot → List Spot) : Nat → List Spot → List Spot
  | 0, spots => spots
  | n + 1, spots => if spots.isEmpty then [] else upTo step n (step spots) ++ spots

def isWordAt (t : Array Char) (i : Nat) : Bool :=
  match t[i]? with
  | some c => isNameChar c
  | none => false

/-- All spots to which a match from `s` may lead, in the order of preference. -/
def spots (t : Array Char) (unique : Bool) : Regex → Spot → List Spot
  | .empty, s => [s]
  | .set cs, s =>
    match t[s.pos]? with
    | some c => if cs.contains c then [{ s with pos := s.pos + 1 }] else []
    | none => []
  | .start, s => if s.pos = 0 then [s] else []
  | .finish, s => if s.pos = t.size then [s] else []
  | .edge opens closes, s =>
    let before := s.pos > 0 && isWordAt t (s.pos - 1)
    let after := isWordAt t s.pos
    if (opens && !before && after) || (closes && before && !after) then [s] else []
  | .noEdge, s =>
    if (s.pos > 0 && isWordAt t (s.pos - 1)) == isWordAt t s.pos then [s] else []
  | .seq a b, s => tidy ((spots t unique a s).flatMap (spots t unique b))
  | .alt a b, s =>
    tidy ((spots t unique a s ++ spots t unique b s).mergeSort fun x y => decide (x.pos ≥ y.pos))
  | .repeat (.set cs) min none, s =>
    let run := ((t.toList.drop s.pos).takeWhile cs.contains).length
    if run < min then [] else (List.range (run - min + 1)).map fun k => { s with pos := s.pos + (run - k) }
  | .repeat r min max, s =>
    let next (ss : List Spot) : List Spot := tidy (ss.flatMap fun s => spots t unique r s)
    let first := (List.range min).foldl (fun ss _ => next ss) [s]
    match max with
    | none => first.foldl (closure (fun s => spots t unique r s) (t.size + 2)) []
    | some m => tidy (upTo next (m - min) first)
  | .group n r, s =>
    (spots t unique r s).map fun s' => { s' with groups := (n, s.pos, s'.pos) :: s'.groups }
  | .back n, s =>
    match s.groups.lookup n with
    | none => []
    | some (a, b) =>
      if (List.range (b - a)).all fun k => (t[a + k]?).isSome && t[a + k]? == t[s.pos + k]? then
        [{ s with pos := s.pos + (b - a) }]
      else []
  | .except r, s =>
    let taken := (spots t unique r s).map (·.pos)
    ((List.range (t.size + 1 - s.pos)).reverse.filterMap fun k =>
      if s.pos + k ∈ taken then none else some { s with pos := s.pos + k })
where
  tidy (ss : List Spot) : List Spot := if unique then distinct t.size ss else ss

structure Match where
  start : Nat
  stop : Nat
  groups : List (Nat × Nat × Nat)

/-- The longest match that begins at a place. -/
def matchAt? (r : Regex) (t : Array Char) (i : Nat) : Option Match :=
  ((spots t (!r.hasBack) r ⟨i, []⟩).foldl (fun (best : Option Spot) s =>
    match best with
    | none => some s
    | some b => if s.pos > b.pos then some s else best) none).map fun s => ⟨i, s.pos, s.groups⟩

def find? (r : Regex) (t : Array Char) (i : Nat) : Option Match :=
  (List.range (t.size + 1 - i)).findSome? fun k => r.matchAt? t (i + k)

def occursIn (r : Regex) (text : Octets) : Bool := (r.find? text.toArray 0).isSome

def accepts (r : Regex) (text : Octets) : Bool :=
  let t := text.toArray
  (spots t (!r.hasBack) r ⟨0, []⟩).any (·.pos == t.size)

def Match.group? (m : Match) (t : Array Char) (n : Nat) : Option Octets :=
  if n = 0 then some (t.toList.drop m.start |>.take (m.stop - m.start))
  else (m.groups.lookup n).map fun (a, b) => (t.toList.drop a).take (b - a)

inductive Trouble where
  | bracket
  | openParenthesis
  | closeParenthesis
  | interval
  | backslash
  | reference
  | range
  | nothingToRepeat
  | className
deriving DecidableEq, Repr

def Trouble.message : Trouble → String
  | bracket => "Unmatched [, [^, [:, [., or [="
  | openParenthesis => "Unmatched ( or \\("
  | closeParenthesis => "Unmatched ) or \\)"
  | interval => "Invalid content of \\\x7b\\\x7d"
  | backslash => "Trailing backslash"
  | reference => "Invalid back reference"
  | range => "Invalid range end"
  | nothingToRepeat => "Invalid preceding regular expression"
  | className => "Invalid character class name"

def delimited? (mark : Char) (cs : Octets) : Option (Octets × Octets) :=
  let name := cs.takeWhile (· ≠ mark)
  match cs.drop name.length with
  | m :: ']' :: rest => if m = mark then some (name, rest) else none
  | _ => none

def endpoint : Octets → Option (Char × Octets)
  | '[' :: '.' :: cs => (delimited? '.' cs).bind fun (name, rest) => name.head?.map (·, rest)
  | c :: cs => some (c, cs)
  | [] => none

def members : Nat → Bool → Octets → Except Trouble (List (Char × Char) × Octets)
  | 0, _, _ => .error .bracket
  | _, _, [] => .error .bracket
  | n + 1, first, c :: cs =>
    if c = ']' ∧ !first then .ok ([], cs)
    else
      match c, cs with
      | '[', ':' :: more =>
        match delimited? ':' more with
        | none => .error .bracket
        | some (name, rest) =>
          match CharSet.className? (String.ofList name) with
          | none => .error .className
          | some ranges => do
            let (ms, rest) ← members n false rest
            return (ranges ++ ms, rest)
      | '[', '=' :: more =>
        match delimited? '=' more with
        | none => .error .bracket
        | some (name, rest) => do
          let (ms, rest) ← members n false rest
          return (name.map (fun c => (c, c)) ++ ms, rest)
      | _, _ =>
        match endpoint (c :: cs) with
        | none => .error .bracket
        | some (a, rest) =>
          match rest with
          | '-' :: ']' :: _ => do
            let (ms, rest) ← members n false rest
            return ((a, a) :: ms, rest)
          | '-' :: more =>
            match endpoint more with
            | none => .error .bracket
            | some (b, rest) =>
              if b < a then .error .range
              else do
                let (ms, rest) ← members n false rest
                return ((a, b) :: ms, rest)
          | _ => do
            let (ms, rest) ← members n false rest
            return ((a, a) :: ms, rest)

def bracket (cs : Octets) : Except Trouble (Regex × Octets) := do
  let negated := cs.head? = some '^'
  let cs := if negated then cs.tail else cs
  let (ranges, rest) ← members (cs.length + 1) true cs
  return (.set { negated, ranges }, rest)

def interval? (extended : Bool) (cs : Octets) : Option (Nat × Option Nat × Octets) :=
  let number (ds : Octets) : Nat := ds.foldl (fun n d => 10 * n + (d.toNat - 48)) 0
  let low := cs.takeWhile Char.isDigit
  let rest := cs.drop low.length
  let close (cs : Octets) : Option Octets :=
    match extended, cs with
    | true, '}' :: rest => some rest
    | false, '\\' :: '}' :: rest => some rest
    | _, _ => none
  match rest with
  | ',' :: more =>
    let high := more.takeWhile Char.isDigit
    (close (more.drop high.length)).bind fun rest =>
      if high.isEmpty then some (number low, none, rest)
      else if number high < number low then none
      else some (number low, some (number high), rest)
  | _ =>
    if low.isEmpty then none
    else (close rest).map fun rest => (number low, some (number low), rest)

def repetition? (extended : Bool) (cs : Octets) : Except Trouble (Option (Nat × Option Nat × Octets)) :=
  match extended, cs with
  | _, '*' :: rest => .ok (some (0, none, rest))
  | true, '+' :: rest | false, '\\' :: '+' :: rest => .ok (some (1, none, rest))
  | true, '?' :: rest | false, '\\' :: '?' :: rest => .ok (some (0, some 1, rest))
  | true, '{' :: rest => .ok (interval? true rest)
  | false, '\\' :: '{' :: rest =>
    match interval? false rest with
    | some r => .ok (some r)
    | none => .error .interval
  | _, _ => .ok none

def repeated (extended : Bool) : Nat → Regex → Octets → Except Trouble (Regex × Octets)
  | 0, r, cs => .ok (r, cs)
  | n + 1, r, cs => do
    match ← repetition? extended cs with
    | none => return (r, cs)
    | some (min, max, rest) => repeated extended n (.repeat r min max) rest

def escape? : Char → Option Regex
  | 'w' => some (.set { ranges := CharSet.wordRanges })
  | 'W' => some (.set { negated := true, ranges := CharSet.wordRanges })
  | 's' => some (.set { ranges := CharSet.spaceRanges })
  | 'S' => some (.set { negated := true, ranges := CharSet.spaceRanges })
  | 'b' => some (.edge true true)
  | '<' => some (.edge true false)
  | '>' => some (.edge false true)
  | 'B' => some .noEdge
  | '\x60' => some .start
  | '\'' => some .finish
  | _ => none

def endsBasic : Octets → Bool
  | [] | '\\' :: ')' :: _ | '\\' :: '|' :: _ => true
  | _ => false

abbrev Read := Except Trouble (Regex × Nat × Octets)

mutual

/-- Branches up to the end or a closing parenthesis. `opened` counts the groups so far. -/
def branches (extended : Bool) : Nat → (opened depth : Nat) → Octets → Read
  | 0, _, _, _ => .error .interval
  | n + 1, opened, depth, cs => do
    let (a, opened, rest) ← branch extended n opened depth true .empty cs
    match extended, rest with
    | true, '|' :: rest | false, '\\' :: '|' :: rest => do
      let (b, opened, rest) ← branches extended n opened depth rest
      return (.alt a b, opened, rest)
    | _, _ => return (a, opened, rest)

def branch (extended : Bool) : Nat → (opened depth : Nat) → (first : Bool) → Regex → Octets → Read
  | 0, _, _, _, _, _ => .error .interval
  | n + 1, opened, depth, first, before, cs => do
    let further (opened : Nat) (r : Regex) (rest : Octets) : Read := do
      let (r, rest) ← repeated extended rest.length r rest
      branch extended n opened depth false (.seq before r) rest
    let anchor (r : Regex) (rest : Octets) : Read :=
      branch extended n opened depth first (.seq before r) rest
    match extended, cs with
    | _, [] => return (before, opened, [])
    | true, '|' :: _ | false, '\\' :: '|' :: _ => return (before, opened, cs)
    | true, ')' :: rest =>
      if depth > 0 then return (before, opened, cs) else further opened (char ')') rest
    | false, '\\' :: ')' :: _ =>
      if depth > 0 then return (before, opened, cs) else .error .closeParenthesis
    | true, '(' :: rest | false, '\\' :: '(' :: rest => do
      let k := opened + 1
      let (r, opened, rest) ← branches extended n k (depth + 1) rest
      match extended, rest with
      | true, ')' :: rest | false, '\\' :: ')' :: rest => further opened (.group k r) rest
      | _, _ => .error .openParenthesis
    | true, '^' :: rest => anchor .start rest
    | false, '^' :: rest => if first then anchor .start rest else further opened (char '^') rest
    | true, '$' :: rest => anchor .finish rest
    | false, '$' :: rest =>
      if endsBasic rest then anchor .finish rest else further opened (char '$') rest
    | _, '.' :: rest => further opened anyChar rest
    | _, '[' :: rest => do
      let (r, rest) ← bracket rest
      further opened r rest
    | true, '*' :: rest | true, '+' :: rest | true, '?' :: rest =>
      if first then anchor .empty rest else further opened (char '*') rest
    | false, '*' :: rest => further opened (char '*') rest
    | _, ['\\'] => .error .backslash
    | _, '\\' :: c :: rest =>
      if '1' ≤ c ∧ c ≤ '9' then
        if c.toNat - 48 > opened then .error .reference else further opened (.back (c.toNat - 48)) rest
      else
        match escape? c with
        | some r => further opened r rest
        | none => further opened (char (if c = 'n' then '\n' else if c = 't' then '\t' else c)) rest
    | _, c :: rest => further opened (char c) rest

end

def parse (extended : Bool) (cs : Octets) : Except Trouble Regex := do
  let (r, _, rest) ← branches extended (3 * cs.length + 10) 0 0 cs
  if rest.isEmpty then return r else .error .closeParenthesis

end Regex

end CMakeHelm.Sh
