import CMakeHelm.Sh.Regex

namespace CMakeHelm.Sh

/-- A character of a pattern; a quoted one stands for itself. -/
structure Glyph where
  char : Char
  quoted : Bool
deriving DecidableEq, Repr

structure PatternRules where
  caret : Bool := false
  groups : Bool := false
  folds : Bool := false
deriving DecidableEq, Repr

namespace Pattern

/-- The members of a set up to its closing bracket, which may stand first as a member. -/
def members : Nat → Bool → List Glyph → Option (List (Char × Char) × List Glyph)
  | 0, _, _ => none
  | _, _, [] => none
  | n + 1, first, g :: rest =>
    if g.char = ']' ∧ !g.quoted ∧ !first then some ([], rest)
    else
      let name := (rest.drop 1).takeWhile (·.char ≠ ':')
      let after := rest.drop (name.length + 1)
      if g = ⟨'[', false⟩ ∧ (rest.take 1).map (·.char) = [':'] ∧ (after.take 2).map (·.char) = [':', ']'] then
        (members n false (after.drop 2)).map fun (ms, rest) =>
          ((CharSet.className? (String.ofList (name.map (·.char)))).getD [] ++ ms, rest)
      else
        let (g, rest) := match g, rest with
          | ⟨'\\', false⟩, h :: rest => (h, rest)
          | _, _ => (g, rest)
        match rest with
        | dash :: last :: rest' =>
          if dash = ⟨'-', false⟩ ∧ last ≠ ⟨']', false⟩ then
            (members n false rest').map fun (ms, rest) => ((g.char, last.char) :: ms, rest)
          else (members n false rest).map fun (ms, rest) => ((g.char, g.char) :: ms, rest)
        | _ => (members n false rest).map fun (ms, rest) => ((g.char, g.char) :: ms, rest)

def set? (rules : PatternRules) (gs : List Glyph) : Option (CharSet × List Glyph) :=
  let negated := gs.head? = some ⟨'!', false⟩ ∨ (rules.caret ∧ gs.head? = some ⟨'^', false⟩)
  let gs := if negated then gs.tail else gs
  (members (gs.length + 1) true gs).map fun (ranges, rest) => ({ negated, ranges }, rest)

def alternatives : Nat → (depth : Nat) → List Glyph → Option (List (List Glyph) × List Glyph)
  | 0, _, _ => none
  | _, _, [] => none
  | n + 1, depth, g :: rest =>
    let keep (depth : Nat) : Option (List (List Glyph) × List Glyph) :=
      (alternatives n depth rest).map fun (as, rest) => (as.modifyHead (g :: ·), rest)
    if g.quoted then keep depth
    else if g.char = '(' then keep (depth + 1)
    else if g.char = ')' then if depth = 0 then some ([[]], rest) else keep (depth - 1)
    else if g.char = '|' ∧ depth = 0 then (alternatives n depth rest).map fun (as, rest) => ([] :: as, rest)
    else keep depth

def ofGroup (kind : Char) (r : Regex) : Regex :=
  match kind with
  | '?' => .repeat r 0 (some 1)
  | '*' => .repeat r 0 none
  | '+' => .repeat r 1 none
  | '!' => .except r
  | _ => r

def regexWithin (rules : PatternRules) : Nat → Regex → List Glyph → Regex
  | 0, r, _ => r
  | _, r, [] => r
  | n + 1, r, g :: rest =>
    let next (item : Regex) (rest : List Glyph) : Regex := regexWithin rules n (.seq r item) rest
    if g.quoted then next (Regex.char g.char) rest
    else
      let group := match rules.groups && g.char ∈ ['?', '*', '+', '@', '!'], rest with
        | true, ⟨'(', false⟩ :: inner => alternatives (inner.length + 1) 0 inner
        | _, _ => none
      match group with
      | some (as, rest) =>
        let rs := as.map (regexWithin rules n .empty)
        match rs with
        | [] => next .empty rest
        | first :: others => next (ofGroup g.char (others.foldl .alt first)) rest
      | none =>
        match g.char, rest with
        | '?', _ => next Regex.anyChar rest
        | '*', _ => next (.repeat Regex.anyChar 0 none) rest
        | '[', _ =>
          match set? rules rest with
          | some (s, rest) => next (.set s) rest
          | none => next (Regex.char '[') rest
        | '\\', h :: rest => next (Regex.char h.char) rest
        | c, _ => next (Regex.char c) rest

def regex (rules : PatternRules) (gs : List Glyph) : Regex :=
  let r := regexWithin rules (gs.length + 1) .empty gs
  if rules.folds then r.folded else r

end Pattern

def isMatch (rules : PatternRules) (pattern : List Glyph) (text : Octets) : Bool :=
  (Pattern.regex rules pattern).accepts text

def isPattern (rules : PatternRules) : List Glyph → Bool
  | [] => false
  | g :: rest =>
    (!g.quoted && (g.char ∈ ['*', '?', '['] ||
      (rules.groups && g.char ∈ ['+', '@', '!'] && rest.head? == some ⟨'(', false⟩))) ||
      isPattern rules rest

def stripMatch (rules : PatternRules) (pattern : List Glyph) (atEnd longest : Bool) (text : Octets) : Octets :=
  let r := Pattern.regex rules pattern
  let t := text.toArray
  let cuts := List.range (text.length + 1)
  let cuts := if longest = atEnd then cuts else cuts.reverse
  if atEnd then
    match cuts.find? fun k => (Regex.spots t true r ⟨k, []⟩).any (·.pos == t.size) with
    | some k => text.take k
    | none => text
  else
    let stops := (Regex.spots t true r ⟨0, []⟩).map (·.pos)
    match cuts.find? (· ∈ stops) with
    | some k => text.drop k
    | none => text

end CMakeHelm.Sh
