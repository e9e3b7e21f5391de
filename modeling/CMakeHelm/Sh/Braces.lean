import CMakeHelm.Sh.Arithmetic

namespace CMakeHelm.Sh.Braces

inductive Item where
  | char (c : Char)
  | part (p : Part)

def items (w : Word) : List Item :=
  w.flatMap fun
    | .plain cs => cs.map .char
    | p => [.part p]

def word (is : List Item) : Word :=
  is.foldr (fun i w =>
    match i, w with
    | .char c, .plain cs :: w => .plain (c :: cs) :: w
    | .char c, w => .plain [c] :: w
    | .part p, w => p :: w) []

def alternatives : Nat → (depth : Nat) → List Item → Option (List (List Item) × List Item)
  | 0, _, _ => none
  | _, _, [] => none
  | n + 1, depth, i :: rest =>
    let keep (depth : Nat) : Option (List (List Item) × List Item) :=
      (alternatives n depth rest).map fun (as, rest) => (as.modifyHead (i :: ·), rest)
    match i with
    | .char '{' => keep (depth + 1)
    | .char '}' => if depth = 0 then some ([[]], rest) else keep (depth - 1)
    | .char ',' =>
      if depth = 0 then (alternatives n depth rest).map fun (as, rest) => ([] :: as, rest) else keep depth
    | _ => keep depth

def characters? (is : List Item) : Option Octets :=
  is.mapM fun
    | .char c => some c
    | .part _ => none

def pieces : Octets → List Octets
  | '.' :: '.' :: cs => [] :: pieces cs
  | c :: cs => (pieces cs).modifyHead (c :: ·)
  | [] => [[]]

def steps (first last by_ : Int) : List Int :=
  let size := if by_ = 0 then 1 else by_.natAbs
  let count := (last - first).natAbs / size + 1
  (List.range count).map fun (k : Nat) => if first ≤ last then first + k * size else first - k * size

def padded (width : Nat) (n : Int) : Octets :=
  let ds := Nat.toDigits 10 n.natAbs
  let sign := if n < 0 then ['-'] else []
  sign ++ List.replicate (width - sign.length - ds.length) '0' ++ ds

def isPadded (text : Octets) : Bool :=
  match text with
  | '-' :: '0' :: _ :: _ => true
  | '0' :: _ :: _ => true
  | _ => false

/-- The members of a range such as `1..9` or `a..e..2`. -/
def range? (text : Octets) : Option (List Octets) :=
  let number? := Arithmetic.signed? (Arithmetic.natural? 10)
  let within (a b : Octets) (by_ : Int) : Option (List Octets) :=
    match number? a, number? b, a, b with
    | some first, some last, _, _ =>
      let width := if isPadded a || isPadded b then max a.length b.length else 0
      some ((steps first last by_).map (padded width))
    | _, _, [c], [d] =>
      if c.isAlpha ∧ d.isAlpha then
        some ((steps (c.toNat : Int) (d.toNat : Int) by_).map fun k => [Char.ofNat k.toNat])
      else none
    | _, _, _, _ => none
  match pieces text with
  | [a, b] => within a b 1
  | [a, b, by_] => (number? by_).bind (within a b)
  | _ => none

def expandItems : Nat → List Item → List (List Item)
  | 0, is => [is]
  | _, [] => [[]]
  | n + 1, .char '{' :: rest =>
    let literal := (expandItems n rest).map (.char '{' :: ·)
    match alternatives (rest.length + 1) 0 rest with
    | none => literal
    | some (as, after) =>
      let heads? : Option (List (List Item)) :=
        match as with
        | [body] => ((characters? body).bind range?).map fun texts => texts.map fun t => t.map Item.char
        | as => some (as.flatMap (expandItems n))
      match heads? with
      | none => literal
      | some heads =>
        let tails := expandItems n after
        heads.flatMap fun h => tails.map (h ++ ·)
  | n + 1, i :: rest => (expandItems n rest).map (i :: ·)

def expand (w : Word) : List Word :=
  if w.any (fun | .plain cs => cs.contains '\x7b' | _ => false) then
    (expandItems ((items w).length + 1) (items w)).map word
  else [w]

end CMakeHelm.Sh.Braces
