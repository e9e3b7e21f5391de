import CMakeHelm.FileSystem
import CMakeHelm.Sh.Arithmetic

namespace CMakeHelm.Sh.Mode

def whole : Entry → Nat
  | .directory => 511
  | .link _ => 511
  | .file _ executable => if executable then 511 else 438

def masked (mask mode : Nat) : Nat := mode - (mode &&& mask)

def usual : Entry → Nat
  | .link _ => 511
  | e => masked 18 (whole e)

def letters (mode : Nat) : Octets :=
  let plain := (List.range 9).map fun i => if mode.testBit (8 - i) then ['r', 'w', 'x'].getD (i % 3) '-' else '-'
  let special (place bit : Nat) (low : Char) (cs : Octets) : Octets :=
    if mode.testBit bit then cs.set place (if cs.getD place '-' = 'x' then low else low.toUpper) else cs
  special 8 9 't' (special 5 10 's' (special 2 11 's' plain))

def kind : Entry → Char
  | .directory => 'd'
  | .link _ => 'l'
  | .file _ _ => '-'

def shift : Char → Nat
  | 'u' => 6
  | 'g' => 3
  | _ => 0

def isWho (c : Char) : Bool := c == 'u' || c == 'g' || c == 'o' || c == 'a'

def isSign (c : Char) : Bool := c == '+' || c == '-' || c == '='

def bitsOf? (old : Nat) (isDirectory : Bool) (who : List Char) (perms : Octets) : Option Nat :=
  let one (c : Char) : Option Nat :=
    let each (b : Nat) : Nat := who.foldl (fun n w => n ||| (b <<< shift w)) 0
    match c with
    | 'r' => some (each 4)
    | 'w' => some (each 2)
    | 'x' => some (each 1)
    | 'X' => some (if isDirectory ∨ old &&& 73 ≠ 0 then each 1 else 0)
    | 's' => some ((if who.contains 'u' then 2048 else 0) ||| (if who.contains 'g' then 1024 else 0))
    | 't' => some 512
    | 'u' | 'g' | 'o' => some (each ((old >>> shift c) % 8))
    | _ => none
  (perms.mapM one).map fun bits => bits.foldl (· ||| ·) 0

def changes? (mask : Nat) (isDirectory : Bool) (who : List Char) (all : Bool) : Nat → Nat → Octets → Option Nat
  | 0, _, _ => none
  | _, old, [] => some old
  | n + 1, old, sign :: rest =>
    if !isSign sign then none
    else
      let perms := rest.takeWhile fun c => !isSign c
      (bitsOf? old isDirectory who perms).bind fun bits =>
        let bits := if all then masked mask bits else bits
        let classes := who.foldl (fun k w => k ||| (7 <<< shift w)) 0
        let new := match sign with
          | '+' => old ||| bits
          | '-' => masked bits old
          | _ => masked (if all then classes - (classes &&& mask) else classes) old ||| bits
        changes? mask isDirectory who all n new (rest.drop perms.length)

/-- The mode after what a text asks for: a number, or clauses such as `go-w`. -/
def change? (mask : Nat) (isDirectory : Bool) (old : Nat) (text : Octets) : Option Nat :=
  if text.head?.any Char.isDigit then
    (Arithmetic.natural? 8 text).bind fun m => if m < 4096 then some m else none
  else
    (Text.split (· == ',') text).foldlM (fun old clause =>
      let named := clause.takeWhile isWho
      let all := named.isEmpty
      let who := if all ∨ named.contains 'a' then ['u', 'g', 'o'] else named
      let rest := clause.drop named.length
      if rest.isEmpty then none else changes? mask isDirectory who all (rest.length + 1) old rest) old

end CMakeHelm.Sh.Mode
