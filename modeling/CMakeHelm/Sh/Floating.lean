import CMakeHelm.Sh.Arithmetic

namespace CMakeHelm.Sh

structure FloatFormat where
  bits : Nat
  least : Int
  greatest : Int
deriving DecidableEq, Repr

def FloatFormat.double : FloatFormat := ⟨53, -1074, 971⟩

def FloatFormat.extended : FloatFormat := ⟨64, -16445, 16320⟩

/-- `finite` is `mantissa * 2 ^ exponent`. -/
inductive Floating where
  | finite (negative : Bool) (mantissa : Nat) (exponent : Int)
  | infinite (negative : Bool)
  | nan (negative : Bool)
deriving DecidableEq, Repr

namespace Floating

def isNegative : Floating → Bool
  | finite s _ _ | infinite s | nan s => s

/-- The nearest whole number to a quotient; of two the even one. -/
def nearest (num den : Nat) : Nat :=
  let q := num / den
  let r := num % den
  if 2 * r < den ∨ (2 * r = den ∧ q % 2 = 0) then q else q + 1

def scaled (num den : Nat) (e : Int) : Nat :=
  if e < 0 then nearest (num <<< e.natAbs) den else nearest num (den <<< e.toNat)

/-- The number of a format that is nearest to a quotient. -/
def ofQuotient (f : FloatFormat) (negative : Bool) (num den : Nat) : Floating :=
  if num = 0 then finite negative 0 0
  else
    let guess : Int := (num.log2 : Int) - (den.log2 : Int) - (f.bits : Int) + 1
    let e := max guess f.least
    let e := if scaled num den e ≥ Nat.pow 2 f.bits then e + 1
      else if e > f.least ∧ scaled num den e < Nat.pow 2 (f.bits - 1) then e - 1 else e
    let m := scaled num den e
    let (m, e) := if m = Nat.pow 2 f.bits then (m / 2, e + 1) else (m, e)
    if e > f.greatest then infinite negative else finite negative m e

def digits (cs : Octets) : Nat := cs.foldl (fun n d => 10 * n + (d.toNat - 48)) 0

def hexDigits (cs : Octets) : Nat := cs.foldl (fun n d => 16 * n + (Arithmetic.digit? 16 d).getD 0) 0

def exponent? (marks : List Char) (cs : Octets) : Int × Octets :=
  match cs with
  | m :: rest =>
    if m ∉ marks then (0, cs)
    else
      let (sign, rest') : Int × Octets := match rest with
        | '-' :: r => (-1, r)
        | '+' :: r => (1, r)
        | r => (1, r)
      let ds := rest'.takeWhile Char.isDigit
      if ds.isEmpty then (0, cs) else (sign * digits ds, rest'.drop ds.length)
  | [] => (0, [])

def lowered (cs : Octets) : Octets := cs.map Char.toLower

def unsigned? (f : FloatFormat) (negative : Bool) (cs : Octets) : Option (Floating × Octets) :=
  let starts (s : String) : Bool := s.toList.isPrefixOf (lowered cs)
  if starts "infinity" then some (infinite negative, cs.drop 8)
  else if starts "inf" then some (infinite negative, cs.drop 3)
  else if starts "nan" then some (nan negative, cs.drop 3)
  else
    let isHex (c : Char) : Bool := (Arithmetic.digit? 16 c).isSome
    let whole := (cs.drop 2).takeWhile isHex
    let afterWhole := cs.drop (2 + whole.length)
    let fraction := match afterWhole with
      | '.' :: r => r.takeWhile isHex
      | _ => []
    if starts "0x" ∧ !(whole.isEmpty ∧ fraction.isEmpty) then
      let rest := if afterWhole.head? = some '.' then afterWhole.drop (1 + fraction.length) else afterWhole
      let (e, rest) := exponent? ['p', 'P'] rest
      let e := e - 4 * fraction.length
      let m := hexDigits (whole ++ fraction)
      let bounded := max (-20000) (min e 20000)
      some (if bounded < 0 then ofQuotient f negative m (1 <<< bounded.natAbs)
        else ofQuotient f negative (m <<< bounded.toNat) 1, rest)
    else
      let whole := cs.takeWhile Char.isDigit
      let afterWhole := cs.drop whole.length
      let fraction := match afterWhole with
        | '.' :: r => r.takeWhile Char.isDigit
        | _ => []
      if whole.isEmpty ∧ fraction.isEmpty then none
      else
        let rest := if afterWhole.head? = some '.' then afterWhole.drop (1 + fraction.length) else afterWhole
        let (e, rest) := exponent? ['e', 'E'] rest
        let m := digits (whole ++ fraction)
        let e := e - fraction.length
        let bounded := max (-30000 : Int) (min e 6000)
        some (if bounded < 0 then ofQuotient f negative m (Nat.pow 10 bounded.natAbs)
          else ofQuotient f negative (m * Nat.pow 10 bounded.toNat) 1, rest)

def read? (f : FloatFormat) (text : Octets) : Option (Floating × Octets) :=
  match text.dropWhile Arithmetic.isWhite with
  | '-' :: cs => unsigned? f true cs
  | '+' :: cs => unsigned? f false cs
  | cs => unsigned? f false cs

def quotient (m : Nat) (e : Int) (p : Int) : Nat × Nat :=
  ((if e ≥ 0 then m <<< e.toNat else m) * (if p ≥ 0 then Nat.pow 10 p.toNat else 1),
    (if e < 0 then 1 <<< e.natAbs else 1) * (if p < 0 then Nat.pow 10 p.natAbs else 1))

def timesTen (m : Nat) (e : Int) (p : Int) : Nat :=
  let (num, den) := quotient m e p
  nearest num den

def decimalDigits (n : Nat) : Octets := Nat.toDigits 10 n

def fixed (m : Nat) (e : Int) (places : Nat) (alternate : Bool) : Octets :=
  let ds := decimalDigits (timesTen m e places)
  let ds := List.replicate (places + 1 - ds.length) '0' ++ ds
  let whole := ds.take (ds.length - places)
  whole ++ if places = 0 then (if alternate then ['.'] else []) else '.' :: ds.drop (ds.length - places)

def rounded (m : Nat) (e : Int) (count : Nat) : Int × Octets :=
  if m = 0 then (0, List.replicate count '0')
  else
    let estimate : Int := (((m.log2 : Int) + e) * 30103).fdiv 100000
    let candidates := [estimate + 1, estimate, estimate - 1, estimate - 2]
    let at_ (x : Int) : Octets := decimalDigits (timesTen m e ((count : Int) - 1 - x))
    match candidates.find? fun x => let (num, den) := quotient m e (-x); decide (num ≥ den) with
    | some x =>
      let ds := at_ x
      if ds.length > count then (x + 1, ds.take count) else (x, ds)
    | none => (0, List.replicate count '0')

def exponentText (x : Int) : Octets :=
  let ds := decimalDigits x.natAbs
  (if x < 0 then '-' else '+') :: List.replicate (2 - ds.length) '0' ++ ds

def scientific (m : Nat) (e : Int) (places : Nat) (alternate : Bool) : Octets :=
  let (x, ds) := rounded m e (places + 1)
  let tail := ds.tail
  ds.take 1 ++ (if tail.isEmpty then (if alternate then ['.'] else []) else '.' :: tail) ++ 'e' :: exponentText x

def withoutZeros (text : Octets) : Octets :=
  if text.contains '.' then
    match text.reverse.dropWhile (· = '0') with
    | '.' :: rest => rest.reverse
    | rest => rest.reverse
  else text

def general (m : Nat) (e : Int) (count : Nat) (alternate : Bool) : Octets :=
  let count := max count 1
  let (x, _) := rounded m e count
  if x < -4 ∨ x ≥ count then
    let text := scientific m e (count - 1) alternate
    if alternate then text
    else
      let front := text.takeWhile (· ≠ 'e')
      withoutZeros front ++ text.drop front.length
  else
    let text := fixed m e ((count : Int) - 1 - x).toNat alternate
    if alternate then text else withoutZeros text

def magnitude (letter : Char) (places : Nat) (alternate : Bool) : Floating → Octets
  | infinite _ => "inf".toList
  | nan _ => "nan".toList
  | finite _ m e =>
    match letter with
    | 'f' => fixed m e places alternate
    | 'e' => scientific m e places alternate
    | _ => general m e places alternate

end Floating

end CMakeHelm.Sh
