import CMakeHelm.Data
import CMakeHelm.Text.Numeral
import CMakeHelm.Text.Pieces

namespace CMakeHelm.Toml

open Text

def isSpace (c : Char) : Bool := c == ' ' || c == '\t'

def isPlain (c : Char) : Bool := c == '\t' || (0x20 ≤ c.toNat && c.toNat ≠ 0x7F)

def dropSpace (cs : List Char) : List Char := cs.dropWhile isSpace

def newline? : List Char → Option (List Char)
  | '\n' :: rest => some rest
  | '\r' :: '\n' :: rest => some rest
  | _ => none

def simpleEscape? : Char → Option Char
  | 'b' => some '\x08'
  | 't' => some '\t'
  | 'n' => some '\n'
  | 'f' => some '\x0c'
  | 'r' => some '\r'
  | '"' => some '"'
  | '\\' => some '\\'
  | _ => none

def hexValue? (c : Char) : Option Nat :=
  if '0' ≤ c ∧ c ≤ '9' then some (c.toNat - 48)
  else if 'a' ≤ c ∧ c ≤ 'f' then some (c.toNat - 87)
  else if 'A' ≤ c ∧ c ≤ 'F' then some (c.toNat - 55)
  else none

def hex? (cs : List Char) : Option Nat :=
  cs.foldlM (fun n c => (hexValue? c).map (16 * n + ·)) 0

def scalar? (digits : List Char) : Option Char :=
  (hex? digits).bind fun n => if h : n.isValidChar then some (Char.ofNatAux n h) else none

abbrev Read (α : Type) := Option (α × List Char)

def put (c : Char) (r : Read (List Char)) : Read (List Char) := r.map fun (cs, rest) => (c :: cs, rest)

def basic : List Char → Read (List Char)
  | '"' :: rest => some ([], rest)
  | '\\' :: 'u' :: a :: b :: c :: d :: rest => (scalar? [a, b, c, d]).bind (put · (basic rest))
  | '\\' :: 'U' :: a :: b :: c :: d :: e :: f :: g :: h :: rest =>
    (scalar? [a, b, c, d, e, f, g, h]).bind (put · (basic rest))
  | '\\' :: c :: rest => (simpleEscape? c).bind (put · (basic rest))
  | c :: rest => if isPlain c ∧ c ≠ '\\' then put c (basic rest) else none
  | [] => none

def literal : List Char → Read (List Char)
  | '\'' :: rest => some ([], rest)
  | c :: rest => if isPlain c then put c (literal rest) else none
  | [] => none

/-- Up to two quotes right after the closing ones belong to the text. -/
def closing (quote : Char) (rest : List Char) : List Char × List Char :=
  match rest with
  | a :: b :: more =>
    if a = quote ∧ b = quote then ([a, b], more)
    else if a = quote then ([a], b :: more)
    else ([], rest)
  | [a] => if a = quote then ([a], []) else ([], rest)
  | [] => ([], [])

def endsLine (rest : List Char) : Bool := (newline? (dropSpace rest)).isSome

def multilineBasic (skipping : Bool) : List Char → Read (List Char)
  | '"' :: '"' :: '"' :: rest => some (closing '"' rest)
  | '\\' :: 'u' :: a :: b :: c :: d :: rest =>
    (scalar? [a, b, c, d]).bind (put · (multilineBasic false rest))
  | '\\' :: 'U' :: a :: b :: c :: d :: e :: f :: g :: h :: rest =>
    (scalar? [a, b, c, d, e, f, g, h]).bind (put · (multilineBasic false rest))
  | '\\' :: c :: rest =>
    if endsLine (c :: rest) then multilineBasic true (c :: rest)
    else (simpleEscape? c).bind (put · (multilineBasic false rest))
  | '\r' :: '\n' :: rest => if skipping then multilineBasic true rest else put '\n' (multilineBasic false rest)
  | '\n' :: rest => if skipping then multilineBasic true rest else put '\n' (multilineBasic false rest)
  | c :: rest =>
    if skipping ∧ isSpace c then multilineBasic true rest
    else if isPlain c ∧ c ≠ '\\' then put c (multilineBasic false rest)
    else none
  | [] => none

def multilineLiteral : List Char → Read (List Char)
  | '\'' :: '\'' :: '\'' :: rest => some (closing '\'' rest)
  | '\r' :: '\n' :: rest => put '\n' (multilineLiteral rest)
  | '\n' :: rest => put '\n' (multilineLiteral rest)
  | c :: rest => if isPlain c then put c (multilineLiteral rest) else none
  | [] => none

def afterOpening (cs : List Char) : List Char := (newline? cs).getD cs

def text : List Char → Read (List Char)
  | '"' :: '"' :: '"' :: rest => multilineBasic false (afterOpening rest)
  | '\'' :: '\'' :: '\'' :: rest => multilineLiteral (afterOpening rest)
  | '"' :: rest => basic rest
  | '\'' :: rest => literal rest
  | _ => none

def digits? (base : Nat) (cs : List Char) : Option (List Char) :=
  let parts := split (· == '_') cs
  if parts.all fun part => part ≠ [] && part.all fun c => (hexValue? c).any (· < base) then
    some parts.flatten
  else none

def unsign : List Char → List Char
  | '+' :: cs => cs
  | '-' :: cs => cs
  | cs => cs

def decimal? (cs : List Char) : Option (List Char) :=
  (digits? 10 cs).filter fun ds => ds.head? ≠ some '0' || ds = ['0']

def inBase (base : Nat) (ds : List Char) : Nat :=
  ds.foldl (fun n c => base * n + (hexValue? c).getD 0) 0

def integerBound : Nat := Nat.pow 2 63

def isInteger (token : List Char) : Bool :=
  let below (base : Nat) (cs : List Char) := (digits? base cs).any fun ds => inBase base ds < integerBound
  match token with
  | '0' :: 'x' :: cs => below 16 cs
  | '0' :: 'o' :: cs => below 8 cs
  | '0' :: 'b' :: cs => below 2 cs
  | cs =>
    (decimal? (unsign cs)).any fun ds =>
      let n := inBase 10 ds
      n < integerBound || (cs.head? = some '-' && n = integerBound)

def overflows (ds : List Char) (exponent : Int) : Bool :=
  let ds := ds.dropWhile (· == '0')
  let top := (ds.length : Int) + exponent
  if ds = [] || top < 309 then false
  else if top > 309 then true
  else
    let bound := Nat.pow 2 1024 - Nat.pow 2 970
    if exponent ≥ 0 then inBase 10 ds * Nat.pow 10 exponent.toNat ≥ bound
    else inBase 10 ds ≥ bound * Nat.pow 10 (-exponent).toNat

def isFloat (token : List Char) : Bool :=
  let bare := unsign token
  if bare = "inf".toList || bare = "nan".toList then true
  else
    let mantissa := bare.takeWhile fun c => c ≠ 'e' && c ≠ 'E'
    let exponent := (bare.drop mantissa.length).tail
    let hasExponent := mantissa.length < bare.length
    let whole := mantissa.takeWhile (· ≠ '.')
    let fraction := (mantissa.drop whole.length).tail
    let hasFraction := whole.length < mantissa.length
    match decimal? whole with
    | none => false
    | some w =>
      let digitsIf (present : Bool) (cs : List Char) := if present then digits? 10 cs else some []
      match digitsIf hasFraction fraction, digitsIf hasExponent (unsign exponent) with
      | some f, some e =>
        let n : Int := inBase 10 e
        let n := if exponent.head? = some '-' then -n else n
        (hasFraction || hasExponent) && (token.head? = some '-' || !overflows (w ++ f) (n - f.length))
      | _, _ => false

def twoDigits? : List Char → Read Nat
  | a :: b :: rest => (natural? [a, b]).map (·, rest)
  | _ => none

def expect (c : Char) : List Char → Option (List Char)
  | d :: rest => if d = c then some rest else none
  | [] => none

def upTo (low high : Nat) (r : Read Nat) : Read Nat := r.filter fun (n, _) => low ≤ n && n ≤ high

def daysIn (year month : Nat) : Nat :=
  if month = 2 then if year % 4 = 0 ∧ (year % 100 ≠ 0 ∨ year % 400 = 0) then 29 else 28
  else if month ∈ [4, 6, 9, 11] then 30 else 31

def date? (cs : List Char) : Option (List Char) := do
  let year ← if (cs.take 4).length = 4 then natural? (cs.take 4) else none
  let (month, rest) ← upTo 1 12 (twoDigits? (← expect '-' (cs.drop 4)))
  let (_, rest) ← upTo 1 (daysIn year month) (twoDigits? (← expect '-' rest))
  return rest

def time? (cs : List Char) : Option (List Char) := do
  let (_, rest) ← upTo 0 23 (twoDigits? cs)
  let (_, rest) ← upTo 0 59 (twoDigits? (← expect ':' rest))
  let (_, rest) ← upTo 0 60 (twoDigits? (← expect ':' rest))
  match rest with
  | '.' :: more =>
    let ds := more.takeWhile Char.isDigit
    if ds = [] then none else return more.drop ds.length
  | _ => return rest

def minutes? (cs : List Char) : Option (List Char) := do
  let (_, rest) ← upTo 0 23 (twoDigits? cs)
  let (_, rest) ← upTo 0 59 (twoDigits? (← expect ':' rest))
  return rest

def isOffset : List Char → Bool
  | [] | ['Z'] | ['z'] => true
  | c :: cs => (c == '+' || c == '-') && minutes? cs == some []

def isMoment (token : List Char) : Bool :=
  match date? token with
  | some [] => true
  | some (c :: rest) => (c == 'T' || c == 't' || c == ' ') && (time? rest).any isOffset
  | none => time? token = some []

def isTokenChar (c : Char) : Bool := c.isAlphanum || c ∈ ['+', '-', '_', '.', ':']

def ofToken? (token : List Char) : Option Data :=
  if token = "true".toList then some (.flag true)
  else if token = "false".toList then some (.flag false)
  else if isMoment token then some (.moment (String.ofList token))
  else if isFloat token || isInteger token then some (.number (String.ofList token))
  else none

/-- A date may have its time after a space. -/
def bare (cs : List Char) : Read Data :=
  let token := cs.takeWhile isTokenChar
  let rest := cs.dropWhile isTokenChar
  match date? token, rest with
  | some [], ' ' :: more =>
    let time := more.takeWhile isTokenChar
    if time.head?.any Char.isDigit then
      (ofToken? (token ++ ' ' :: time)).map (·, more.dropWhile isTokenChar)
    else (ofToken? token).map (·, rest)
  | _, _ => (ofToken? token).map (·, rest)

end CMakeHelm.Toml
