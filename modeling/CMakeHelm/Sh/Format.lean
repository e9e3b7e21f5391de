import CMakeHelm.Sh.Floating
import CMakeHelm.Sh.Quoting

namespace CMakeHelm.Sh.Format

/-- Whose rules are followed: those of a shell, or those of the program of that name. -/
inductive Rules where
  | posix
  | bash
  | tool
deriving DecidableEq, Repr

def rulesOf : Dialect → Rules
  | .posix => .posix
  | .bash => .bash

def isOctal (c : Char) : Bool := '0' ≤ c && c ≤ '7'

def octal (cs : Octets) : Char × Octets :=
  let ds := (cs.take 3).takeWhile isOctal
  (Char.ofNat (ds.foldl (fun n d => 8 * n + (d.toNat - 48)) 0 % 256), cs.drop ds.length)

def control? : Char → Option Char
  | 'a' => some '\x07'
  | 'b' => some '\x08'
  | 'e' => some '\x1b'
  | 'f' => some '\x0c'
  | 'n' => some '\n'
  | 'r' => some '\r'
  | 't' => some '\t'
  | 'v' => some '\x0b'
  | '\\' => some '\\'
  | _ => none

def codePoint (mark : Char) (count : Nat) (cs : Octets) : Octets × Octets :=
  let ds := (cs.take count).takeWhile fun c => (Arithmetic.digit? 16 c).isSome
  let k := Floating.hexDigits ds
  if ds.isEmpty then (['\\', mark], cs)
  else if k < 128 then ([Char.ofNat k], cs.drop ds.length)
  else
    let shown := (Nat.toDigits 16 k).map Char.toUpper
    let width := if k < 65536 then 4 else 8
    ('\\' :: (if k < 65536 then 'u' else 'U') :: List.replicate (width - shown.length) '0' ++ shown,
      cs.drop ds.length)

def escape (rules : Rules) : Octets → Octets × Octets
  | [] => (['\\'], [])
  | c :: cs =>
    if isOctal c then let (c, rest) := octal (c :: cs); ([c], rest)
    else
      match control? c, rules with
      | some d, _ => ([d], cs)
      | none, .posix => (['\\'], c :: cs)
      | none, _ =>
        let hex := (cs.take 2).takeWhile fun c => (Arithmetic.digit? 16 c).isSome
        match c with
        | 'x' =>
          if hex.isEmpty then (['\\', 'x'], cs)
          else ([Char.ofNat (Floating.hexDigits hex)], cs.drop hex.length)
        | 'E' => if rules = .bash then (['\x1b'], cs) else (['\\', 'E'], cs)
        | '"' => (['"'], cs)
        | 'u' => codePoint 'u' 4 cs
        | 'U' => codePoint 'U' 8 cs
        | _ => (['\\'], c :: cs)

/-- An operand with its escapes worked out, and whether `\c` cut it off. Octal numbers may have one
more zero in front, and have to where `strict` says so. -/
def unescapeWithin (rules : Rules) (strict : Bool) : Nat → Octets → Octets × Bool
  | 0, cs => (cs, false)
  | _, [] => ([], false)
  | _, '\\' :: 'c' :: _ => ([], true)
  | n + 1, '\\' :: cs =>
    let (piece, rest) := match cs with
      | '0' :: d :: rest => escape rules (if isOctal d then d :: rest else cs)
      | d :: rest => if strict ∧ (isOctal d ∧ d ≠ '0' ∨ d = '"') then (['\\', d], rest) else escape rules cs
      | [] => escape rules cs
    let (out, cut) := unescapeWithin rules strict n rest
    (piece ++ out, cut)
  | n + 1, c :: cs =>
    let (out, cut) := unescapeWithin rules strict n cs
    (c :: out, cut)

def unescape (rules : Rules) (strict : Bool) (cs : Octets) : Octets × Bool :=
  unescapeWithin rules strict (cs.length + 1) cs

def spaced (words : List Octets) : Octets := (words.intersperse [' ']).flatten

def echo (args : List Octets) : Octets :=
  let (args, newline) := match args with
    | ['-', 'n'] :: rest => (rest, false)
    | _ => (args, true)
  let (out, cut) := unescape .posix false (spaced args)
  if newline ∧ !cut then out ++ ['\n'] else out

structure EchoOptions where
  newline : Bool := true
  escapes : Bool := false

def echoOptions (o : EchoOptions) : List Octets → EchoOptions × List Octets
  | ('-' :: c :: cs) :: rest =>
    if (c :: cs).all (· ∈ ['n', 'e', 'E']) then
      echoOptions ((c :: cs).foldl (fun o c =>
        if c = 'n' then { o with newline := false } else { o with escapes := c = 'e' }) o) rest
    else (o, ('-' :: c :: cs) :: rest)
  | args => (o, args)

def plainEcho (rules : Rules) (args : List Octets) : Octets :=
  let (o, args) := echoOptions {} args
  let (out, cut) := if o.escapes then unescape rules true (spaced args) else (spaced args, false)
  if o.newline ∧ !cut then out ++ ['\n'] else out

structure Layout where
  left : Bool := false
  plus : Bool := false
  blank : Bool := false
  zero : Bool := false
  alternate : Bool := false
  width : Nat := 0
  precision : Option Nat := none

def padded (l : Layout) (text : Octets) : Octets :=
  let fill := List.replicate (l.width - text.length) ' '
  if l.left then text ++ fill else fill ++ text

def number (l : Layout) (sign mark digits : Octets) : Octets :=
  let digits := match l.precision with
    | some p => List.replicate (p - digits.length) '0' ++ digits
    | none =>
      if l.zero ∧ !l.left then
        List.replicate (l.width - (sign.length + mark.length + digits.length)) '0' ++ digits
      else digits
  padded l (sign ++ mark ++ digits)

def signed (l : Layout) (n : Int) : Octets :=
  let sign := if n < 0 then ['-'] else if l.plus then ['+'] else if l.blank then [' '] else []
  number l sign [] (Nat.toDigits 10 n.natAbs)

def unsigned (l : Layout) (base : Nat) (upper : Bool) (n : Int) : Octets :=
  let digits := Nat.toDigits base (n.emod (Nat.pow 2 64 : Nat)).toNat
  let digits := if upper then digits.map Char.toUpper else digits
  let mark :=
    if !l.alternate ∨ n = 0 then [] else if base = 8 then ['0'] else if upper then ['0', 'X'] else ['0', 'x']
  number l [] mark digits

inductive Complaint where
  | notNumeric (text : Octets)
  | notConverted (text : Octets)
  | outOfRange (text : Octets)
  | invalidDirective (text : Octets)
deriving DecidableEq, Repr

/-- The number an operand holds; what is no number counts as far as it is one. -/
def operand (text : Octets) : Int × Option Complaint :=
  let clamped (n : Int) : Int × Option Complaint :=
    if n > 18446744073709551615 then (Arithmetic.largest, some (.outOfRange text))
    else if n < -Arithmetic.largest - 1 then (-Arithmetic.largest - 1, some (.outOfRange text))
    else (n, none)
  match text with
  | '\'' :: c :: _ | '"' :: c :: _ => ((c.toNat : Int), none)
  | _ =>
    match Arithmetic.value? text with
    | some n => clamped n
    | none =>
      let lengths := (List.range text.length).reverse
      match lengths.findSome? fun k => if k = 0 then none else Arithmetic.value? (text.take k) with
      | some n => (n, some (.notConverted text))
      | none => (0, some (.notNumeric text))

def floatOperand (rules : Rules) (text : Octets) : Floating × Option Complaint :=
  let format := if rules = .posix then FloatFormat.double else .extended
  let whole (n : Nat) : Floating := Floating.ofQuotient format false n 1
  match text with
  | [] => (whole 0, none)
  | '\'' :: c :: _ | '"' :: c :: _ => (whole c.toNat, none)
  | _ =>
    match Floating.read? format text with
    | none => (whole 0, some (.notNumeric text))
    | some (x, rest) => (x, if rest.isEmpty then none else some (.notConverted text))

structure Printing where
  out : Octets := []
  args : List Octets
  complaints : List Complaint := []
  ended : Bool := false

def Printing.say (p : Printing) (cs : Octets) : Printing := { p with out := p.out ++ cs }

def Printing.next (p : Printing) : Octets × Printing :=
  match p.args with
  | [] => ([], p)
  | a :: rest => (a, { p with args := rest })

def Printing.nextNumber (p : Printing) : Int × Printing :=
  let (a, p) := p.next
  let (n, complaint) := operand a
  (n, { p with complaints := p.complaints ++ complaint.toList })

def flags (l : Layout) : Octets → Layout × Octets
  | '-' :: cs => flags { l with left := true } cs
  | '+' :: cs => flags { l with plus := true } cs
  | ' ' :: cs => flags { l with blank := true } cs
  | '0' :: cs => flags { l with zero := true } cs
  | '#' :: cs => flags { l with alternate := true } cs
  | cs => (l, cs)

def decimal (cs : Octets) : Nat × Octets :=
  let ds := cs.takeWhile Char.isDigit
  (ds.foldl (fun n d => 10 * n + (d.toNat - 48)) 0, cs.drop ds.length)

def measure (n : Int) : Int := Int.bmod n (Nat.pow 2 32)

def measures (l : Layout) (cs : Octets) (p : Printing) : Layout × Octets × Printing :=
  let (l, cs, p) := match cs with
    | '*' :: cs =>
      let (n, p) := p.nextNumber
      let n := measure n
      ({ l with width := n.natAbs, left := l.left || decide (n < 0) }, cs, p)
    | cs => let (n, cs) := decimal cs; ({ l with width := n }, cs, p)
  match cs with
  | '.' :: '*' :: cs =>
    let (n, p) := p.nextNumber
    let n := measure n
    ({ l with precision := if n < 0 then none else some n.toNat }, cs, p)
  | '.' :: cs => let (n, cs) := decimal cs; ({ l with precision := some n }, cs, p)
  | cs => (l, cs, p)

def float (l : Layout) (letter : Char) (x : Floating) : Octets :=
  let places := l.precision.getD 6
  let digits := x.magnitude letter.toLower places l.alternate
  let digits := if letter.isUpper then digits.map Char.toUpper else digits
  let sign := if x.isNegative then ['-'] else if l.plus then ['+'] else if l.blank then [' '] else []
  let isNumber := match x with
    | .finite _ _ _ => true
    | _ => false
  number { l with precision := none, zero := l.zero && isNumber } sign [] digits

def directive (rules : Rules) (cs : Octets) (p : Printing) : Octets × Printing :=
  let (l, cs') := flags {} cs
  let (l, cs', p) := measures l cs' p
  let cs' := if rules = .posix then cs' else cs'.dropWhile (· ∈ ['h', 'l', 'j', 'z', 't', 'L'])
  let limited (text : Octets) := (l.precision.map (text.take ·)).getD text
  let floating (letter : Char) (p : Printing) : Printing :=
    let (a, p) := p.next
    let (x, complaint) := floatOperand rules a
    { p with complaints := p.complaints ++ complaint.toList }.say (float l letter x)
  let integer (show_ : Int → Octets) : Printing := let (n, p) := p.nextNumber; p.say (show_ n)
  match cs' with
  | 's' :: cs => let (a, p) := p.next; (cs, p.say (padded l (limited a)))
  | 'b' :: cs =>
    let (a, p) := p.next
    let (a, cut) := unescape rules false a
    (cs, { p.say (padded l (limited a)) with ended := cut })
  | 'c' :: cs =>
    let (a, p) := p.next
    (cs, p.say (padded l [(a.head?).getD '\x00']))
  | 'd' :: cs | 'i' :: cs => (cs, integer (signed l))
  | 'u' :: cs => (cs, integer (unsigned l 10 false))
  | 'o' :: cs => (cs, integer (unsigned l 8 false))
  | 'x' :: cs => (cs, integer (unsigned l 16 false))
  | 'X' :: cs => (cs, integer (unsigned l 16 true))
  | 'f' :: cs | 'F' :: cs => (cs, floating 'f' p)
  | 'e' :: cs => (cs, floating 'e' p)
  | 'E' :: cs => (cs, floating 'E' p)
  | 'g' :: cs => (cs, floating 'g' p)
  | 'G' :: cs => (cs, floating 'G' p)
  | 'q' :: cs | 'Q' :: cs =>
    if rules = .posix then invalid cs' p
    else
      let (a, p) := p.next
      let text := if rules = .bash then Quoting.backslashed a
        else if a.isEmpty then ['\'', '\''] else Quoting.listed a
      (cs, p.say (padded l text))
  | _ => invalid cs' p
where
  invalid (cs' : Octets) (p : Printing) : Octets × Printing :=
    let bad := '%' :: cs.take (cs.length - cs'.length + 1)
    ([], { p with ended := true, complaints := p.complaints ++ [.invalidDirective bad] })

def pass (rules : Rules) : Nat → Octets → Printing → Printing
  | 0, _, p => p
  | _, [], p => p
  | n + 1, '\\' :: cs, p =>
    if rules = .tool ∧ cs.head? = some 'c' then { p with ended := true }
    else
      let (piece, cs) := escape rules cs
      pass rules n cs (p.say piece)
  | n + 1, '%' :: '%' :: cs, p => pass rules n cs (p.say ['%'])
  | n + 1, '%' :: cs, p =>
    let (cs, p) := directive rules cs p
    if p.ended then p else pass rules n cs p
  | n + 1, c :: cs, p => pass rules n cs (p.say [c])

/-- The format as often as it takes operands. -/
def passes (rules : Rules) (format : Octets) : Nat → Printing → Printing
  | 0, p => p
  | n + 1, p =>
    let before := p.args.length
    let p := pass rules (format.length + 1) format p
    if p.ended ∨ p.args.isEmpty ∨ p.args.length = before then p else passes rules format n p

def printf (rules : Rules) (format : Octets) (args : List Octets) : Printing :=
  passes rules format (args.length + 1) { args }

end CMakeHelm.Sh.Format
