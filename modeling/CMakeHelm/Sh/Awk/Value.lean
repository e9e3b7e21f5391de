import CMakeHelm.Sh.Awk.Lexer
import CMakeHelm.Sh.Tool.Request

namespace CMakeHelm.Sh.Awk

inductive Value where
  | unset
  | number (x : Float)
  | text (cs : Octets)
  | given (cs : Octets)

instance : Inhabited Value := ⟨.unset⟩

def leadingNumber (cs : Octets) : Option (Float × Octets) :=
  let cs := cs.dropWhile Arithmetic.isWhite
  match cs with
  | '-' :: cs => (number? cs).map fun (x, rest) => (-x, rest)
  | '+' :: cs => number? cs
  | cs => number? cs

def toFloat (cs : Octets) : Float := ((leadingNumber cs).map (·.1)).getD 0

def looksNumeric (cs : Octets) : Bool :=
  match leadingNumber cs with
  | some (_, rest) => rest.all Arithmetic.isWhite
  | none => false

def Value.toNumber : Value → Float
  | .unset => 0
  | .number x => x
  | .text cs | .given cs => toFloat cs

def floatingOf (x : Float) : Floating :=
  let bits := x.toBits.toNat
  let negative := bits ≥ Nat.pow 2 63
  let exponent := bits / Nat.pow 2 52 % 2048
  let mantissa := bits % Nat.pow 2 52
  if exponent = 2047 then (if mantissa = 0 then .infinite negative else .nan negative)
  else if exponent = 0 then .finite negative mantissa (-1074)
  else .finite negative (mantissa + Nat.pow 2 52) ((exponent : Int) - 1075)

def limit : Float := 9223372036854775807.0

def truncated (x : Float) : Int :=
  if x.isNaN then -9223372036854775808
  else if x ≥ limit then Arithmetic.largest
  else if x ≤ -limit then -Arithmetic.largest - 1
  else
    let n : Int := x.abs.toUInt64.toNat
    if x < 0 then -n else n

def isWhole (x : Float) : Bool := x == x.floor && x < limit && x > -limit

def formatted : Nat → Octets → List Value → Octets
  | 0, _, _ => []
  | n + 1, cs, args =>
    match cs with
    | [] => []
    | '%' :: '%' :: rest => '%' :: formatted n rest args
    | '%' :: rest =>
      let (l, rest') := Format.flags {} rest
      let (width, rest', args) := measure rest' args
      let l : Format.Layout := { l with width := width.natAbs, left := l.left || width < 0 }
      let (precision, rest', args) := match rest' with
        | '.' :: rest' => let (k, rest', args) := measure rest' args; (if k < 0 then none else some k.toNat, rest', args)
        | rest' => (none, rest', args)
      let l := { l with precision }
      let rest' := rest'.dropWhile fun c => c = 'l' ∨ c = 'h'
      if args.isEmpty then [] else
      let value := args.headD .unset
      let plainText : Octets := plain value
      match rest' with
      | c :: rest' =>
        let shown? : Option Octets := match c with
          | 'd' | 'i' => some (Format.signed l (truncated value.toNumber))
          | 'o' => some (Format.unsigned l 8 false (truncated value.toNumber))
          | 'x' => some (Format.unsigned l 16 false (truncated value.toNumber))
          | 'X' => some (Format.unsigned l 16 true (truncated value.toNumber))
          | 'u' => some (Format.unsigned l 10 false (truncated value.toNumber))
          | 'c' => some (Format.padded l (match value with
            | .number x => [Char.ofNat ((truncated x).emod 256).toNat]
            | _ => plainText.take 1))
          | 's' => some (Format.padded l ((l.precision.map (plainText.take ·)).getD plainText))
          | 'e' | 'E' | 'f' | 'g' | 'G' => some (Format.float l c (floatingOf value.toNumber))
          | 'F' => some (Format.float l 'f' (floatingOf value.toNumber))
          | _ => none
        match shown? with
        | some shown => shown ++ formatted n rest' args.tail
        | none => '%' :: formatted n rest args
      | [] => '%' :: rest
    | c :: rest => c :: formatted n rest args
where
  plain (v : Value) : Octets :=
    match v with
    | .unset => []
    | .text cs | .given cs => cs
    | .number x =>
      if isWhole x then integer (truncated x) else Format.float { precision := some 6 } 'g' (floatingOf x)
  measure (cs : Octets) (args : List Value) : Int × Octets × List Value :=
    match cs with
    | '*' :: cs => (truncated (args.headD .unset).toNumber, cs, args.tail)
    | cs => let (k, cs) := Format.decimal cs; (k, cs, args)

def operandCount : Nat → Octets → Nat
  | 0, _ => 0
  | n + 1, cs =>
    match cs.dropWhile (· ≠ '%') with
    | '%' :: '%' :: rest => operandCount n rest
    | '%' :: rest =>
      let between := rest.takeWhile fun c => !c.isAlpha || c = 'l' || c = 'h'
      between.count '*' + (if (rest.drop between.length).isEmpty then 0 else 1) +
        operandCount n (rest.drop (between.length + 1))
    | _ => 0

def Value.toText (format : Octets) : Value → Octets
  | .unset => []
  | .text cs | .given cs => cs
  | .number x => if isWhole x then integer (truncated x) else formatted (format.length + 1) format [.number x]

def Value.isTrue : Value → Bool
  | .unset => false
  | .number x => x != 0
  | .text cs => !cs.isEmpty
  | .given cs => if looksNumeric cs then toFloat cs != 0 else !cs.isEmpty

def Value.isNumeric : Value → Bool
  | .unset | .number _ => true
  | .text _ => false
  | .given cs => looksNumeric cs

/-- Numbers are compared as numbers if both sides are, else as texts. -/
def Value.compare (format : Octets) (a b : Value) : Ordering :=
  if a.isNumeric ∧ b.isNumeric then
    if a.toNumber < b.toNumber then .lt else if a.toNumber == b.toNumber then .eq else .gt
  else
    let x := a.toText format
    let y := b.toText format
    if x = y then .eq else if inOrder x y then .lt else .gt

def Comparison.holds (c : Comparison) (o : Ordering) : Bool :=
  match c with
  | .less => o == .lt
  | .atMost => o != .gt
  | .equal => o == .eq
  | .unequal => o != .eq
  | .greater => o == .gt
  | .atLeast => o != .lt

def remainderOf (x y : Float) : Float :=
  if y == 0 || x.isNaN || y.isNaN || x.isInf then 0.0 / 0.0
  else if y.isInf then x
  else
    match floatingOf x.abs, floatingOf y.abs with
    | .finite _ m e, .finite _ k d =>
      let low := min e d
      let a := m * Nat.pow 2 (e - low).toNat
      let b := k * Nat.pow 2 (d - low).toNat
      let r := Float.scaleB (Float.ofNat (a % b)) low
      if x < 0 then -r else r
    | _, _ => 0

def Operation.apply (op : Operation) (x y : Float) : Float :=
  match op with
  | .add => x + y
  | .subtract => x - y
  | .multiply => x * y
  | .divide => x / y
  | .remainder => remainderOf x y
  | .power => Float.pow x y

def splitAt (r : Regex) (t : Array Char) : Nat → Nat → List Octets
  | 0, _ => []
  | n + 1, start =>
    let rec look : Nat → Nat → Option Regex.Match
      | 0, _ => none
      | k + 1, i =>
        match r.find? t i with
        | some m => if m.stop > m.start then some m else look k (m.stop + 1)
        | none => none
    match look (t.size + 1) start with
    | some m => (t.toList.drop start).take (m.start - start) :: splitAt r t n m.stop
    | none => [t.toList.drop start]

/-- The fields of a text. One blank separates as runs of blanks do, and one other character as
itself. -/
def fieldsOf (separator text : Octets) : List Octets :=
  match separator with
  | [' '] => Tool.words text
  | [] => text.map ([·])
  | [c] => if text.isEmpty then [] else Text.split (· == c) text
  | cs =>
    if text.isEmpty then []
    else
      match regexOf cs with
      | some r => splitAt r text.toArray (text.length + 1) 0
      | none => [text]

def replacement (matched : Octets) : Octets → Octets
  | '\\' :: '&' :: rest => '&' :: replacement matched rest
  | '\\' :: '\\' :: '&' :: rest => '\\' :: (matched ++ replacement matched rest)
  | '&' :: rest => matched ++ replacement matched rest
  | c :: rest => c :: replacement matched rest
  | [] => []

def substitute (r : Regex) (new : Octets) (all : Bool) (text : Octets) : Octets × Nat :=
  let t := text.toArray
  go t (t.size + 2) 0 (-1) []
where
  go (t : Array Char) : Nat → Nat → Int → List Octets → Octets × Nat
    | 0, _, _, out => (out.reverse.flatten, 0)
    | n + 1, i, last, out =>
      let finish (k : Nat) (out : List Octets) (i : Nat) : Octets × Nat :=
        ((t.toList.drop i :: out).reverse.flatten, k)
      match r.find? t i with
      | none => finish 0 out i
      | some m =>
        let before := (t.toList.drop i).take (m.start - i)
        if m.stop = m.start ∧ (m.start : Int) = last then
          if m.start ≥ t.size then finish 0 out i
          else go t n (m.start + 1) (-1) ((t.toList.drop i).take (m.start + 1 - i) :: out)
        else
          let matched := (t.toList.drop m.start).take (m.stop - m.start)
          let out := replacement matched new :: before :: out
          if !all then finish 1 out m.stop
          else if m.stop = m.start then
            if m.start ≥ t.size then ((out.reverse).flatten, 1)
            else
              let (text, k) := go t n (m.start + 1) (-1) ((t.toList.drop m.start).take 1 :: out)
              (text, k + 1)
          else
            let (text, k) := go t n m.stop m.stop out
            (text, k + 1)

end CMakeHelm.Sh.Awk
