import CMakeHelm.Sh.Syntax

namespace CMakeHelm.Sh.Arithmetic

inductive Trouble where
  | malformed (rest : Octets)
  | trailing (rest : Octets)
  | colon (rest : Octets)
  | divisionByZero (rest : Octets)
  | negativeExponent (rest : Octets)
  | notVariable (rest : Octets)
  | digit (number : Octets)
  | badBase (number : Octets)
  | badNumber (text : Octets)
  | unset (name : Octets)
  | tooDeep (text : Octets)
deriving DecidableEq, Repr

inductive Binary where
  | power | mul | div | rem | add | sub | shiftLeft | shiftRight
  | less | lessEqual | greater | greaterEqual | equal | unequal
  | and | xor | or
deriving DecidableEq, Repr

inductive Unary where
  | plus | minus | complement | not
deriving DecidableEq, Repr

structure Place where
  name : Octets
  subscript : Option Octets := none
deriving DecidableEq, Repr

inductive Expr where
  | number (n : Int)
  | variable (p : Place)
  | unary (op : Unary) (e : Expr)
  | binary (op : Binary) (a b : Expr) (rest : Octets)
  | both (a b : Expr)
  | either (a b : Expr)
  | choose (c a b : Expr)
  | assign (p : Place) (op : Option Binary) (e : Expr) (rest : Octets)
  | step (p : Place) (by_ : Int) (isNew : Bool)
  | andThen (a b : Expr)

def wrap (n : Int) : Int := Int.bmod n (Nat.pow 2 64)

def largest : Int := 9223372036854775807

def digit? (base : Nat) (c : Char) : Option Nat :=
  let d := if c.isDigit then c.toNat - 48 else if c.isAlpha then c.toLower.toNat - 87 else base
  if d < base then some d else none

def natural? (base : Nat) : Octets → Option Nat
  | [] => none
  | cs => cs.foldlM (fun n c => (digit? base c).map fun d => base * n + d) 0

/-- Octal behind a zero, hexadecimal behind `0x`, else decimal. -/
def unsigned? : Octets → Option Nat
  | '0' :: 'x' :: cs | '0' :: 'X' :: cs => natural? 16 cs
  | '0' :: c :: cs => natural? 8 (c :: cs)
  | cs => natural? 10 cs

def isWhite (c : Char) : Bool := c == ' ' || ('\t' ≤ c && c ≤ '\r')

def trimmed (text : Octets) : Octets := ((text.dropWhile isWhite).reverse.dropWhile isWhite).reverse

def signed? (unsigned? : Octets → Option Nat) (text : Octets) : Option Int :=
  match trimmed text with
  | '-' :: cs => (unsigned? cs).map fun n => -(n : Int)
  | '+' :: cs => (unsigned? cs).map fun n => (n : Int)
  | cs => (unsigned? cs).map fun n => (n : Int)

def value? (text : Octets) : Option Int := if text.all isWhite then some 0 else signed? unsigned? text

def fitsWord (n : Int) : Bool := decide (-largest - 1 ≤ n) && decide (n ≤ largest)

/-- A digit where bases go up to 64: letters of both cases count apart beyond base 36. -/
def wideDigit? (base : Nat) (c : Char) : Option Nat :=
  let d :=
    if c.isDigit then c.toNat - 48
    else if c.isLower then c.toNat - 87
    else if c.isUpper then if base ≤ 36 then c.toNat - 55 else c.toNat - 29
    else if c = '@' then 62
    else if c = '_' then 63
    else base
  if d < base then some d else none

def ofDigits (base : Nat) (ds all : Octets) : Except Trouble Int :=
  match ds.foldlM (fun n c => (wideDigit? base c).map fun d => base * n + d) 0 with
  | some n => .ok (wrap n)
  | none => .error (.digit all)

def literal (cs : Octets) : Except Trouble Int :=
  let base := cs.takeWhile (· ≠ '#')
  if base.length < cs.length then
    match natural? 10 base with
    | none => .error (.digit cs)
    | some b =>
      let ds := cs.drop (base.length + 1)
      if b < 2 ∨ 64 < b then .error (.badBase cs)
      else if ds.isEmpty then .error (.digit cs)
      else ofDigits b ds cs
  else
    match cs with
    | '0' :: 'x' :: ds | '0' :: 'X' :: ds => ofDigits 16 ds cs
    | '0' :: ds => ofDigits 8 ds cs
    | _ => ofDigits 10 cs cs

def operators : List (String × Binary × Nat) :=
  [("**", .power, 12), ("<<", .shiftLeft, 9), (">>", .shiftRight, 9), ("<=", .lessEqual, 8),
    (">=", .greaterEqual, 8), ("==", .equal, 7), ("!=", .unequal, 7), ("<", .less, 8), (">", .greater, 8),
    ("*", .mul, 11), ("/", .div, 11), ("%", .rem, 11), ("+", .add, 10), ("-", .sub, 10), ("&", .and, 6),
    ("^", .xor, 5), ("|", .or, 4)]

def assigning : List (String × Option Binary) :=
  [("=", none), ("*=", some .mul), ("/=", some .div), ("%=", some .rem), ("+=", some .add),
    ("-=", some .sub), ("<<=", some .shiftLeft), (">>=", some .shiftRight), ("&=", some .and),
    ("^=", some .xor), ("|=", some .or)]

def skipWhite (cs : Octets) : Octets := cs.dropWhile isWhite

def after? (s : String) (cs : Octets) : Option Octets :=
  if s.toList.isPrefixOf cs then some (cs.drop s.length) else none

def assigns? (cs : Octets) : Option (Option Binary × Octets) :=
  if (after? "==" cs).isSome then none
  else assigning.findSome? fun (s, op) => (after? s cs).map (op, ·)

def operator? (d : Dialect) (cs : Octets) : Option (Binary × Nat × Octets) :=
  if (after? "&&" cs).isSome ∨ (after? "||" cs).isSome ∨ (assigns? cs).isSome then none
  else
    operators.findSome? fun (s, op, rank) =>
      if op = .power ∧ d = .posix then none else (after? s cs).map (op, rank, ·)

def bracketed? : Nat → Octets → Option (Octets × Octets)
  | _, [] => none
  | 0, ']' :: cs => some ([], cs)
  | depth, c :: cs =>
    let depth := if c = '[' then depth + 1 else if c = ']' then depth - 1 else depth
    (bracketed? depth cs).map fun (a, rest) => (c :: a, rest)

def place? (d : Dialect) (cs : Octets) : Option (Place × Octets) :=
  let name := cs.takeWhile isNameChar
  let rest := cs.drop name.length
  if !isName name then none
  else
    match d, rest with
    | .bash, '[' :: more =>
      match bracketed? 0 more with
      | some (subscript, rest) => some (⟨name, some subscript⟩, rest)
      | none => some (⟨name, none⟩, rest)
    | _, _ => some (⟨name, none⟩, rest)

abbrev Read := Except Trouble (Expr × Octets)

mutual

def primary (d : Dialect) : Nat → Octets → Read
  | 0, cs => .error (.malformed cs)
  | n + 1, cs =>
    let steps (cs rest : Octets) (by_ : Int) (sign : Unary) : Read :=
      match place? d (skipWhite cs) with
      | some (p, rest) => .ok (.step p by_ true, rest)
      | none => do let (e, rest) ← primary d n rest; return (.unary sign e, rest)
    match d, skipWhite cs with
    | _, '(' :: cs => do
      let (e, cs) ← sequence d n cs
      match skipWhite cs with
      | ')' :: cs => return (e, cs)
      | cs => .error (.malformed cs)
    | .bash, '+' :: '+' :: cs => steps cs ('+' :: cs) 1 .plus
    | .bash, '-' :: '-' :: cs => steps cs ('-' :: cs) (-1) .minus
    | _, '+' :: cs => do let (e, cs) ← primary d n cs; return (.unary .plus e, cs)
    | _, '-' :: cs => do let (e, cs) ← primary d n cs; return (.unary .minus e, cs)
    | _, '~' :: cs => do let (e, cs) ← primary d n cs; return (.unary .complement e, cs)
    | _, '!' :: cs => do let (e, cs) ← primary d n cs; return (.unary .not e, cs)
    | d, c :: cs =>
      if c.isDigit then
        match d with
        | .bash => do
          let word := (c :: cs).takeWhile fun c => isNameChar c || c == '#' || c == '@'
          return (.number (← literal word), (c :: cs).drop word.length)
        | .posix =>
          let word := (c :: cs).takeWhile isNameChar
          match unsigned? word with
          | some k => .ok (.number (min k largest), (c :: cs).drop word.length)
          | none => .error (.trailing (c :: cs))
      else
        match place? d (c :: cs) with
        | none => .error (.malformed (c :: cs))
        | some (p, rest) =>
          match d, skipWhite rest with
          | .bash, '+' :: '+' :: more => .ok (.step p 1 false, more)
          | .bash, '-' :: '-' :: more => .ok (.step p (-1) false, more)
          | _, _ => .ok (.variable p, rest)
    | _, [] => .error (.malformed cs)

def operations (d : Dialect) : Nat → Nat → Expr → Octets → Read
  | 0, _, _, cs => .error (.malformed cs)
  | n + 1, rank, left, cs =>
    match operator? d (skipWhite cs) with
    | some (op, r, after) =>
      if r < rank then .ok (left, cs)
      else do
        let (right, cs) ← primary d n after
        let (right, cs) ← operations d n (if op = .power then r else r + 1) right cs
        operations d n rank (.binary op left right (skipWhite after)) cs
    | none => .ok (left, cs)

def conjunction (d : Dialect) : Nat → Octets → Read
  | 0, cs => .error (.malformed cs)
  | n + 1, cs => do
    let (e, cs) ← primary d n cs
    let (e, cs) ← operations d n 0 e cs
    match after? "&&" (skipWhite cs) with
    | some cs => do let (b, cs) ← conjunction d n cs; return (.both e b, cs)
    | none => return (e, cs)

def disjunction (d : Dialect) : Nat → Octets → Read
  | 0, cs => .error (.malformed cs)
  | n + 1, cs => do
    let (e, cs) ← conjunction d n cs
    match after? "||" (skipWhite cs) with
    | some cs => do let (b, cs) ← disjunction d n cs; return (.either e b, cs)
    | none => return (e, cs)

def choice (d : Dialect) : Nat → Octets → Read
  | 0, cs => .error (.malformed cs)
  | n + 1, cs => do
    let (c, cs) ← disjunction d n cs
    match skipWhite cs with
    | '?' :: cs => do
      let (a, cs) ← sequence d n cs
      match skipWhite cs with
      | ':' :: cs => do let (b, cs) ← choice d n cs; return (.choose c a b, cs)
      | cs => .error (.colon cs)
    | cs => return (c, cs)

def assignment (d : Dialect) : Nat → Octets → Read
  | 0, cs => .error (.malformed cs)
  | n + 1, cs =>
    let start := skipWhite cs
    let assigned := (place? d start).bind fun (p, rest) => (assigns? (skipWhite rest)).map (p, ·)
    match assigned with
    | some (p, op, rest) => do
      let (e, cs) ← assignment d n rest
      return (.assign p op e (skipWhite rest), cs)
    | none => do
      let (e, rest) ← choice d n cs
      if d = .bash ∧ (assigns? (skipWhite rest)).isSome then .error (.notVariable (skipWhite rest))
      else return (e, rest)

def sequence (d : Dialect) : Nat → Octets → Read
  | 0, cs => .error (.malformed cs)
  | n + 1, cs => do
    let (e, cs) ← assignment d n cs
    match d, skipWhite cs with
    | .bash, ',' :: cs => do let (b, cs) ← sequence d n cs; return (.andThen e b, cs)
    | _, _ => return (e, cs)

end

def parse (d : Dialect) (text : Octets) : Except Trouble Expr := do
  let (e, rest) ← sequence d (10 * text.length + 20) text
  match skipWhite rest with
  | [] => return e
  | rest => .error (.trailing rest)

def ofBool (b : Bool) : Int := if b then 1 else 0

def word (n : Int) : BitVec 64 := BitVec.ofInt 64 n

def power (a : Int) : Nat → Int
  | 0 => 1
  | n + 1 =>
    let half := power a ((n + 1) / 2)
    wrap (if (n + 1) % 2 = 0 then half * half else half * half * a)
termination_by n => n

/-- The least number divided by minus one has no right value; shells differ in the wrong one. -/
def quotient (d : Dialect) (a b : Int) : Int :=
  if d = .posix ∧ a = -largest - 1 ∧ b = -1 then largest else wrap (a.tdiv b)

def Binary.apply (d : Dialect) (op : Binary) (a b : Int) (rest : Octets) : Except Trouble Int :=
  match op with
  | power => if b < 0 then .error (.negativeExponent rest) else .ok (Arithmetic.power a b.toNat)
  | mul => .ok (wrap (a * b))
  | div => if b = 0 then .error (.divisionByZero rest) else .ok (quotient d a b)
  | rem => if b = 0 then .error (.divisionByZero rest) else .ok (a.tmod b)
  | add => .ok (wrap (a + b))
  | sub => .ok (wrap (a - b))
  | shiftLeft => .ok ((word a) <<< (b.emod 64).toNat).toInt
  | shiftRight => .ok ((word a).sshiftRight (b.emod 64).toNat).toInt
  | less => .ok (ofBool (a < b))
  | lessEqual => .ok (ofBool (a ≤ b))
  | greater => .ok (ofBool (a > b))
  | greaterEqual => .ok (ofBool (a ≥ b))
  | equal => .ok (ofBool (a = b))
  | unequal => .ok (ofBool (a ≠ b))
  | and => .ok (word a &&& word b).toInt
  | xor => .ok (word a ^^^ word b).toInt
  | or => .ok (word a ||| word b).toInt

def Unary.apply (op : Unary) (a : Int) : Int :=
  match op with
  | plus => a
  | minus => wrap (-a)
  | complement => -a - 1
  | not => ofBool (a = 0)

abbrev Slot := Octets × Option Octets

structure Scope where
  dialect : Dialect
  value : Slot → Option Octets
  isKeyed : Octets → Bool := fun _ => false
  strict : Bool := false

abbrev Assigned := List (Slot × Int)

abbrev Result := Except Trouble (Int × Assigned)

mutual

def slot (scope : Scope) : Nat → Place → Assigned → Except Trouble (Slot × Assigned)
  | 0, p, _ => .error (.tooDeep p.name)
  | n + 1, p, s =>
    match p.subscript with
    | none => .ok ((p.name, none), s)
    | some text =>
      if scope.isKeyed p.name then .ok ((p.name, some text), s)
      else do
        let (k, s) ← evalText scope n text s
        return ((p.name, if k = 0 then none else some (Int.repr k).toList), s)

def valueAt (scope : Scope) : Nat → Slot → Assigned → Result
  | 0, slot, _ => .error (.tooDeep slot.1)
  | n + 1, slot, s =>
    match s.lookup slot with
    | some k => .ok (k, s)
    | none =>
      match scope.value slot, scope.dialect with
      | none, _ => if scope.strict then .error (.unset slot.1) else .ok (0, s)
      | some text, .bash => evalText scope n text s
      | some text, .posix =>
        match value? text with
        | some k => if fitsWord k then .ok (k, s) else .error (.badNumber text)
        | none => .error (.badNumber text)

def evalText (scope : Scope) : Nat → Octets → Assigned → Result
  | 0, text, _ => .error (.tooDeep text)
  | n + 1, text, s =>
    if text.all isWhite then .ok (0, s)
    else do evalWithin scope n (← parse scope.dialect text) s

def evalWithin (scope : Scope) : Nat → Expr → Assigned → Result
  | 0, _, _ => .error (.tooDeep [])
  | n + 1, e, s => do
    match e with
    | .number k => return (k, s)
    | .variable p =>
      let (slot, s) ← slot scope n p s
      valueAt scope n slot s
    | .unary op e =>
      let (a, s) ← evalWithin scope n e s
      return (op.apply a, s)
    | .binary op a b rest =>
      let (a, s) ← evalWithin scope n a s
      let (b, s) ← evalWithin scope n b s
      return (← op.apply scope.dialect a b rest, s)
    | .both a b =>
      let (a, s) ← evalWithin scope n a s
      if a = 0 then return (0, s)
      let (b, s) ← evalWithin scope n b s
      return (ofBool (b ≠ 0), s)
    | .either a b =>
      let (a, s) ← evalWithin scope n a s
      if a ≠ 0 then return (1, s)
      let (b, s) ← evalWithin scope n b s
      return (ofBool (b ≠ 0), s)
    | .choose c a b =>
      let (c, s) ← evalWithin scope n c s
      if c ≠ 0 then evalWithin scope n a s else evalWithin scope n b s
    | .assign p none e _ =>
      let (k, s) ← evalWithin scope n e s
      let (slot, s) ← slot scope n p s
      return (k, (slot, k) :: s)
    | .assign p (some op) e rest =>
      let (b, s) ← evalWithin scope n e s
      let (slot, s) ← slot scope n p s
      let (a, s) ← valueAt scope n slot s
      let k ← op.apply scope.dialect a b rest
      return (k, (slot, k) :: s)
    | .step p by_ isNew =>
      let (slot, s) ← slot scope n p s
      let (a, s) ← valueAt scope n slot s
      let k := wrap (a + by_)
      return (if isNew then k else a, (slot, k) :: s)
    | .andThen a b =>
      let (_, s) ← evalWithin scope n a s
      evalWithin scope n b s

end

def depth : Nat := 4000

/-- The value of a text, and the assignments that it makes, in order. -/
def eval (scope : Scope) (text : Octets) : Except Trouble (Int × Assigned) := do
  let (k, s) ← match scope.dialect with
    | .bash => evalText scope depth text []
    | .posix => do evalWithin scope depth (← parse .posix text) []
  return (k, s.reverse)

def Trouble.bashMessage : Trouble → String × Octets
  | malformed [] => ("syntax error: operand expected", [])
  | malformed rest => ("syntax error: operand expected", rest)
  | trailing rest =>
    match rest with
    | c :: _ =>
      if isNameChar c ∨ c ∈ ['(', ')', '$', '\'', '"', ':'] then ("syntax error in expression", rest)
      else ("syntax error: invalid arithmetic operator", rest)
    | [] => ("syntax error in expression", rest)
  | colon rest => ("\x60:' expected for conditional expression", rest)
  | divisionByZero rest => ("division by 0", rest)
  | negativeExponent rest => ("exponent less than 0", rest)
  | notVariable rest => ("attempted assignment to non-variable", rest)
  | digit number => ("value too great for base", number)
  | badBase number => ("invalid arithmetic base", number)
  | badNumber text => ("syntax error: operand expected", text)
  | unset name => ("unbound variable", name)
  | tooDeep text => ("expression recursion level exceeded", text)

def Trouble.message (d : Dialect) (text : Octets) (t : Trouble) : Octets :=
  let within (what : String) : Octets :=
    "arithmetic expression: ".toList ++ what.toList ++ ": \"".toList ++ text ++ ['"']
  match d, t with
  | _, .unset name => name ++ (if d = .bash then ": unbound variable" else ": parameter not set").toList
  | .posix, .badNumber number => "Illegal number: ".toList ++ number
  | .posix, .divisionByZero _ => within "division by zero"
  | .posix, .trailing _ => within "expecting EOF"
  | .posix, .colon _ => within "expecting ':'"
  | .posix, _ => within "expecting primary"
  | .bash, t =>
    let (what, token) := t.bashMessage
    text.dropWhile isWhite ++ ": ".toList ++ what.toList ++ " (error token is \"".toList ++ token ++ "\")".toList

end CMakeHelm.Sh.Arithmetic
