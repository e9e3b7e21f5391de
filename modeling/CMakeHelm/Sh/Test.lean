import CMakeHelm.FileSystem
import CMakeHelm.Sh.Arithmetic

namespace CMakeHelm.Sh.Test

def nullDevice : Location := ["dev".toList, "null".toList]

def pathOf (text : Octets) : Path := ⟨text⟩

structure Scope where
  dialect : Dialect
  fs : FileSystem
  stamp : Location → Nat := fun _ => 0
  isSet : Octets → Bool := fun _ => false
  isReference : Octets → Bool := fun _ => false
  hasOption : Octets → Bool := fun _ => false

variable (scope : Scope)

def located? (text : Octets) : Option (Location × Entry) := (scope.fs.locate (pathOf text)).toOption

def isRegular (text : Octets) : Bool :=
  match located? scope text with
  | some (l, .file _ _) => l ≠ nullDevice
  | _ => false

def isLink (text : Octets) : Bool :=
  match scope.fs.find false (pathOf text) with
  | .ok (.entry _ (.link _)) => true
  | _ => false

def isRunnable (text : Octets) : Bool :=
  match located? scope text with
  | some (_, .file _ executable) => executable
  | some _ => true
  | none => false

def holdsText (text : Octets) : Bool :=
  match located? scope text with
  | some (_, .file content _) => !content.isEmpty
  | some _ => true
  | none => false

def isDevice (text : Octets) : Bool := (located? scope text).any (·.1 == nullDevice)

def unary? (op : Octets) : Option (Octets → Bool) :=
  let extra (p : Octets → Bool) : Option (Octets → Bool) := if scope.dialect = .bash then some p else none
  match String.ofList op with
  | "-n" => some fun a => !a.isEmpty
  | "-z" => some fun a => a.isEmpty
  | "-e" | "-r" | "-w" | "-O" | "-G" => some fun a => (located? scope a).isSome
  | "-f" => some (isRegular scope)
  | "-d" => some fun a => scope.fs.isDirectory (pathOf a)
  | "-x" => some (isRunnable scope)
  | "-s" => some (holdsText scope)
  | "-L" | "-h" => some (isLink scope)
  | "-c" => some (isDevice scope)
  | "-b" | "-p" | "-S" | "-g" | "-u" | "-k" | "-t" => some fun _ => false
  | "-a" => extra fun a => (located? scope a).isSome
  | "-N" => extra fun _ => false
  | "-v" => extra scope.isSet
  | "-R" => extra scope.isReference
  | "-o" => extra scope.hasOption
  | _ => none

def numbers (p : Int → Int → Bool) (a b : Octets) : Except Octets Bool := do
  let number (text : Octets) : Except Octets Int :=
    match Arithmetic.signed? (Arithmetic.natural? 10) text with
    | some n => if Arithmetic.fitsWord n then .ok n else wrong text
    | none => wrong text
  return p (← number a) (← number b)
where
  wrong (text : Octets) : Except Octets Int :=
    .error (match scope.dialect with
      | .posix => "Illegal number: ".toList ++ text
      | .bash => text ++ ": integer expression expected".toList)

/-- Whether one file was written to after another; a file that is not there is older than all. -/
def isNewer (a b : Octets) : Bool :=
  match located? scope a, located? scope b with
  | some (la, _), some (lb, _) => decide (scope.stamp lb < scope.stamp la)
  | some _, none => scope.dialect = .bash
  | none, _ => false

def binary? (op : Octets) : Option (Octets → Octets → Except Octets Bool) :=
  match String.ofList op with
  | "=" | "==" => some fun a b => .ok (a == b)
  | "!=" => some fun a b => .ok (a != b)
  | "<" => some fun a b => .ok (decide (a < b))
  | ">" => some fun a b => .ok (decide (b < a))
  | "-eq" => some (numbers scope fun a b => a == b)
  | "-ne" => some (numbers scope fun a b => a != b)
  | "-lt" => some (numbers scope fun a b => decide (a < b))
  | "-le" => some (numbers scope fun a b => decide (a ≤ b))
  | "-gt" => some (numbers scope fun a b => decide (a > b))
  | "-ge" => some (numbers scope fun a b => decide (a ≥ b))
  | "-ef" => some fun a b =>
    .ok ((located? scope a).isSome && (located? scope a).map (·.1) == (located? scope b).map (·.1))
  | "-nt" => some fun a b => .ok (isNewer scope a b)
  | "-ot" => some fun a b => .ok (isNewer scope b a)
  | _ => none

def isBinary (op : Octets) : Bool := (binary? scope op).isSome

/-- Whether the first word is an operator with one operand, and not an operand itself. -/
def actsAlone : List Octets → Bool
  | op :: a :: rest => (unary? scope op).isSome && !(!rest.isEmpty && isBinary scope a)
  | _ => false

def blame (word : Octets) (message : String) : Octets :=
  if word.isEmpty then message.toList else word ++ ": ".toList ++ message.toList

abbrev Read := Except Octets (Bool × List Octets)

mutual

def primary : Nat → List Octets → Read
  | 0, _ => .error []
  | _, [] => .ok (false, [])
  | n + 1, word :: rest =>
    if word = ['('] ∧ !rest.isEmpty then
      match rest with
      | [')'] :: rest => .ok (false, rest)
      | _ => do
        let (b, rest) ← disjunction n rest
        match rest with
        | [')'] :: rest => return (b, rest)
        | _ => .error (blame [] "closing paren expected")
    else if actsAlone scope (word :: rest) then
      match unary? scope word, rest with
      | some holds, a :: rest => .ok (holds a, rest)
      | _, _ => .error (blame word "argument expected")
    else
      match rest with
      | op :: more =>
        match binary? scope op, more with
        | some holds, b :: rest => do return (← holds word b, rest)
        | some _, [] => .error (blame op "argument expected")
        | none, _ => .ok (!word.isEmpty, rest)
      | [] => .ok (!word.isEmpty, [])

def negation : Nat → List Octets → Read
  | 0, _ => .error []
  | n + 1, args =>
    match args with
    | ['!'] :: a :: rest => do
      let (b, rest) ← negation n (a :: rest)
      return (!b, rest)
    | _ => primary n args

def conjunction : Nat → List Octets → Read
  | 0, _ => .error []
  | n + 1, args => do
    let (a, rest) ← negation n args
    match rest with
    | ['-', 'a'] :: rest => do
      let (b, rest) ← conjunction n rest
      return (a && b, rest)
    | _ => return (a, rest)

def disjunction : Nat → List Octets → Read
  | 0, _ => .error []
  | n + 1, args => do
    let (a, rest) ← conjunction n args
    match rest with
    | ['-', 'o'] :: rest => do
      let (b, rest) ← disjunction n rest
      return (a || b, rest)
    | _ => return (a, rest)

end

/-- The truth of a condition, or what is wrong with it. Up to four words have their meaning by their
number; two negations at the front of four words count as one. -/
def plainCondition : List Octets → Except Octets Bool
  | [] => .ok false
  | [a] => .ok (!a.isEmpty)
  | [a, op, b] =>
    match binary? scope op with
    | some holds => holds a b
    | none =>
      if a = ['('] ∧ b = [')'] then whole [op]
      else if a = ['!'] then do return !(← whole [op, b])
      else whole [a, op, b]
  | [['!'], a, op, b] => do
    match binary? scope op with
    | some holds => return !(← holds a b)
    | none => return !(← whole (if a = ['!'] then [op, b] else [a, op, b]))
  | args => whole args
where
  whole (args : List Octets) : Except Octets Bool := do
    match ← disjunction scope (5 * args.length + 10) args with
    | (b, []) => return b
    | (_, rest) =>
      let last := (args[args.length - rest.length - 1]?).getD []
      .error (blame last "unexpected operator")

def bashCondition (args : List Octets) : Except Octets Bool :=
  match args with
  | [] => .ok false
  | [a] => .ok (!a.isEmpty)
  | [op, a] => two op a
  | [a, op, b] => three a op b
  | [['!'], a, op, b] => do return !(← three a op b)
  | [['('], a, b, [')']] => two a b
  | args => do
    match ← disjunction scope (5 * args.length + 10) args with
    | (b, []) => return b
    | (_, _) => .error "too many arguments".toList
where
  two (op a : Octets) : Except Octets Bool :=
    if op = ['!'] then .ok a.isEmpty
    else
      match unary? scope op with
      | some holds => .ok (holds a)
      | none => .error (blame op "unary operator expected")
  three (a op b : Octets) : Except Octets Bool :=
    match binary? scope op with
    | some holds => holds a b
    | none =>
      if op = ['-', 'a'] then .ok (!a.isEmpty && !b.isEmpty)
      else if op = ['-', 'o'] then .ok (!a.isEmpty || !b.isEmpty)
      else if a = ['!'] then do return !(← two op b)
      else if a = ['('] ∧ b = [')'] then .ok (!op.isEmpty)
      else .error (blame op "binary operator expected")

def condition (args : List Octets) : Except Octets Bool :=
  match scope.dialect with
  | .posix => plainCondition scope args
  | .bash => bashCondition scope args

end CMakeHelm.Sh.Test
