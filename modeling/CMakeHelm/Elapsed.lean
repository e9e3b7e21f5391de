namespace CMakeHelm.Elapsed

structure Fraction where
  num : Nat
  den : Nat
deriving DecidableEq, Repr

def Fraction.round (x : Fraction) : Nat :=
  let q := x.num / x.den
  let r := x.num % x.den
  if 2 * r < x.den ∨ (2 * r = x.den ∧ q % 2 = 0) then q else q + 1

/-- The nearest number with 53 significant bits. -/
def Fraction.double (x : Fraction) : Fraction :=
  if x.num = 0 then x
  else
    let scaled (up down : Nat) : Fraction :=
      ⟨(Fraction.mk (x.num <<< up) (x.den <<< down)).round <<< down, 1 <<< up⟩
    let n := x.num.log2
    let d := x.den.log2
    -- The quotient lies between `2 ^ (n - d - 1)` and `2 ^ (n - d + 1)`.
    let top := if x.den <<< n ≤ x.num <<< d then n + 1 else n
    scaled (d + 53 - top) (top - (d + 53))

def Fraction.add (x y : Fraction) : Fraction := ⟨x.num * y.den + y.num * x.den, x.den * y.den⟩

def Fraction.fixed (places : Nat) (x : Fraction) : String :=
  let unit := Nat.pow 10 places
  let n := (Fraction.mk (x.num * unit) x.den).round
  let digits := Nat.repr (n % unit)
  let zeros := String.ofList (List.replicate (places - digits.length) '0')
  s!"{n / unit}.{zeros}{digits}"

def perSecond : Nat := 1000000000

/-- Whole seconds and the rest are rounded each, and their sum again. -/
def seconds (nanos : Nat) : Fraction :=
  ((Fraction.mk (nanos / perSecond) 1).double.add (Fraction.mk (nanos % perSecond) perSecond).double).double

def display (nanos : Nat) : String :=
  let s := seconds nanos
  if s.num < 60 * s.den then s.fixed 2 ++ "s" else (Fraction.mk s.num (60 * s.den)).double.fixed 1 ++ "m"

end CMakeHelm.Elapsed
