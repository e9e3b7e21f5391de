namespace CMakeHelm.Text

def digit? (c : Char) : Option Nat :=
  if '0' ≤ c ∧ c ≤ '9' then some (c.toNat - '0'.toNat) else none

def digits? (n : Nat) : List Char → Option Nat
  | [] => some n
  | c :: cs => (digit? c).bind fun d => digits? (10 * n + d) cs

def natural? : List Char → Option Nat
  | [] => none
  | cs => digits? 0 cs

/-- At least one digit, perhaps behind a plus sign. A numeral out of range is none. -/
def unsigned? (bound : Nat) (cs : List Char) : Option Nat :=
  (natural? (if cs.head? = some '+' then cs.tail else cs)).filter (· < bound)

def signed? (bound : Nat) : List Char → Option Int
  | '-' :: cs => (natural? cs).bind fun n => if n ≤ bound then some (-(n : Int)) else none
  | cs => (unsigned? bound cs).map Int.ofNat

end CMakeHelm.Text
