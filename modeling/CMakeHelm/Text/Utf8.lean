namespace CMakeHelm.Text

abbrev Bytes := List UInt8

/-- A character starts with a byte that fixes how many continuation bytes follow and in which
range the first of them lies; the range excludes overlong forms and surrogates. -/
structure Lead where
  bits : Nat
  more : Nat
  low : Nat
  high : Nat

def lead? (b : UInt8) : Option Lead :=
  let n := b.toNat
  if n < 0x80 then some ⟨n, 0, 0x80, 0xBF⟩
  else if n < 0xC2 then none
  else if n < 0xE0 then some ⟨n - 0xC0, 1, 0x80, 0xBF⟩
  else if n = 0xE0 then some ⟨0, 2, 0xA0, 0xBF⟩
  else if n = 0xED then some ⟨0xD, 2, 0x80, 0x9F⟩
  else if n < 0xF0 then some ⟨n - 0xE0, 2, 0x80, 0xBF⟩
  else if n = 0xF0 then some ⟨0, 3, 0x90, 0xBF⟩
  else if n < 0xF4 then some ⟨n - 0xF0, 3, 0x80, 0xBF⟩
  else if n = 0xF4 then some ⟨4, 3, 0x80, 0x8F⟩
  else none

/-- The code point from its bits so far and the continuation bytes still owed, with the bytes
after it. When a byte is missing or out of range the piece ends before it. -/
def finish (low high : Nat) : (more bits : Nat) → (rest : Bytes) → Option Char × Bytes
  | 0, bits, rest => (some (Char.ofNat bits), rest)
  | _ + 1, _, [] => (none, [])
  | more + 1, bits, b :: rest =>
    if low ≤ b.toNat ∧ b.toNat ≤ high then
      finish 0x80 0xBF more (bits * 64 + (b.toNat - 0x80)) rest
    else (none, b :: rest)

theorem length_finish_le (low high more bits : Nat) (rest : Bytes) :
    (finish low high more bits rest).2.length ≤ rest.length := by
  induction more generalizing low high bits rest with
  | zero => simp [finish]
  | succ more ih =>
    cases rest with
    | nil => simp [finish]
    | cons b rest =>
      rw [finish]
      split
      · exact Nat.le_succ_of_le (ih ..)
      · simp

def scalars : Bytes → List (Option Char)
  | [] => []
  | b :: rest =>
    match lead? b with
    | none => none :: scalars rest
    | some l =>
      let r := finish l.low l.high l.more l.bits rest
      r.1 :: scalars r.2
termination_by bytes => bytes.length
decreasing_by
  · simp
  · exact Nat.lt_succ_of_le (length_finish_le ..)

def decode? (bytes : Bytes) : Option (List Char) := (scalars bytes).mapM id

def decodeLossy (bytes : Bytes) : List Char := (scalars bytes).map (·.getD '\uFFFD')

def encodeChar (c : Char) : Bytes :=
  let n := c.toNat
  let tail (k : Nat) : UInt8 := UInt8.ofNat (0x80 + (n >>> (6 * k)) % 64)
  if n < 0x80 then [UInt8.ofNat n]
  else if n < 0x800 then [UInt8.ofNat (0xC0 + n / 64), tail 0]
  else if n < 0x10000 then [UInt8.ofNat (0xE0 + n / 4096), tail 1, tail 0]
  else [UInt8.ofNat (0xF0 + n / 262144), tail 2, tail 1, tail 0]

def encode (cs : List Char) : Bytes := cs.flatMap encodeChar

end CMakeHelm.Text
