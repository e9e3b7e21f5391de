import CMakeHelm.Sh.Tool.Request

namespace CMakeHelm.Sh.Tool.Digest

open Run

def two32 : Nat := 4294967296

def rotate (x : UInt32) (n : Nat) : UInt32 :=
  (x <<< UInt32.ofNat n) ||| (x >>> UInt32.ofNat (32 - n))

def littleEnd : Nat → Nat → List Nat
  | 0, _ => []
  | n + 1, x => x % 256 :: littleEnd n (x / 256)

/-- The octets with a bit behind them, zeros, and the count of their bits, in blocks of 64. -/
def padded (low : Bool) (text : Octets) : List Nat :=
  let size := text.length
  let zeros := (119 - size % 64) % 64
  let count := littleEnd 8 (8 * size)
  text.map Char.toNat ++ 128 :: List.replicate zeros 0 ++ (if low then count else count.reverse)

def word (low : Bool) (octets : List Nat) : UInt32 :=
  UInt32.ofNat ((if low then octets.reverse else octets).foldl (fun n b => 256 * n + b) 0)

def chunks {α : Type} (size : Nat) : Nat → List α → List (List α)
  | 0, _ => []
  | n + 1, xs => if xs.isEmpty then [] else xs.take size :: chunks size n (xs.drop size)

def blocks (low : Bool) (text : Octets) : List (Array UInt32) :=
  let octets := padded low text
  (chunks 64 octets.length octets).map fun b => ((chunks 4 16 b).map (word low)).toArray

def hex (count n : Nat) : Octets :=
  let ds := Nat.toDigits 16 n
  List.replicate (count - ds.length) '0' ++ ds

def hexWord (low : Bool) (x : UInt32) : Octets :=
  let octets := littleEnd 4 x.toNat
  (if low then octets else octets.reverse).flatMap (hex 2)

def digest (low : Bool) (start : List UInt32) (block : List UInt32 → Array UInt32 → List UInt32)
    (text : Octets) : Octets :=
  let final := (blocks low text).foldl (fun h b => (h.zip (block h b)).map fun (x, y) => x + y) start
  final.flatMap (hexWord low)

def root (power n : Nat) : Nat → Nat → Nat
  | 0, low => low
  | bits + 1, low =>
    let next := low + Nat.pow 2 bits
    root power n bits (if Nat.pow next power ≤ n then next else low)

def primes (count : Nat) : List Nat :=
  let isPrime (n : Nat) : Bool := 2 ≤ n && (List.range n).all fun d => d < 2 || n % d ≠ 0
  ((List.range 320).filter isPrime).take count

/-- The first 32 bits behind the point of a root. -/
def fraction (power p : Nat) : UInt32 :=
  UInt32.ofNat (root power (p * Nat.pow two32 power) 40 0 % two32)

def md5Sines : Array UInt32 :=
  ((List.range 64).map fun i => (Float.abs (Float.sin (Float.ofNat (i + 1))) * 4294967296.0).toUInt32).toArray

def md5Turns : List (List Nat) := [[7, 12, 17, 22], [5, 9, 14, 20], [4, 11, 16, 23], [6, 10, 15, 21]]

def md5Block (sines : Array UInt32) (h : List UInt32) (b : Array UInt32) : List UInt32 :=
  let step (s : UInt32 × UInt32 × UInt32 × UInt32) (i : Nat) : UInt32 × UInt32 × UInt32 × UInt32 :=
    let (a, x, y, z) := s
    let (f, k) := match i / 16 with
      | 0 => ((x &&& y) ||| (~~~x &&& z), i)
      | 1 => ((z &&& x) ||| (~~~z &&& y), (5 * i + 1) % 16)
      | 2 => (x ^^^ y ^^^ z, (3 * i + 5) % 16)
      | _ => (y ^^^ (x ||| ~~~z), (7 * i) % 16)
    let turn := ((md5Turns.getD (i / 16) []).getD (i % 4) 0)
    let sum := a + f + sines.getD i 0 + b.getD k 0
    (z, x + rotate sum turn, x, y)
  match h with
  | [a, x, y, z] =>
    let (a, x, y, z) := (List.range 64).foldl step (a, x, y, z)
    [a, x, y, z]
  | _ => h

def md5 (text : Octets) : Octets :=
  let sines := md5Sines
  digest true [0x67452301, 0xefcdab89, 0x98badcfe, 0x10325476] (md5Block sines) text

def schedule (next : Array UInt32 → Nat → UInt32) (count : Nat) (b : Array UInt32) : Array UInt32 :=
  (List.range (count - 16)).foldl (fun w i => w.push (next w (i + 16))) b

def sha1Block (h : List UInt32) (b : Array UInt32) : List UInt32 :=
  let at_ (w : Array UInt32) (i : Nat) : UInt32 := w.getD i 0
  let ws := schedule (fun w i => rotate (at_ w (i - 3) ^^^ at_ w (i - 8) ^^^ at_ w (i - 14) ^^^ at_ w (i - 16)) 1) 80 b
  let step (s : List UInt32) (i : Nat) : List UInt32 :=
    match s with
    | [a, x, y, z, e] =>
      let (f, k) : UInt32 × UInt32 := match i / 20 with
        | 0 => ((x &&& y) ||| (~~~x &&& z), 0x5a827999)
        | 1 => (x ^^^ y ^^^ z, 0x6ed9eba1)
        | 2 => ((x &&& y) ||| (x &&& z) ||| (y &&& z), 0x8f1bbcdc)
        | _ => (x ^^^ y ^^^ z, 0xca62c1d6)
      [rotate a 5 + f + e + k + at_ ws i, a, rotate x 30, y, z]
    | s => s
  (List.range 80).foldl step h

def sha1 (text : Octets) : Octets :=
  digest false [0x67452301, 0xefcdab89, 0x98badcfe, 0x10325476, 0xc3d2e1f0] sha1Block text

def sha256Block (constants : Array UInt32) (h : List UInt32) (b : Array UInt32) : List UInt32 :=
  let at_ (w : Array UInt32) (i : Nat) : UInt32 := w.getD i 0
  let mix (x : UInt32) (p q : Nat) (r : UInt32) : UInt32 := rotate x (32 - p) ^^^ rotate x (32 - q) ^^^ r
  let ws := schedule (fun w i =>
    let x := at_ w (i - 15)
    let y := at_ w (i - 2)
    at_ w (i - 16) + mix x 7 18 (x >>> 3) + at_ w (i - 7) + mix y 17 19 (y >>> 10)) 64 b
  let step (s : List UInt32) (i : Nat) : List UInt32 :=
    match s with
    | [a, x, y, z, e, f, g, k] =>
      let first := k + mix e 6 11 (rotate e 7) + ((e &&& f) ^^^ (~~~e &&& g)) + constants.getD i 0 + at_ ws i
      let second := mix a 2 13 (rotate a 10) + ((a &&& x) ^^^ (a &&& y) ^^^ (x &&& y))
      [first + second, a, x, y, z + first, e, f, g]
    | s => s
  (List.range 64).foldl step h

def sha256 (text : Octets) : Octets :=
  let constants := ((primes 64).map (fraction 3)).toArray
  digest false ((primes 8).map (fraction 2)) (sha256Block constants) text

def check (tool : String) (sum : Octets → Octets) (lists : List (Octets × Octets)) (quiet : Bool) : Run Int := do
  let mut status : Int := 0
  for (_, list) in lists do
    let mut failed := 0
    for line in lines list do
      let wanted := line.takeWhile (· ≠ ' ')
      let name := (line.drop wanted.length).drop 2
      match ← source tool name with
      | some text =>
        if sum text = wanted then
          if !quiet then print (name ++ ": OK\n".toList)
        else
          print (name ++ ": FAILED\n".toList)
          failed := failed + 1
          status := 1
      | none =>
        print (name ++ ": FAILED open or read\n".toList)
        status := 1
    if failed > 0 then
      grumble tool ("WARNING: ".toList ++ decimal failed ++
        (if failed = 1 then " computed checksum did NOT match" else " computed checksums did NOT match").toList)
  return status

def sums (tool : String) (sum : Octets → Octets) (args : List Octets) : Run Int := do
  let r := request [] [("check", 'c'), ("binary", 'b'), ("text", 't'), ("quiet", 'q'), ("status", 's')] args
  let (texts, status) ← sources tool r.named
  if r.has 'c' then
    return max status (← check tool sum texts (r.has 'q' || r.has 's'))
  for (name, text) in texts do
    print (sum text ++ [' ', if r.has 'b' then '*' else ' '] ++ name ++ ['\n'])
  return status

def shiftIn (x : UInt32) (bit : Bool) : UInt32 :=
  if ((x >>> 31) == 1) != bit then (x <<< 1) ^^^ 0x04c11db7 else x <<< 1

def octetIn (x : UInt32) (b : Nat) : UInt32 :=
  (List.range 8).foldl (fun x i => shiftIn x (b.testBit (7 - i))) x

def lengthOctets (n : Nat) : List Nat := ((littleEnd 16 n).reverse.dropWhile (· = 0)).reverse

def cyclic (text : Octets) : Nat :=
  (~~~ ((text.map Char.toNat ++ lengthOctets text.length).foldl octetIn 0)).toNat

def cksum (args : List Octets) : Run Int := do
  let r := request [] [] args
  let (texts, status) ← sources "cksum" r.named
  for (name, text) in texts do
    print (decimal (cyclic text) ++ ' ' :: decimal text.length ++
      (if r.named.isEmpty then [] else ' ' :: name) ++ ['\n'])
  return status

def turning (text : Octets) : Nat :=
  text.foldl (fun n c => (n / 2 + n % 2 * 32768 + c.toNat) % 65536) 0

def sum (args : List Octets) : Run Int := do
  let r := request [] [] args
  let (texts, status) ← sources "sum" r.named
  for (name, text) in texts do
    let k := decimal (turning text)
    let size := decimal ((text.length + 1023) / 1024)
    print (List.replicate (5 - k.length) '0' ++ k ++ ' ' :: List.replicate (5 - size.length) ' ' ++ size ++
      (if r.named.length > 1 ∨ (r.named.length = 1 ∧ name ≠ ['-']) then ' ' :: name else []) ++ ['\n'])
  return status

structure Alphabet where
  letters : List Char
  bits : Nat
  group : Nat

def upperCase : List Char := "ABCDEFGHIJKLMNOPQRSTUVWXYZ".toList

def alphabet64 : Alphabet := ⟨upperCase ++ upperCase.map Char.toLower ++ "0123456789+/".toList, 6, 4⟩

def alphabet32 : Alphabet := ⟨upperCase ++ "234567".toList, 5, 8⟩

def encodeGroup (a : Alphabet) (octets : List Nat) : Octets :=
  let value := octets.foldl (fun n b => 256 * n + b) 0
  let count := (8 * octets.length + a.bits - 1) / a.bits
  let value := value * Nat.pow 2 (count * a.bits - 8 * octets.length)
  let letter (i : Nat) : Char :=
    a.letters.getD (value / Nat.pow 2 (a.bits * (count - 1 - i)) % Nat.pow 2 a.bits) '='
  (List.range count).map letter ++ List.replicate (a.group - count) '='

def encode (a : Alphabet) (text : Octets) : Octets :=
  let octets := text.map Char.toNat
  (chunks (a.group * a.bits / 8) octets.length octets).flatMap (encodeGroup a)

def decodeGroup (a : Alphabet) (letters : Octets) : Octets × Bool :=
  let real := letters.takeWhile (· ≠ '=')
  let indices := real.filterMap fun c => a.letters.findIdx? (· = c)
  let value := indices.foldl (fun n i => Nat.pow 2 a.bits * n + i) 0
  let count := a.bits * indices.length / 8
  let value := value / Nat.pow 2 (a.bits * indices.length - 8 * count)
  (((littleEnd count value).reverse).map Char.ofNat, indices.length = real.length ∧ letters.length = a.group)

def decode (a : Alphabet) : Nat → Octets → Octets × Bool
  | 0, _ => ([], true)
  | n + 1, letters =>
    if letters.isEmpty then ([], true)
    else
      let (out, fine) := decodeGroup a (letters.take a.group)
      if fine then
        let (more, fine) := decode a n (letters.drop a.group)
        (out ++ more, fine)
      else (out, false)

def letters (tool : String) (a : Alphabet) (args : List Octets) : Run Int := do
  let r := request ['w'] [("decode", 'd'), ("ignore-garbage", 'i'), ("wrap", 'w')] args
  let (texts, status) ← sources tool r.named
  for (_, text) in texts do
    if r.has 'd' then
      let kept := text.filter fun c => if r.has 'i' then c = '=' || a.letters.contains c else c ≠ '\n'
      let (out, fine) := decode a (kept.length + 1) kept
      print out
      if !fine then
        grumble tool "invalid input".toList
        return 1
    else
      let out := encode a text
      let width := (r.number? 'w').getD 76
      if width = 0 then print out
      else print (unlines (chunks width (out.length + 1) out))
  return status

inductive Cell where
  | number (base size : Nat) (signed : Bool)
  | character
  | named
deriving DecidableEq

def Cell.size : Cell → Nat
  | .number _ size _ => size
  | _ => 1

def digitsOf (base size : Nat) : Nat := (Nat.toDigits base (Nat.pow 256 size - 1)).length

def Cell.width : Cell → Nat
  | .number 10 size true => (Nat.toDigits 10 (Nat.pow 256 size / 2)).length + 1
  | .number base size _ => digitsOf base size
  | _ => 3

def controlNames : List String :=
  ["nul", "soh", "stx", "etx", "eot", "enq", "ack", "bel", "bs", "ht", "nl", "vt", "ff", "cr", "so", "si", "dle",
    "dc1", "dc2", "dc3", "dc4", "nak", "syn", "etb", "can", "em", "sub", "esc", "fs", "gs", "rs", "us", "sp"]

def shownCharacter (c : Char) : Octets :=
  match c.toNat with
  | 0 => ['\\', '0']
  | 7 => ['\\', 'a']
  | 8 => ['\\', 'b']
  | 9 => ['\\', 't']
  | 10 => ['\\', 'n']
  | 11 => ['\\', 'v']
  | 12 => ['\\', 'f']
  | 13 => ['\\', 'r']
  | n => if 32 ≤ n ∧ n < 127 then [c] else
      let ds := Nat.toDigits 8 n
      List.replicate (3 - ds.length) '0' ++ ds

def Cell.shown (u : Cell) (octets : Octets) : Octets :=
  match u with
  | .character => octets.flatMap shownCharacter
  | .named => octets.flatMap fun c =>
      let n := c.toNat % 128
      if n = 127 then "del".toList else ((controlNames[n]?).map String.toList).getD [Char.ofNat n]
  | .number base size signed =>
    let n : Nat := (octets.reverse.map Char.toNat).foldl (fun n b => 256 * n + b) 0
    if signed then integer (Int.bmod n (Nat.pow 256 size))
    else
      let ds := Nat.toDigits base n
      if base = 10 then ds else List.replicate (digitsOf base size - ds.length) '0' ++ ds

def unitsOf : Nat → Octets → List Cell
  | 0, _ => []
  | n + 1, cs =>
    match cs with
    | 'c' :: rest => .character :: unitsOf n rest
    | 'a' :: rest => .named :: unitsOf n rest
    | c :: rest =>
      let base? := [('o', 8), ('x', 16), ('u', 10), ('d', 10)].lookup c
      let digits := rest.takeWhile Char.isDigit
      let (size, rest) := match digits, rest with
        | [], 'C' :: rest => (1, rest)
        | [], 'S' :: rest => (2, rest)
        | [], 'I' :: rest => (4, rest)
        | [], 'L' :: rest => (8, rest)
        | [], rest => (4, rest)
        | ds, rest => ((natural ds).getD 4, rest.drop ds.length)
      match base? with
      | some base => .number base size (c = 'd') :: unitsOf n rest
      | none => unitsOf n rest
    | [] => []

def row (u : Cell) (perBlock lineSize : Nat) (octets : Octets) : Octets :=
  let fields := lineSize / u.size
  let total := perBlock * lineSize / 8
  let space := total - fields * u.width
  let cells := chunks u.size octets.length octets
  let cell (i : Nat) (c : Octets) : Octets :=
    let shown := u.shown (c ++ List.replicate (u.size - c.length) (Char.ofNat 0))
    let before := space * (fields - i) / fields - space * (fields - i - 1) / fields
    List.replicate (before + u.width - shown.length) ' ' ++ shown
  (cells.zipIdx.flatMap fun (c, i) => cell i c)

def od (args : List Octets) : Run Int := do
  let r := request ['A', 't', 'N', 'j', 'w']
    [("address-radix", 'A'), ("format", 't'), ("read-bytes", 'N'), ("skip-bytes", 'j'), ("output-duplicates", 'v')] args
  let (texts, status) ← sources "od" r.named
  if texts.isEmpty then return status
  let text := texts.flatMap (·.2)
  let skipped := (r.number? 'j').getD 0
  let text := text.drop skipped
  let text := match r.number? 'N' with
    | some k => text.take k
    | none => text
  let units := r.options.flatMap fun (c, v) =>
    match c with
    | 't' => unitsOf (v.length + 1) v
    | 'c' => [.character]
    | 'a' => [.named]
    | 'b' => [.number 8 1 false]
    | 'x' => [.number 16 2 false]
    | 'o' => [.number 8 2 false]
    | 'd' => [.number 10 2 false]
    | 's' => [.number 10 2 true]
    | _ => []
  let units : List Cell := if units.isEmpty then [.number 8 2 false] else units
  let lineSize := (r.number? 'w').getD 16
  let perBlock := (units.map fun u => (u.width + 1) * 8 / u.size).foldl max 0
  let address (n : Nat) : Octets :=
    match r.value? 'A' with
    | some ['n'] => []
    | some ['d'] => let ds := decimal n; List.replicate (7 - ds.length) '0' ++ ds
    | some ['x'] => hex 6 n
    | _ => let ds := Nat.toDigits 8 n; List.replicate (7 - ds.length) '0' ++ ds
  let hasAddress := r.value? 'A' ≠ some ['n']
  let step (acc : List Octets × Nat × Option Octets × Bool) (line : Octets) :
      List Octets × Nat × Option Octets × Bool :=
    let (out, place, last, starred) := acc
    if last = some line ∧ line.length = lineSize ∧ !r.has 'v' then
      (if starred then out else ['*', '\n'] :: out, place + line.length, last, true)
    else
      let rows := units.zipIdx.flatMap fun (u, i) =>
        (if i = 0 then address place else List.replicate (address place).length ' ') ++ row u perBlock lineSize line ++ ['\n']
      (rows :: out, place + line.length, some line, false)
  let (out, place, _, _) := (chunks lineSize (text.length + 1) text).foldl step ([], skipped, none, false)
  print out.reverse.flatten
  if hasAddress then print (address place ++ ['\n'])
  return status

def table : List (String × (List Octets → Run Int)) :=
  [("md5sum", sums "md5sum" md5), ("sha1sum", sums "sha1sum" sha1), ("sha256sum", sums "sha256sum" sha256),
    ("cksum", cksum), ("sum", sum), ("base64", letters "base64" alphabet64), ("base32", letters "base32" alphabet32),
    ("od", od)]

end CMakeHelm.Sh.Tool.Digest
