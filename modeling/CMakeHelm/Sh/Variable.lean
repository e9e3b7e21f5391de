import CMakeHelm.Sh.Arithmetic

namespace CMakeHelm.Sh

inductive Items where
  | indexed (es : List (Nat × Octets))
  /-- By name, the newest first. -/
  | keyed (es : List (Octets × Octets))
deriving DecidableEq, Repr

def decimal (n : Nat) : Octets := (Nat.repr n).toList

def integer (n : Int) : Octets := (Int.repr n).toList

namespace Items

def put : List (Nat × Octets) → Nat → Octets → List (Nat × Octets)
  | [], k, text => [(k, text)]
  | (j, old) :: es, k, text =>
    if k < j then (k, text) :: (j, old) :: es
    else if k = j then (k, text) :: es
    else (j, old) :: put es k text

def bound (es : List (Nat × Octets)) : Nat := (es.getLast?).elim 0 (·.1 + 1)

def ofList (texts : List Octets) (first : Nat) : List (Nat × Octets) :=
  (texts.zipIdx first).map fun (text, k) => (k, text)

/-- The place of a name among those of an array: a hash of it, by the octets. -/
def bucket (key : Octets) : Nat :=
  key.foldl (fun h c => ((h * 16777619) % 4294967296) ^^^ c.toNat) 2166136261 % 1024

def entries : Items → List (Octets × Octets)
  | indexed es => es.map fun (k, text) => (decimal k, text)
  | keyed es => es.mergeSort fun a b => decide (bucket a.1 ≤ bucket b.1)

def get? : Items → Octets → Option Octets
  | indexed es, key => (Arithmetic.natural? 10 key).bind (es.lookup ·)
  | keyed es, key => es.lookup key

def set (is : Items) (key text : Octets) : Items :=
  match is with
  | indexed es => indexed (put es ((Arithmetic.natural? 10 key).getD 0) text)
  | keyed es =>
    if (es.lookup key).isSome then keyed (es.map fun e => if e.1 = key then (key, text) else e)
    else keyed ((key, text) :: es)

def erase (is : Items) (key : Octets) : Items :=
  match is with
  | indexed es => indexed (es.filter fun e => some e.1 ≠ Arithmetic.natural? 10 key)
  | keyed es => keyed (es.filter (·.1 ≠ key))

end Items

structure Variable where
  value : Option Octets
  items : Option Items := none
  exported : Bool := false
  readonly : Bool := false
  integer : Bool := false
  recase : Option Recase := none
  reference : Bool := false
deriving DecidableEq, Repr

def Recase.apply (r : Recase) (c : Char) : Char :=
  match r with
  | .upper => c.toUpper
  | .lower => c.toLower
  | .toggle => if c.isUpper then c.toLower else c.toUpper

namespace Variable

variable (v : Variable)

/-- The text without a subscript, which is the first element of an array. -/
def text? : Option Octets :=
  match v.items with
  | some is => is.get? ['0']
  | none => v.value

def element? (key : Octets) : Option Octets :=
  match v.items with
  | some is => is.get? key
  | none => if key = ['0'] then v.value else none

def entries : List (Octets × Octets) :=
  match v.items with
  | some is => is.entries
  | none => (v.value.map fun text => (['0'], text)).toList

def texts : List Octets := v.entries.map (·.2)

def isKeyed : Bool :=
  match v.items with
  | some (.keyed _) => true
  | _ => false

def toItems : Items :=
  match v.items with
  | some is => is
  | none => .indexed (v.value.map fun text => (0, text)).toList

def setText (text : Octets) : Variable :=
  match v.items with
  | some is => { v with items := some (is.set ['0'] text) }
  | none => { v with value := some text }

def setElement (key text : Octets) : Variable := { v with items := some (v.toItems.set key text), value := none }

def bound : Nat :=
  match v.toItems with
  | .indexed es => Items.bound es
  | .keyed es => es.length

end Variable

end CMakeHelm.Sh
