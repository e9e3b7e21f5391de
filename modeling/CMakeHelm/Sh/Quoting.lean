import CMakeHelm.Sh.Syntax

namespace CMakeHelm.Sh.Quoting

/-- Single quotes around all but the quotes in a text, which stand between double quotes. -/
def separate (text : Octets) : Octets :=
  '\'' :: text.flatMap (fun c => if c = '\'' then "'\"'\"'".toList else [c]) ++ ['\'']

/-- Single quotes around all but the quotes in a text, which stand behind backslashes. -/
def single (text : Octets) : Octets :=
  if text = ['\''] then ['\\', '\'']
  else '\'' :: text.flatMap (fun c => if c = '\'' then "'\\''".toList else [c]) ++ ['\'']

def isControl (c : Char) : Bool := c < ' ' || c ≥ '\x7f'

def escape (c : Char) : Octets :=
  match c with
  | '\x07' => ['\\', 'a']
  | '\x08' => ['\\', 'b']
  | '\x0c' => ['\\', 'f']
  | '\n' => ['\\', 'n']
  | '\r' => ['\\', 'r']
  | '\t' => ['\\', 't']
  | '\x0b' => ['\\', 'v']
  | '\x1b' => ['\\', 'E']
  | '\\' | '\'' => ['\\', c]
  | c =>
    if isControl c then
      let ds := Nat.toDigits 8 c.toNat
      '\\' :: List.replicate (3 - ds.length) '0' ++ ds
    else [c]

def escaped (text : Octets) : Octets := "$'".toList ++ text.flatMap escape ++ ['\'']

def double (text : Octets) : Octets :=
  if text.any isControl then escaped text
  else '"' :: text.flatMap (fun c => if c ∈ ['"', '\\', '$', '\x60'] then ['\\', c] else [c]) ++ ['"']

def hasMeaning (c : Char) : Bool := " \t\n'\"\\|&;()<>!\x7b\x7d*[?]^$\x60,".toList.contains c

def backslashed (text : Octets) : Octets :=
  if text.isEmpty then ['\'', '\'']
  else if text.any isControl then escaped text
  else
    (text.zip ('\x00' :: text)).zipIdx.flatMap fun ((c, before), i) =>
      if hasMeaning c ∨ (c = '#' ∧ i = 0) ∨ (c = '~' ∧ (i = 0 ∨ before ∈ [':', '='])) then ['\\', c] else [c]

def reusable (text : Octets) : Octets := if text.any isControl then escaped text else single text

/-- Quoted only where it has to be. -/
def listed (text : Octets) : Octets :=
  if text.any isControl then escaped text
  else if text.any (fun c => hasMeaning c ∧ c ≠ ',') ∨ text.head? ∈ [some '#', some '~'] then single text
  else text

end CMakeHelm.Sh.Quoting
