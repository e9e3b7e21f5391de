import CMakeHelm.Text.Utf8

namespace CMakeHelm.Text

/-- Bytes, one to a character. -/
abbrev Octets := List Char

def ofBytes (bs : Bytes) : Octets := bs.map fun b => Char.ofNat b.toNat

def bytesOf (cs : Octets) : Bytes := cs.map fun c => UInt8.ofNat c.toNat

def octets (cs : List Char) : Octets := ofBytes (encode cs)

def octetsOf (s : String) : Octets := octets s.toList

/-- What is no character is shown as U+FFFD. -/
def textOf (cs : Octets) : List Char := decodeLossy (bytesOf cs)

def text? (cs : Octets) : Option (List Char) := decode? (bytesOf cs)

end CMakeHelm.Text
