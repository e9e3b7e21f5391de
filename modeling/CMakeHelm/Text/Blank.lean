import CMakeHelm.Text.Pieces

namespace CMakeHelm.Text

/-- White_Space has ten ranges. -/
def isBlank (c : Char) : Bool :=
  let n := c.toNat
  (0x09 ≤ n && n ≤ 0x0D) || n == 0x20 || n == 0x85 || n == 0xA0 || n == 0x1680 ||
    (0x2000 ≤ n && n ≤ 0x200A) || (0x2028 ≤ n && n ≤ 0x2029) || n == 0x202F || n == 0x205F ||
    n == 0x3000

def words (cs : List Char) : List (List Char) := (split isBlank cs).filter (· ≠ [])

def dropBlank (cs : List Char) : List Char := cs.dropWhile isBlank

def dropEnd (p : Char → Bool) (cs : List Char) : List Char := (cs.reverse.dropWhile p).reverse

def trim (cs : List Char) : List Char := dropEnd isBlank (dropBlank cs)

end CMakeHelm.Text
