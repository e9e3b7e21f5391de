import CMakeHelm.Text.Pieces

namespace CMakeHelm.Text

def chomp : List Char → List Char
  | [] => []
  | ['\r'] => []
  | c :: cs => c :: chomp cs

/-- The lines from the pieces between line feeds: all but the last piece were ended by one, and
an empty last piece is no line. -/
def linesOfPieces : List (List Char) → List (List Char)
  | [] => []
  | [last] => if last = [] then [] else [last]
  | piece :: q :: qs => chomp piece :: linesOfPieces (q :: qs)

def lines (cs : List Char) : List (List Char) := linesOfPieces (split (· == '\n') cs)

end CMakeHelm.Text
