import CMakeHelm.Session.Event
import CMakeHelm.Text.Blank
import CMakeHelm.Text.Lines
import CMakeHelm.Text.Numeral
import CMakeHelm.Text.Utf8

namespace CMakeHelm.Session.Marker

open Text

/-- A shell that reads commands from a pipe is told to print markers between the lines of output: fields
between semicolons, `A` when it has integrated and `D;execution;code` when a command has ended. -/
def front : List Char := ['\x1b', ']', '6', '3', '3', ';']

def bell : Char := '\x07'

def line : Event → List Char
  | .integrated => front ++ ['A', bell]
  | .ended execution code =>
    let number := (code.map fun c => (Int.repr c).toList).getD []
    front ++ 'D' :: ';' :: (Nat.repr execution).toList ++ ';' :: number ++ [bell]
  | .closed => []

def executionBound : Nat := Nat.pow 2 64

def codeBound : Nat := Nat.pow 2 31

/-- The event of a marker's fields. A code that is no numeral counts as no code. -/
def event? : List (List Char) → Option Event
  | ['A'] :: _ => some .integrated
  | ['D'] :: execution :: rest =>
    (unsigned? executionBound execution).map fun e =>
      .ended e ((rest.head?).bind fun code => signed? codeBound (trim code))
  | _ => none

/-- The text before the first marker of a line, if there is any, and the marker's event. All after
the marker's end is dropped. A line without a marker is all text. -/
def readLine (line : List Char) : Option (List Char) × Option Event :=
  match cut? front line with
  | none => (some line, none)
  | some (text, rest) =>
    (if text = [] then none else some text,
      event? (split (· == ';') (rest.takeWhile (· ≠ bell))))

def byteLines : Bytes → List Bytes
  | [] => []
  | b :: rest =>
    if b = 10 then [] :: byteLines rest
    else
      match byteLines rest with
      | [] => [[b]]
      | l :: ls => (b :: l) :: ls

def decodeLine (bytes : Bytes) : List Char := dropEnd (· == '\r') (decodeLossy bytes)

def read (output : Bytes) : List (List Char) × List Event :=
  let parts := (byteLines output).map (readLine ∘ decodeLine)
  (parts.filterMap (·.1), parts.filterMap (·.2) ++ [.closed])

def greeting : String := "printf '\\033]633;A\\007\\n'\n"

/-- Typed for a command, which must not read what is typed after it. -/
def typed (execution : Nat) (command : String) : String :=
  "\x7b " ++ command ++ "\n\x7d </dev/null\nprintf '\\033]633;D;" ++ Nat.repr execution ++
    ";%s\\007\\n' \"$?\"\n"

end CMakeHelm.Session.Marker
