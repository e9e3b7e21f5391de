import CMakeHelm.Text.Blank
import CMakeHelm.Text.Lines

namespace CMakeHelm

structure Statement where
  name : String
  args : List String
deriving DecidableEq, Repr

namespace Statement

open Text

def isNameStart (c : Char) : Bool := c.isAlpha || c == '_'

def isNameChar (c : Char) : Bool := isNameStart c || c.isDigit

def isParen (c : Char) : Bool := c == '(' || c == ')'

/-- Nothing, or a comment that runs to the end of the text. -/
def isTail : List Char → Bool
  | [] => true
  | c :: cs => c == '#' && !cs.contains '\n'

/-- A statement `name(arg arg ...)` that fits on one line. Blanks may stand around the name and the
parentheses, and a comment after them; a line of any other shape holds no statement. -/
def parseChars? (line : List Char) : Option Statement :=
  let line := dropBlank line
  let name := line.takeWhile isNameChar
  let afterName := dropBlank (line.dropWhile isNameChar)
  if !(name.head?.any isNameStart) then none
  else
    match afterName with
    | '(' :: inner =>
      let body := inner.takeWhile (!isParen ·)
      match inner.dropWhile (!isParen ·) with
      | ')' :: rest =>
        if isTail (dropBlank rest) then
          some ⟨String.ofList name, (words body).map String.ofList⟩
        else none
      | _ => none
    | _ => none

def parse? (line : String) : Option Statement := parseChars? line.toList

def scan (text : String) : List Statement := (lines text.toList).filterMap parseChars?

end Statement

end CMakeHelm
