import CMakeHelm.Text.Blank

namespace CMakeHelm

structure CommandLine where
  program : String
  args : List String := []
deriving DecidableEq, Repr

namespace CommandLine

/-- Only blanks make a word need quotes, unless it is empty, and between them only quotes are escaped.
-/
def quoteChars (word : List Char) : List Char :=
  if word = [] ∨ word.any Text.isBlank then
    '"' :: word.flatMap (fun c => if c = '"' then ['\\', '"'] else [c]) ++ ['"']
  else word

def quote (word : String) : String := String.ofList (quoteChars word.toList)

def words (c : CommandLine) : List String := c.program :: c.args

def render (c : CommandLine) : String :=
  String.ofList (Text.join ' ' (c.words.map fun w => quoteChars w.toList))

end CommandLine

end CMakeHelm
