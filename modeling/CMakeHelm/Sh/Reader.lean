import CMakeHelm.Sh.Syntax

namespace CMakeHelm.Sh

inductive Goal where
  | token (expecting : Option String)
  | quote (mark : Char)
  | arithmetic
deriving DecidableEq, Repr

inductive Token where
  | finish
  | newline
  | operator (text : Octets)
  | word (text : Octets)
deriving DecidableEq, Repr

inductive Trouble where
  | incomplete (goal : Goal)
  | unexpected (found : Token) (expecting : Option String) (left : Nat)
  | malformed (what : String)
deriving DecidableEq, Repr

/-- What is left to read, and the number of the line it starts on. Lines that are read already but
stand below this one are owed to the count. -/
structure Reader where
  rest : Octets
  line : Nat := 1
  owed : Nat := 0
  dialect : Dialect := .posix
  isWhole : Bool := true
  groups : Bool := false
  aliases : List (Octets × Octets) := []
  active : List (Octets × Nat) := []
  further : Option Nat := none

abbrev Parse := StateT Reader (Except Trouble)

namespace Parse

def rest : Parse Octets := fun r => .ok (r.rest, r)

def line : Parse Nat := fun r => .ok (r.line, r)

def dialect : Parse Dialect := fun r => .ok (r.dialect, r)

def isBash : Parse Bool := fun r => .ok (r.dialect = .bash, r)

def incomplete {α : Type} : Parse α := fun _ => .error (.incomplete (.token none))

def skip (n : Nat) : Parse Unit := fun r =>
  let rest := r.rest.drop n
  match (r.rest.take n).count '\n' with
  | 0 => .ok ((), { r with rest })
  | k + 1 => .ok ((), { r with rest, line := r.line + k + 1 + r.owed, owed := 0 })

def setBelow (here after : Octets) (lines : Nat) : Parse Unit := fun r =>
  .ok ((), { r with rest := here ++ '\n' :: after, owed := r.owed + lines })

/-- Read another text with its own count of lines. -/
def within {α : Type} (text : Octets) (p : Parse α) : Parse α := fun r =>
  match p { r with rest := text, line := 1, owed := 0, isWhole := true, active := [], further := none } with
  | .ok (a, _) => .ok (a, r)
  | .error e => .error e

def awaiting {α : Type} (goal : Goal) (p : Parse α) : Parse α := fun r =>
  match p r with
  | .error (.incomplete (.token none)) => .error (.incomplete goal)
  | result => result

def awaitingWord {α : Type} (word : String) (p : Parse α) : Parse α := awaiting (.token (some word)) p

def orElse {α : Type} (p q : Parse α) : Parse α := fun r =>
  match p r with
  | .error (.incomplete g) => .error (.incomplete g)
  | .error _ => q r
  | result => result

def takeWhile (p : Char → Bool) : Parse Octets := do
  let taken := (← rest).takeWhile p
  skip taken.length
  return taken

def startsWith (s : String) : Parse Bool := return s.toList.isPrefixOf (← rest)

def isSpace (c : Char) : Bool := c == ' ' || c == '\t'

def isMeta (c : Char) : Bool := isSpace c || c ∈ ['\n', ';', '&', '|', '<', '>', '(', ')']

def dropSpace : Octets → Octets
  | '\\' :: '\n' :: cs => dropSpace cs
  | '#' :: cs => cs.dropWhile (· ≠ '\n')
  | c :: cs => if isSpace c then dropSpace cs else c :: cs
  | [] => []

def dropLines : Nat → Octets → Octets
  | 0, cs => cs
  | n + 1, cs =>
    match dropSpace cs with
    | '\n' :: cs => dropLines n cs
    | cs => cs

def space : Parse Unit := do
  let cs ← rest
  skip (cs.length - (dropSpace cs).length)

def newlines : Parse Unit := do
  let cs ← rest
  skip (cs.length - (dropLines cs.length cs).length)

def operatorTexts : List String :=
  [";;", "&&", "||", "<<-", "<<", "<&", "<>", ">>", ">&", ">|", "&", "|", ";", "(", ")", "<", ">"]

def token (cs : Octets) : Token :=
  match dropSpace cs with
  | [] => .finish
  | '\n' :: _ => .newline
  | cs =>
    match operatorTexts.find? fun s => s.toList.isPrefixOf cs with
    | some s => .operator s.toList
    | none => .word (cs.takeWhile fun c => !isMeta c)

def unexpected {α : Type} : Parse α := fun r =>
  .error (match token r.rest with
    | .finish => .incomplete (.token none)
    | t => .unexpected t none r.rest.length)

def unexpectedFor {α : Type} (expecting : String) : Parse α := fun r =>
  .error (match token r.rest with
    | .finish => .incomplete (.token (some expecting))
    | t => .unexpected t (some expecting) r.rest.length)

def malformed {α : Type} (what : String) : Parse α := fun _ => .error (.malformed what)

def peek : Parse Char := fun r =>
  match r.rest with
  | [] => .error (.incomplete (.token none))
  | c :: _ => .ok (c, r)

def expect (s : String) : Parse Unit := do
  if ← startsWith s then skip s.length
  else if (← rest).isEmpty then incomplete
  else unexpectedFor s

def reservedWords (d : Dialect) : List String :=
  ["!", "\x7b", "\x7d", "case", "do", "done", "elif", "else", "esac", "fi", "for", "if", "in", "then", "until",
    "while"] ++ if d = .bash then ["function", "select", "time", "[["] else []

def isCloser (word : String) : Bool := word ∈ ["\x7d", "do", "done", "elif", "else", "esac", "fi", "then", "in"]

def keyword? : Parse (Option String) := do
  let cs ← rest
  let word := cs.takeWhile fun c => !isMeta c
  match cs.drop word.length with
  | [] => incomplete
  | _ :: _ =>
    let s := String.ofList word
    return if s ∈ reservedWords (← dialect) then some s else none

def expectWord (word : String) : Parse Unit := do
  if (← keyword?) = some word then skip word.length else unexpectedFor word

def unalias : Nat → Parse Unit
  | 0 => return
  | n + 1 => fun r =>
    let word := r.rest.takeWhile fun c => !isMeta c
    let after := r.rest.drop word.length
    let active := r.active.filter fun a => r.rest.length > a.2
    match r.aliases.lookup word with
    | some text =>
      if active.any (·.1 == word) ∨ String.ofList word ∈ reservedWords r.dialect ∨ after.isEmpty then
        .ok ((), { r with active })
      else
        let further := if text.getLast?.any isSpace then some after.length else none
        (do space; unalias n : Parse Unit)
          { r with rest := text ++ after, active := (word, after.length) :: active, further }
    | none => .ok ((), { r with active })

def unaliasFurther : Parse Unit := fun r =>
  match r.further with
  | some left => if r.rest.length ≤ left then unalias 100 { r with further := none } else .ok ((), r)
  | none => .ok ((), r)

end Parse

def Token.isReserved (d : Dialect) : Token → Bool
  | word text => String.ofList text ∈ Parse.reservedWords d
  | _ => false

def Token.name (t : Token) : Octets :=
  match t with
  | finish => "end of file".toList
  | newline => "newline".toList
  | operator text => '"' :: text ++ ['"']
  | word text => if t.isReserved .posix then '"' :: text ++ ['"'] else "word".toList

def expectation (expecting : Option String) : Octets :=
  expecting.elim [] fun word => " (expecting \"".toList ++ word.toList ++ "\")".toList

def Trouble.text : Trouble → Octets
  | incomplete (.token expecting) => "end of file unexpected".toList ++ expectation expecting
  | incomplete (.quote '\x60') => "EOF in backquote substitution".toList
  | incomplete (.quote '\x7d') => "Missing '\x7d'".toList
  | incomplete (.quote _) => "Unterminated quoted string".toList
  | incomplete .arithmetic => "Missing '))'".toList
  | unexpected found expecting _ => found.name ++ " unexpected".toList ++ expectation expecting
  | malformed what => what.toList

/-- What Bash says about a text that cannot be read, without and behind the word `syntax error`; `line`
is the line at fault. -/
def Trouble.bashLines (line : Octets) : Trouble → List Octets
  | incomplete (.quote mark) => ["unexpected EOF while looking for matching \x60".toList ++ [mark, '\'']]
  | incomplete .arithmetic => ["unexpected EOF while looking for matching \x60)'".toList]
  | incomplete (.token _) => ["syntax error: unexpected end of file".toList]
  | unexpected found _ _ =>
    let name := match found with
      | .operator text | .word text => text
      | t => t.name
    ["syntax error near unexpected token \x60".toList ++ name ++ ['\''], '\x60' :: line ++ ['\'']]
  | malformed what => ["syntax error: ".toList ++ what.toList]

end CMakeHelm.Sh
