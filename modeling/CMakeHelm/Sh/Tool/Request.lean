import CMakeHelm.Sh.Format
import CMakeHelm.Sh.Machine
import CMakeHelm.Sh.Test

namespace CMakeHelm.Sh.Tool

open Run

def lastName (path : Octets) : Octets :=
  let trimmed := (path.reverse.dropWhile (· = '/')).reverse
  if trimmed.isEmpty then (if path.isEmpty then [] else ['/'])
  else (trimmed.reverse.takeWhile (· ≠ '/')).reverse

def titleOf (tool : String) : Run Octets := do
  let called := (← shell).name
  return if lastName called = tool.toList ∧ tool ∉ ["grep", "egrep", "fgrep", "awk"] then called else tool.toList

def grumble (tool : String) (message : Octets) : Run Unit := do
  let _ ← write 2 ((← titleOf tool) ++ ": ".toList ++ message ++ ['\n'])

def misuse (tool : String) (message : Octets) : Run Unit := do
  grumble tool message
  let _ ← write 2 ("Try '".toList ++ (← titleOf tool) ++ " --help' for more information.\n".toList)

def inQuotes (text : Octets) : Octets := '\'' :: text ++ ['\'']

/-- Option letters in front of the operands. A word behind a letter in `valued`, or the next word,
is the value of that option. -/
def options (valued : List Char) : Nat → List Octets → List (Char × Octets) × List Octets
  | 0, args => ([], args)
  | n + 1, args =>
    match args with
    | ['-', '-'] :: rest => ([], rest)
    | ('-' :: c :: cs) :: rest =>
      if c ∈ valued then
        match cs, rest with
        | [], value :: rest => let (os, rest) := options valued n rest; ((c, value) :: os, rest)
        | _, _ => let (os, rest) := options valued n rest; ((c, cs) :: os, rest)
      else
        let rest := if cs = [] then rest else ('-' :: cs) :: rest
        let (os, rest) := options valued n rest
        ((c, []) :: os, rest)
    | _ => ([], args)

def readOptions (valued : List Char) (args : List Octets) : List (Char × Octets) × List Octets :=
  options valued (args.flatten.length + args.length + 1) args

def shortened (valued : List Char) (long : List (String × Char)) (args : List Octets) : List Octets :=
  let front := args.takeWhile (· ≠ ['-', '-'])
  front.flatMap (fun arg =>
    match arg with
    | '-' :: '-' :: rest =>
      let name := rest.takeWhile (· ≠ '=')
      match long.find? fun l => l.1.toList == name with
      | some (_, c) =>
        if name.length < rest.length ∧ c ∈ valued then [['-', c], rest.drop (name.length + 1)] else [['-', c]]
      | none => [arg]
    | arg => [arg]) ++ args.drop front.length

def scattered (valued : List Char) : Nat → List Octets → List (Char × Octets) × List Octets
  | 0, args => ([], args)
  | n + 1, args =>
    match args with
    | ['-', '-'] :: rest => ([], rest)
    | ['-'] :: rest => let (os, named) := scattered valued n rest; (os, ['-'] :: named)
    | ('-' :: c :: cs) :: rest =>
      if c ∈ valued then
        match cs, rest with
        | [], value :: rest => let (os, named) := scattered valued n rest; ((c, value) :: os, named)
        | _, _ => let (os, named) := scattered valued n rest; ((c, cs) :: os, named)
      else
        let rest := if cs = [] then rest else ('-' :: cs) :: rest
        let (os, named) := scattered valued n rest
        ((c, []) :: os, named)
    | arg :: rest => let (os, named) := scattered valued n rest; (os, arg :: named)
    | [] => ([], [])

structure Request where
  options : List (Char × Octets)
  named : List Octets

namespace Request

def has (r : Request) (c : Char) : Bool := (r.options.lookup c).isSome

def value? (r : Request) (c : Char) : Option Octets := r.options.reverse.lookup c

def number? (r : Request) (c : Char) : Option Nat := (r.value? c).bind (Arithmetic.natural? 10)

end Request

def request (valued : List Char) (long : List (String × Char)) (args : List Octets) : Request :=
  let args := shortened valued long args
  let (options, named) := scattered valued (args.flatten.length + args.length + 1) args
  { options, named }

def leading (valued : List Char) (long : List (String × Char)) : Nat → List Octets → List (Char × Octets) × List Octets
  | 0, args => ([], args)
  | n + 1, args =>
    match args with
    | ['-', '-'] :: rest => ([], rest)
    | ('-' :: '-' :: name) :: rest =>
      let key := name.takeWhile (· ≠ '=')
      match long.find? fun l => l.1.toList == key with
      | none => ([('?', name)], rest)
      | some (_, c) =>
        let (value, rest) :=
          if key.length < name.length then (name.drop (key.length + 1), rest)
          else if c ∈ valued then (rest.headD [], rest.tail)
          else ([], rest)
        let (os, named) := leading valued long n rest
        ((c, value) :: os, named)
    | ('-' :: c :: cs) :: rest =>
      if c ∈ valued then
        let (value, rest) := if cs.isEmpty then (rest.headD [], rest.tail) else (cs, rest)
        let (os, named) := leading valued long n rest
        ((c, value) :: os, named)
      else
        let (os, named) := leading valued long n (if cs.isEmpty then rest else ('-' :: cs) :: rest)
        ((c, []) :: os, named)
    | _ => ([], args)

def leadingRequest (valued : List Char) (long : List (String × Char)) (args : List Octets) : Request :=
  let (options, named) := leading valued long (args.flatten.length + args.length + 1) args
  { options, named }

def unknown? (tool : String) (r : Request) (letters : String) : Run Bool := do
  match r.options.find? fun o => !letters.toList.contains o.1 with
  | some (c, _) =>
    misuse tool ("invalid option -- '".toList ++ [c, '\''])
    return true
  | none => return false

/-- A name is quoted where a shell, or a reader of the message, would not see it as one. -/
def named (file : Octets) : Octets :=
  let special := " !\"$&()*;<=>[^|?\\:\x60".toList
  let isReserved := file.isEmpty || file == ['\x7b'] || file == ['\x7d']
  if isReserved ∨ file.any (· ∈ special) ∨ file.head?.any (· ∈ ['#', '~']) then inQuotes file
  else file

def fault (file : Octets) (e : Fault) : Octets := named file ++ ": ".toList ++ e.text.toList

def source (tool : String) (file : Octets) : Run (Option Octets) := do
  if file = ['-'] then return some (← readAll 0)
  match ← readNamed file with
  | .ok content => return some content
  | .error e => do
    grumble tool (fault file e)
    return none

def sources (tool : String) (named : List Octets) : Run (List (Octets × Octets) × Int) := do
  let texts ← (if named.isEmpty then [['-']] else named).mapM fun f => return (f, ← source tool f)
  return (texts.filterMap fun (f, t) => t.map (f, ·), if texts.all (·.2.isSome) then 0 else 1)

def lines (text : Octets) : List Octets :=
  match (Text.split (· == '\n') text).reverse with
  | [] :: rest => rest.reverse
  | all => all.reverse

def unlines (ls : List Octets) : Octets := ls.flatMap (· ++ ['\n'])

def words (text : Octets) : List Octets := (Text.split Arithmetic.isWhite text).filter (· ≠ [])

def natural (cs : Octets) : Option Nat := Arithmetic.natural? 10 cs

def failing (tool verb : String) (f : Octets) (e : Fault) : Run Unit :=
  grumble tool (verb.toList ++ ' ' :: inQuotes f ++ ": ".toList ++ e.text.toList)

def forEach (named : List Octets) (act : Octets → Run Bool) : Run Int := do
  let done ← named.mapM act
  return if done.all id then 0 else 1

end CMakeHelm.Sh.Tool
