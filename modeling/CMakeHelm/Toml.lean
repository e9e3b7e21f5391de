import CMakeHelm.Toml.Scalar
import CMakeHelm.Toml.Tree

namespace CMakeHelm.Toml

/-- Values are nested less deep than this, and keys have fewer parts. -/
def depthLimit : Nat := 80

def dropComment? : List Char → Option (List Char)
  | '#' :: rest =>
    let comment := rest.takeWhile fun c => c ≠ '\n' && c ≠ '\r'
    if comment.all isPlain then some (rest.drop comment.length) else none
  | cs => some cs

def dropTrivia? : Nat → List Char → Option (List Char)
  | 0, cs => some cs
  | n + 1, cs => do
    let rest ← dropComment? (dropSpace cs)
    match newline? rest with
    | some rest => dropTrivia? n rest
    | none => some rest

def trivia? (cs : List Char) : Option (List Char) := dropTrivia? cs.length cs

def isKeyChar (c : Char) : Bool := c.isAlphanum || c == '_' || c == '-'

def simpleKey : List Char → Read String
  | '"' :: rest => (basic rest).map fun (k, rest) => (String.ofList k, rest)
  | '\'' :: rest => (literal rest).map fun (k, rest) => (String.ofList k, rest)
  | cs =>
    let key := cs.takeWhile isKeyChar
    if key = [] then none else some (String.ofList key, cs.drop key.length)

def dottedKey : (parts : Nat) → List Char → Option (List String × List Char)
  | 0, _ => none
  | n + 1, cs => do
    let (key, rest) ← simpleKey (dropSpace cs)
    match dropSpace rest with
    | '.' :: rest => (dottedKey n rest).map fun (keys, rest) => (key :: keys, rest)
    | rest => some ([key], rest)

def key (cs : List Char) : Read (List String) := dottedKey (depthLimit - 1) cs

mutual

/-- `depth` counts the values around this one. -/
def value : (fuel depth : Nat) → List Char → Option (Data × List Char)
  | 0, _, _ => none
  | fuel + 1, depth, cs =>
    match cs with
    | '[' :: rest =>
      if depth + 1 < depthLimit then do
        let (items, rest) ← items fuel (depth + 1) (← trivia? rest)
        return (.list items, rest)
      else none
    | '{' :: rest =>
      if depth + 1 < depthLimit then
        match dropSpace rest with
        | '}' :: rest => some (.table [], rest)
        | rest => pairs fuel (depth + 1) [] rest
      else none
    | '"' :: _ | '\'' :: _ => (text cs).map fun (s, rest) => (.text (String.ofList s), rest)
    | cs => bare cs

def items : (fuel depth : Nat) → List Char → Option (List Data × List Char)
  | 0, _, _ => none
  | _ + 1, _, ']' :: rest => some ([], rest)
  | fuel + 1, depth, cs => do
    let (item, rest) ← value fuel depth cs
    match ← trivia? rest with
    | ',' :: rest => (items fuel depth (← trivia? rest)).map fun (more, rest) => (item :: more, rest)
    | ']' :: rest => return ([item], rest)
    | _ => none

def pairs : (fuel depth : Nat) → Fields → List Char → Option (Data × List Char)
  | 0, _, _, _ => none
  | fuel + 1, depth, fields, cs => do
    let (path, rest) ← key cs
    let (d, rest) ← value fuel depth (dropSpace (← expect '=' rest))
    let name ← path.getLast?
    let fields ← assign path.dropLast name d .header fields
    match dropSpace rest with
    | ',' :: rest => pairs fuel depth fields rest
    | '}' :: rest => return (.table (fieldsData fields), rest)
    | _ => none

end

/-- Every step into a value or on to the next one takes at most two of the fuel for a character. -/
def valueOf (cs : List Char) : Read Data := value (2 * cs.length + 2) 0 cs

structure Document where
  fields : Fields := []
  current : List String := []

namespace Document

variable (doc : Document)

def within (path : List String) (f : Origin → Fields → Option Fields) : Option Fields :=
  alter .implied f path .header doc.fields

def openTable? (isArray : Bool) (path : List String) : Option Document := do
  let name ← path.getLast?
  let fields ← doc.within path.dropLast fun _ fields =>
    if isArray then pushTable name fields else openTable name fields
  return ⟨fields, path⟩

def assign? (path : List String) (d : Data) : Option Document := do
  let name ← path.getLast?
  let fields ← doc.within doc.current (assign path.dropLast name d)
  return { doc with fields }

def item (cs : List Char) : Option (Document × List Char) :=
  match cs with
  | [] | '#' :: _ | '\n' :: _ | '\r' :: _ => some (doc, cs)
  | '[' :: '[' :: rest => do
    let (path, rest) ← key rest
    return (← doc.openTable? true path, ← expect ']' (← expect ']' rest))
  | '[' :: rest => do
    let (path, rest) ← key rest
    return (← doc.openTable? false path, ← expect ']' rest)
  | cs => do
    let (path, rest) ← key cs
    let (d, rest) ← valueOf (dropSpace (← expect '=' rest))
    return (← doc.assign? path d, rest)

def read : (lines : Nat) → Document → List Char → Option Document
  | 0, _, _ => none
  | n + 1, doc, cs => do
    let (doc, rest) ← doc.item (dropSpace cs)
    match ← dropComment? (dropSpace rest) with
    | [] => some doc
    | rest => read n doc (← newline? rest)

end Document

def parse? (s : String) : Option Data := do
  let cs := match s.toList with
    | '\uFEFF' :: cs => cs
    | cs => cs
  let doc ← Document.read (cs.length + 1) {} cs
  return .table (fieldsData doc.fields)

end CMakeHelm.Toml
