import CMakeHelm.Text.Octets
import CMakeHelm.Text.Pieces

namespace CMakeHelm

/-- Paths keep what they were written with; comparing them looks only at their components. Repeated
slashes, inner `.` and trailing slashes are no components. -/
structure Path where
  chars : Text.Octets
deriving DecidableEq, Repr

namespace Path

def ofText (cs : List Char) : Path := ⟨Text.octets cs⟩

def ofString (s : String) : Path := ofText s.toList

/-- A path need not be a text. What is no character is shown as U+FFFD. -/
def toText (p : Path) : List Char := Text.textOf p.chars

def toString (p : Path) : String := String.ofList p.toText

def toString? (p : Path) : Option String := (Text.text? p.chars).map String.ofList

def empty : Path := ⟨[]⟩

def isAbsolute (p : Path) : Bool := p.chars.head? = some '/'

def endsInSlash (p : Path) : Bool := p.chars.getLast? = some '/'

/-- An absolute path replaces the one before it. Joining nothing leaves a trailing slash. -/
def join (p q : Path) : Path :=
  if q.isAbsolute then q
  else if p.chars = [] ∨ p.endsInSlash then ⟨p.chars ++ q.chars⟩
  else ⟨p.chars ++ '/' :: q.chars⟩

inductive Component where
  | root
  | here
  | up
  | name (chars : List Char)
deriving DecidableEq, Repr

def Component.chars : Component → List Char
  | root => ['/']
  | here => ['.']
  | up => ['.', '.']
  | name cs => cs

def Component.rank : Component → Nat
  | root => 0
  | here => 1
  | up => 2
  | name _ => 3

def Component.before (a b : Component) : Bool :=
  a.rank < b.rank || (a.rank == b.rank && a.chars < b.chars)

/-- What a piece between slashes stands for. -/
def component? : List Char → Option Component
  | [] => none
  | ['.'] => none
  | ['.', '.'] => some .up
  | cs => some (.name cs)

def components (p : Path) : List Component :=
  match Text.split (· == '/') p.chars with
  | [] => []
  | first :: rest =>
    (if p.isAbsolute then some .root else if first = ['.'] then some .here else component? first).toList ++
      rest.filterMap component?

def ofComponents (cs : List Component) : Path :=
  cs.foldl (fun p c => p.join ⟨c.chars⟩) empty

def same (p q : Path) : Bool := p.components = q.components

def before (p q : Path) : Bool := go p.components q.components
where
  go : List Component → List Component → Bool
    | [], [] => false
    | [], _ :: _ => true
    | _ :: _, [] => false
    | a :: as, b :: bs => a.before b || (a == b && go as bs)

/-- One component onto a stack of resolved ones, top first: `..` takes a name away, stays at the
root and is kept where there is nothing to take. -/
def resolve : List Component → Component → List Component
  | stack, .here => stack
  | .name _ :: stack, .up => stack
  | .root :: stack, .up => .root :: stack
  | stack, c => c :: stack

def normalize (p : Path) : Path := ofComponents (p.components.foldl resolve []).reverse

/-- The path seen from `workDir`, or nothing for the empty path. `..` and a trailing slash stay,
and so do exactly two leading slashes. -/
def absolute? (p workDir : Path) : Option Path :=
  if p.chars = [] then none
  else
    let names := (p.components.filter (· ≠ .root)).dropWhile (· == .here)
    let start :=
      if !p.isAbsolute then workDir
      else if p.chars.take 2 = ['/', '/'] ∧ (p.chars.drop 2).head? ≠ some '/' then ⟨['/', '/']⟩
      else ⟨['/']⟩
    let q := names.foldl (fun q c => q.join ⟨c.chars⟩) start
    some (if p.endsInSlash then q.join empty else q)

def absolute (p workDir : Path) : Path := (p.absolute? workDir).getD p

/-- The pieces, last first, that remain of `rev` after each step up. Pieces that are no component
go together with the component after them. -/
def above : List (List Char) → List (List (List Char))
  | [] => []
  | piece :: rest =>
    if (component? piece).isNone then above rest
    else rest.dropWhile (fun p => (component? p).isNone) :: above rest

/-- The path itself, then its parents as they are written in it. -/
def ancestors (p : Path) : List Path :=
  let head := if p.isAbsolute then ['/'] else if p.chars = ['.'] ∨ p.chars.take 2 = ['.', '/'] then ['.'] else []
  let pieces := Text.split (· == '/') (p.chars.drop head.length)
  p :: (above pieces.reverse).map (fun rev => ⟨head ++ Text.join '/' rev.reverse⟩) ++
    (if head = ['.'] then [empty] else [])

end Path

end CMakeHelm
