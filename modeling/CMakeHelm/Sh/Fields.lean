import CMakeHelm.FileSystem
import CMakeHelm.Sh.Pattern

namespace CMakeHelm.Sh

/-- An expanded word is made of atoms. Only characters that an expansion brought in are split, and
quoted ones never are. -/
inductive Atom where
  | char (c : Char) (quoted expanded : Bool)
  | mark
  | boundary
deriving DecidableEq, Repr

namespace Atom

def plain (cs : Octets) : List Atom := cs.map (.char · false false)

def quoted (cs : Octets) : List Atom := .mark :: cs.map (.char · true false)

def expanded (cs : Octets) : List Atom := cs.map (.char · false true)

def ofValue (inQuotes : Bool) (cs : Octets) : List Atom := if inQuotes then quoted cs else expanded cs

def glyph? : Atom → Option Glyph
  | char c q _ => some ⟨c, q⟩
  | mark | boundary => none

end Atom

/-- The glyphs of a word that is not split; parameters are joined by blanks. -/
def glyphs (atoms : List Atom) : List Glyph :=
  atoms.flatMap fun
    | .boundary => [⟨' ', true⟩]
    | a => a.glyph?.toList

def literal (gs : List Glyph) : Octets := gs.map (·.char)

structure Splitting where
  done : List (List Glyph) := []
  current : Option (List Glyph) := none
  afterBlank : Bool := false

namespace Splitting

def finish (s : Splitting) : Splitting :=
  match s.current with
  | some gs => { done := gs.reverse :: s.done }
  | none => s

def add (s : Splitting) (gs : List Glyph) : Splitting :=
  { s with current := some (gs ++ s.current.getD []), afterBlank := false }

def blank (s : Splitting) : Splitting :=
  if s.current.isSome then { s.finish with afterBlank := true } else s

/-- Blanks of `ifs` and boundaries around a separator belong to it; every other separator ends one field. -/
def step (ifs : Octets) (s : Splitting) : Atom → Splitting
  | .mark => s.add []
  | .boundary => s.blank
  | .char c q expanded =>
    if q ∨ !expanded ∨ c ∉ ifs then s.add [⟨c, q⟩]
    else if c ∈ [' ', '\t', '\n'] then s.blank
    else if s.current.isSome then { s.finish with afterBlank := false }
    else if s.afterBlank then { s with afterBlank := false }
    else { s with done := [] :: s.done }

end Splitting

def splitFields (ifs : Octets) (atoms : List Atom) : List (List Glyph) :=
  (atoms.foldl (Splitting.step ifs) {}).finish.done.reverse

structure NameRules where
  pattern : PatternRules := {}
  dots : Bool := false
  parents : Bool := true
  deep : Bool := false
  vanishes : Bool := false

def directoriesBelow (fs : FileSystem) (dots : Bool) : Nat → Location → Octets → List Octets
  | 0, _, base => [base]
  | n + 1, l, base =>
    base :: ((fs.names l).mergeSort inOrder).flatMap fun name =>
      let below := l ++ [name]
      if (dots || name.head? ≠ some '.') && fs.get? below == some .directory then
        directoriesBelow fs dots n below (base ++ name ++ ['/'])
      else []

def namesFrom (fs : FileSystem) (rules : NameRules) (base : Octets) : List (List Glyph) → List Octets
  | [] => if (fs.find false ⟨base⟩).toOption.any isEntry then [base] else []
  | gs :: rest =>
    let slash := if rest.isEmpty then [] else ['/']
    let start := if base.isEmpty then ['.'] else base
    if rules.deep ∧ gs = [⟨'*', false⟩, ⟨'*', false⟩] then
      match fs.locate ⟨start⟩ with
      | .ok (l, .directory) =>
        let dirs := directoriesBelow fs rules.dots 100 l base
        if rest.isEmpty then
          ((dirs.flatMap fun dir =>
            (if dir.isEmpty then [] else [dir.dropLast]) ++
              (match fs.locate ⟨if dir.isEmpty then ['.'] else dir⟩ with
              | .ok (l, .directory) =>
                ((fs.names l).filter fun name =>
                  (rules.dots || name.head? ≠ some '.') && fs.get? (l ++ [name]) != some .directory).map
                    (dir ++ ·)
              | _ => [])).filter (· ≠ base.dropLast)).mergeSort inOrder
        else (dirs.flatMap fun dir => namesFrom fs rules dir rest).mergeSort inOrder
      | _ => []
    else if isPattern rules.pattern gs then
      match fs.locate ⟨start⟩ with
      | .ok (l, .directory) =>
        let hidden := rules.dots || gs.head?.any (·.char == '.')
        let names := (if rules.parents then [['.'], ['.', '.']] else []) ++ fs.names l
        let names := names.filter fun name =>
          (hidden || name.head? ≠ some '.') && isMatch rules.pattern gs name
        (names.mergeSort inOrder).flatMap fun name =>
          namesFrom fs rules (base ++ name ++ slash) rest
      | _ => []
    else namesFrom fs rules (base ++ literal gs ++ slash) rest
where
  isEntry : FileSystem.Found → Bool
    | .entry _ _ => true
    | .free _ => false

/-- A field that matches no name stays as it is. -/
def fileNames (fs : FileSystem) (rules : NameRules) (gs : List Glyph) : List Octets :=
  if isPattern rules.pattern gs then
    match namesFrom fs rules [] (Text.split (·.char == '/') gs) with
    | [] => if rules.vanishes then [] else [literal gs]
    | names => names
  else [literal gs]

end CMakeHelm.Sh
