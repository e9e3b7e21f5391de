import CMakeHelm.Path
import CMakeHelm.Text.Utf8

namespace CMakeHelm

abbrev Location := List (List Char)

inductive Entry where
  | directory
  | file (content : Text.Bytes) (executable : Bool)
  | link (target : Path)
deriving DecidableEq, Repr

inductive Fault where
  | absent
  | denied
  | exists
  | notDirectory
  | isDirectory
  | invalidArgument
  | badFormat
  | nameTooLong
  | notEmpty
  | tooManyLinks
  | zeroByte
  | notUtf8
deriving DecidableEq, Repr

namespace Fault

def text : Fault → String
  | absent => "No such file or directory"
  | badFormat => "Exec format error"
  | denied => "Permission denied"
  | .exists => "File exists"
  | notDirectory => "Not a directory"
  | isDirectory => "Is a directory"
  | invalidArgument => "Invalid argument"
  | nameTooLong => "File name too long"
  | notEmpty => "Directory not empty"
  | tooManyLinks => "Too many levels of symbolic links"
  | zeroByte => "file name contained an unexpected NUL byte"
  | notUtf8 => "stream did not contain valid UTF-8"

def number? : Fault → Option Nat
  | absent => some 2
  | badFormat => some 8
  | denied => some 13
  | .exists => some 17
  | notDirectory => some 20
  | isDirectory => some 21
  | invalidArgument => some 22
  | nameTooLong => some 36
  | notEmpty => some 39
  | tooManyLinks => some 40
  | zeroByte | notUtf8 => none

def message (e : Fault) : String :=
  match e.number? with
  | some n => e.text ++ s!" (os error {n})"
  | none => e.text

end Fault

/-- A finite table of what there is. A location is the list of names from the root, free of links and of
`..`; walking a path leads to one. -/
structure FileSystem where
  entries : List (Location × Entry)
  workDir : Location

namespace FileSystem

variable (fs : FileSystem)

def get? : Location → Option Entry
  | [] => some .directory
  | l => fs.entries.lookup l

def put (l : Location) (e : Entry) : FileSystem :=
  { fs with entries := fs.entries.filter (·.1 ≠ l) ++ [(l, e)] }

def cutOff (l : Location) : FileSystem :=
  { fs with entries := fs.entries.filter fun e => !l.isPrefixOf e.1 }

def clear (l : Location) : FileSystem :=
  { fs with entries := fs.entries.filter fun e => e.1 = l ∨ !l.isPrefixOf e.1 }

/-- Where a walk ended: at an entry, or at a free name in a directory. -/
inductive Found where
  | entry (l : Location) (e : Entry)
  | free (l : Location)
deriving DecidableEq, Repr

def maxLinks : Nat := 40

def maxName : Nat := 255

/-- Follow the pieces of a path from `here`. A link is entered with the pieces after it still to
go; at the last piece only if `follow` asks for it. -/
def walk (follow : Bool) : (links : Nat) → (here : Location) → List (List Char) → Except Fault Found
  | _, here, [] =>
    match fs.get? here with
    | some e => .ok (.entry here e)
    | none => .error .absent
  | links, here, piece :: rest =>
    if fs.get? here ≠ some .directory then
      .error (if fs.get? here = none then .absent else .notDirectory)
    else if piece = [] ∨ piece = ['.'] then walk follow links here rest
    else if piece = ['.', '.'] then walk follow links here.dropLast rest
    else if piece.length > maxName then .error .nameTooLong
    else
      let l := here ++ [piece]
      match fs.get? l with
      | none => if rest = [] then .ok (.free l) else .error .absent
      | some (.link target) =>
        if rest = [] ∧ !follow then .ok (.entry l (.link target))
        else if target.chars = [] then .error .absent
        else
          match links with
          | 0 => .error .tooManyLinks
          | links + 1 =>
            walk follow links (if target.isAbsolute then [] else here)
              (Text.split (· == '/') target.chars ++ rest)
      | some _ => walk follow links l rest
termination_by links _ pieces => (links, pieces.length)

def find (follow : Bool) (p : Path) : Except Fault Found :=
  if p.chars = [] then .error .absent
  else if '\x00' ∈ p.chars then .error .zeroByte
  else
    fs.walk follow maxLinks (if p.isAbsolute then [] else fs.workDir) (Text.split (· == '/') p.chars)

def locate (p : Path) : Except Fault (Location × Entry) := do
  match ← fs.find true p with
  | .entry l e => .ok (l, e)
  | .free _ => .error .absent

def exists? (p : Path) : Bool := (fs.locate p).isOk

def isDirectory (p : Path) : Bool :=
  match fs.locate p with
  | .ok (_, .directory) => true
  | _ => false

/-- The regular file a path leads to: where it is and what it holds. -/
def file? (p : Path) : Option (Location × Text.Bytes) :=
  match fs.locate p with
  | .ok (l, .file content _) => some (l, content)
  | _ => none

def isFile (p : Path) : Bool := (fs.file? p).isSome

def isExecutable (p : Path) : Bool :=
  match fs.locate p with
  | .ok (_, .file _ executable) => executable
  | _ => false

def read (p : Path) : Except Fault Text.Bytes := do
  match ← fs.locate p with
  | (_, .file content _) => .ok content
  | _ => .error .isDirectory

def readText (p : Path) : Except Fault String := do
  match Text.decode? (← fs.read p) with
  | some cs => .ok (String.ofList cs)
  | none => .error .notUtf8

def pathOf (l : Location) : Path := ⟨'/' :: Text.join '/' l⟩

def workPath : Path := pathOf fs.workDir

/-- The directory at `p` and those above it, made where names are free. -/
def makeDirectories (p : Path) : FileSystem :=
  p.ancestors.reverse.foldl
    (fun fs q =>
      match fs.find true q with
      | .ok (.free l) => fs.put l .directory
      | _ => fs)
    fs

/-- Give the file at `p` new content; a link there is followed. -/
def write (p : Path) (content : Text.Bytes) (executable : Bool) : Except Fault FileSystem := do
  match ← fs.find true p with
  | .free l => .ok (fs.put l (.file content executable))
  | .entry l (.file _ _) => .ok (fs.put l (.file content executable))
  | .entry _ _ => .error .isDirectory

def makeLink (p target : Path) : Except Fault FileSystem := do
  match ← fs.find false p with
  | .free l => .ok (fs.put l (.link target))
  | .entry _ _ => .error .exists

/-- Remove whatever is at `p`; a link is removed itself. -/
def delete (p : Path) : FileSystem :=
  match fs.find false p with
  | .ok (.entry l _) => fs.cutOff l
  | _ => fs

def lastPiece? (p : Path) : Option (List Char) :=
  ((Text.split (· == '/') p.chars).filter (· ≠ [])).getLast?

/-- Remove the directory at `p` with all it holds, if something is there. A link at `p` is removed
itself; one with a slash behind it is entered, emptied and then refused, as is a directory that is
not reached by its name. -/
def removeTree (p : Path) : FileSystem × Except Fault Unit :=
  if !fs.exists? p then (fs, .ok ())
  else
    match fs.find false p with
    | .ok (.entry l (.link _)) => (fs.cutOff l, .ok ())
    | .ok (.entry l .directory) =>
      if p.endsInSlash ∧ linked then (fs.clear l, .error .notDirectory)
      else if l = [] then (fs.clear l, .error .denied)
      else if lastPiece? p = some ['.'] then (fs.clear l, .error .invalidArgument)
      else if lastPiece? p = some ['.', '.'] then (fs.clear l, .ok ())
      else (fs.cutOff l, .ok ())
    | .ok (.entry _ (.file _ _)) => (fs, .error .notDirectory)
    | .ok (.free _) => (fs, .error .absent)
    | .error e => (fs, .error e)
where
  linked : Bool :=
    match fs.find false ⟨Text.join '/' (((Text.split (· == '/') p.chars).reverse.dropWhile (· = [])).reverse)⟩ with
    | .ok (.entry _ (.link _)) => true
    | _ => false

theorem get?_of_walk {follow : Bool} {links : Nat} {here : Location} {pieces : List (List Char)}
    {l : Location} {e : Entry} (h : fs.walk follow links here pieces = .ok (.entry l e)) :
    fs.get? l = some e := by
  fun_induction walk fs follow links here pieces <;> simp_all

theorem walk_of_locate {p : Path} {l : Location} {e : Entry} (h : fs.locate p = .ok (l, e)) :
    fs.walk true maxLinks (if p.isAbsolute then [] else fs.workDir) (Text.split (· == '/') p.chars) =
      .ok (.entry l e) := by
  unfold locate at h
  cases hf : fs.find true p with
  | error => simp [hf, bind, Except.bind] at h
  | ok found =>
    cases found with
    | free => simp [hf, bind, Except.bind] at h
    | entry l' e' =>
      simp only [hf, bind, Except.bind, Except.ok.injEq, Prod.mk.injEq] at h
      obtain ⟨rfl, rfl⟩ := h
      unfold find at hf
      split at hf
      · simp at hf
      · split at hf
        · simp at hf
        · exact hf

theorem get?_of_locate {p : Path} {l : Location} {e : Entry} (h : fs.locate p = .ok (l, e)) :
    fs.get? l = some e :=
  fs.get?_of_walk (fs.walk_of_locate h)

theorem mem_of_get? {l : Location} {e : Entry} (h : fs.get? l = some e) (hl : l ≠ []) :
    (l, e) ∈ fs.entries := by
  cases l with
  | nil => exact absurd rfl hl
  | cons name l =>
    rw [get?, List.lookup_eq_some_iff] at h
    · obtain ⟨before, after, heq, _⟩ := h
      simp [heq]
    · simp

theorem locate_of_file? {p : Path} {l : Location} {content : Text.Bytes} (h : fs.file? p = some (l, content)) :
    ∃ executable, fs.locate p = .ok (l, .file content executable) := by
  unfold file? at h
  split at h
  · next l' content' executable hl =>
    cases h
    exact ⟨executable, hl⟩
  · cases h

theorem mem_of_file? {p : Path} {l : Location} {content : Text.Bytes}
    (h : fs.file? p = some (l, content)) : ∃ e ∈ fs.entries, e.1 = l := by
  obtain ⟨executable, hl⟩ := fs.locate_of_file? h
  have he := fs.get?_of_locate hl
  refine ⟨_, fs.mem_of_get? he ?_, rfl⟩
  rintro rfl
  simp [get?] at he

def unseen (seen : List Location) : Nat := (fs.entries.filter (·.1 ∉ seen)).length

theorem unseen_cons_lt {seen : List Location} {l : Location} (hl : l ∉ seen)
    (h : ∃ e ∈ fs.entries, e.1 = l) : fs.unseen (l :: seen) < fs.unseen seen := by
  obtain ⟨e, he, rfl⟩ := h
  unfold unseen
  rw [← List.countP_eq_length_filter, ← List.countP_eq_length_filter]
  obtain ⟨before, after, heq⟩ := List.append_of_mem he
  rw [heq]
  have mono (es : List (Location × Entry)) :
      es.countP (fun x => decide (x.1 ∉ e.1 :: seen)) ≤ es.countP (fun x => decide (x.1 ∉ seen)) :=
    List.countP_mono_left (by simp)
  have h1 := mono before
  have h2 := mono after
  have hin : decide (e.1 ∉ e.1 :: seen) = false := by simp
  have hout : decide (e.1 ∉ seen) = true := by simpa using hl
  simp only [List.countP_append, List.countP_cons, hin, hout, Bool.false_eq_true, ↓reduceIte]
  omega

theorem unseen_le {seen later : List Location} (h : seen ⊆ later) : fs.unseen later ≤ fs.unseen seen := by
  unfold unseen
  rw [← List.countP_eq_length_filter, ← List.countP_eq_length_filter]
  exact List.countP_mono_left fun e _ he => decide_eq_true fun hm => of_decide_eq_true he (h hm)

def names (l : Location) : List (List Char) :=
  fs.entries.filterMap fun e =>
    match e.1.getLast? with
    | some name => if e.1.dropLast = l then some name else none
    | none => none

end FileSystem

end CMakeHelm
