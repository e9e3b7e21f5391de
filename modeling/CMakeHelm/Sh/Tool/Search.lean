import CMakeHelm.Sh.Pattern
import CMakeHelm.Sh.Tool.Request

namespace CMakeHelm.Sh.Tool.Search

open Run

inductive Form where
  | basic
  | extended
  | fixed
deriving DecidableEq, Repr

structure Pattern where
  regex : Regex
  whole : Bool := false
  word : Bool := false

def withClasses : Octets → Octets
  | '\\' :: 'd' :: cs => "[0-9]".toList ++ withClasses cs
  | '\\' :: 'D' :: cs => "[^0-9]".toList ++ withClasses cs
  | '\\' :: c :: cs => '\\' :: c :: withClasses cs
  | c :: cs => c :: withClasses cs
  | [] => []

def regexOf (form : Form) (text : Octets) : Except Regex.Trouble Regex :=
  match form with
  | .fixed => .ok (Regex.literal text)
  | .basic => Regex.parse false text
  | .extended => Regex.parse true text

def patternOf (form : Form) (texts : List Octets) : Except Regex.Trouble (Option Regex) := do
  let rs ← texts.mapM (regexOf form)
  match rs with
  | [] => return none
  | r :: rs => return some (rs.foldl .alt r)

def Pattern.find? (p : Pattern) (t : Array Char) (i : Nat) : Option (Nat × Nat) :=
  let unique := !p.regex.hasBack
  (List.range (t.size + 1 - i)).findSome? fun k =>
    let start := i + k
    let stops := (Regex.spots t unique p.regex ⟨start, []⟩).map (·.pos)
    let stops := if p.whole then (if start = 0 then stops.filter (· = t.size) else []) else stops
    let stops := if p.word then
        stops.filter fun stop => !(start > 0 && Regex.isWordAt t (start - 1)) && !Regex.isWordAt t stop
      else stops
    (stops.foldl (fun (best : Option Nat) s => some (max s (best.getD 0))) none).map (start, ·)

def Pattern.all (p : Pattern) (t : Array Char) : Nat → Nat → List (Nat × Nat)
  | 0, _ => []
  | n + 1, i =>
    match p.find? t i with
    | some (a, b) => if b > a then (a, b) :: p.all t n b else if a < t.size then p.all t n (a + 1) else []
    | none => []

structure Style where
  pattern : Option Pattern
  inverted : Bool
  counts : Bool
  numbers : Bool
  offsets : Bool
  onlyMatches : Bool
  listsWith : Bool
  listsWithout : Bool
  quiet : Bool
  most : Option Nat
  before : Nat
  after : Nat
  delimiter : Char

def Style.chosen (s : Style) (ls : List Octets) : List Nat :=
  let hits := ls.zipIdx.filterMap fun (l, i) =>
    let found := (s.pattern.bind fun p => p.find? l.toArray 0).isSome
    if found != s.inverted then some i else none
  (s.most.map (hits.take ·)).getD hits

def Style.report (s : Style) (name : Option Octets) (label text : Octets) : Octets × Bool :=
  let ls := if s.delimiter = '\n' then lines text else
    let all := Text.split (· == s.delimiter) text
    if all.getLast? = some [] then all.dropLast else all
  let hits := s.chosen ls
  let front (mark : Char) (i : Nat) : Octets :=
    (name.elim [] (· ++ [mark])) ++ if s.numbers then decimal (i + 1) ++ [mark] else []
  let starts := (ls.foldl (fun (acc : List Nat × Nat) l => (acc.2 :: acc.1, acc.2 + l.length + 1)) ([], 0)).1.reverse
  let offset (i extra : Nat) : Octets := if s.offsets then decimal (starts.getD i 0 + extra) ++ [':'] else []
  let out :=
    if s.quiet then []
    else if s.listsWith then if hits.isEmpty then [] else label ++ ['\n']
    else if s.listsWithout then if hits.isEmpty then label ++ ['\n'] else []
    else if s.counts then (name.elim [] (· ++ [':'])) ++ decimal hits.length ++ ['\n']
    else if text.contains '\x00' ∧ s.delimiter = '\n' then
      if hits.isEmpty then [] else "grep: ".toList ++ label ++ ": binary file matches\n".toList
    else if s.onlyMatches then
      hits.flatMap fun i =>
        let l := ls.getD i []
        if s.inverted then []
        else (s.pattern.elim [] fun p => p.all l.toArray (l.length + 1) 0).flatMap fun (a, b) =>
          front ':' i ++ offset i a ++ (l.drop a).take (b - a) ++ ['\n']
    else
      let wanted := hits.flatMap fun i => (List.range (s.before + s.after + 1)).map fun (k : Nat) => ((i + k : Nat) : Int) - (s.before : Int)
      let wanted := (List.range ls.length).filter fun (i : Nat) => decide ((i : Int) ∈ wanted)
      let separates := s.before + s.after > 0
      (wanted.zip (none :: wanted.map some)).flatMap fun (i, previous) =>
        let gap := separates && (previous.any fun j => decide (j + 1 < i))
        let mark := if i ∈ hits then ':' else '-'
        (if gap then "--\n".toList else []) ++ front mark i ++ offset i 0 ++ ls.getD i [] ++ [s.delimiter]
  (out, if s.listsWithout then hits.isEmpty else !hits.isEmpty)

def longOptions : List (String × Char) :=
  [("extended-regexp", 'E'), ("fixed-strings", 'F'), ("basic-regexp", 'G'), ("perl-regexp", 'P'),
    ("ignore-case", 'i'), ("invert-match", 'v'), ("word-regexp", 'w'), ("line-regexp", 'x'), ("count", 'c'),
    ("files-with-matches", 'l'), ("files-without-match", 'L'), ("max-count", 'm'), ("only-matching", 'o'),
    ("quiet", 'q'), ("silent", 'q'), ("no-messages", 's'), ("byte-offset", 'b'), ("with-filename", 'H'),
    ("no-filename", 'h'), ("line-number", 'n'), ("recursive", 'r'), ("after-context", 'A'),
    ("before-context", 'B'), ("context", 'C'), ("regexp", 'e'), ("file", 'f'), ("null-data", 'z'),
    ("color", '0'), ("colour", '0'), ("text", 'a'), ("include", '1'), ("exclude", '2')]

def filesBelow (fs : FileSystem) (path : Octets) : List Octets :=
  match fs.locate (Test.pathOf path) with
  | .ok (l, .directory) =>
    ((fs.entries.filterMap fun (k, e) =>
      match e with
      | .file _ _ =>
        if l.isPrefixOf k ∧ l.length < k.length then
          some ((path ++ ['/']) ++ Text.join '/' (k.drop l.length))
        else none
      | _ => none)).mergeSort inOrder
  | _ => [path]

def grep (form : Form) (args : List Octets) : Run Int := do
  let args := args.filter fun a => !("--color".toList.isPrefixOf a || "--colour".toList.isPrefixOf a)
  let r := request ['e', 'f', 'm', 'A', 'B', 'C', '1', '2'] longOptions args
  if ← unknown? "grep" r "EFGPivwxclLmoqsbHhnrRABCefzayIU012" then return 2
  let form := (r.options.foldl (fun f (c, _) =>
    match c with
    | 'E' | 'P' => Form.extended
    | 'F' => .fixed
    | 'G' => .basic
    | _ => f) form)
  let given := (r.options.filter (·.1 = 'e')).flatMap fun o => Text.split (· == '\n') o.2
  let listed ← (r.options.filter (·.1 = 'f')).mapM fun o => do
    return (← source "grep" o.2).elim [] lines
  let isGiven : Bool := r.has 'e' || r.has 'f'
  let (texts, named) ← match isGiven, r.named with
    | true, named => pure (given ++ listed.flatten, named)
    | false, pattern :: named => pure (Text.split (· == '\n') pattern, named)
    | false, [] => do
      let _ ← write 2 "Usage: grep [OPTION]... PATTERNS [FILE]...\nTry 'grep --help' for more information.\n".toList
      return 2
  let texts := if r.has 'P' then texts.map withClasses else texts
  match patternOf form texts with
  | .error t =>
    grumble "grep" t.message.toList
    return 2
  | .ok regex =>
    let regex := regex.map fun x => if r.has 'i' ∨ r.has 'y' then x.folded else x
    let context := r.number? 'C'
    let style : Style := {
      pattern := regex.map fun regex => { regex, whole := r.has 'x', word := r.has 'w' }
      inverted := r.has 'v', counts := r.has 'c', numbers := r.has 'n', offsets := r.has 'b'
      onlyMatches := r.has 'o', listsWith := r.has 'l', listsWithout := r.has 'L', quiet := r.has 'q'
      most := r.number? 'm', before := ((r.number? 'B').or context).getD 0
      after := ((r.number? 'A').or context).getD 0, delimiter := if r.has 'z' then '\x00' else '\n' }
    let deep := r.has 'r' ∨ r.has 'R'
    let fs ← files
    let named := if named.isEmpty then (if deep then [['.']] else [['-']]) else named
    let included := (r.options.filter (·.1 = '1')).map (·.2)
    let accepted (f : Octets) : Bool :=
      included.isEmpty || included.any fun p => isMatch {} (p.map (⟨·, false⟩)) (lastName f)
    let all := if deep then
        named.flatMap fun f => (filesBelow fs f).filter fun g => g = f ∨ accepted g
      else named
    let all := if named = [['.']] ∧ deep ∧ r.named.length ≤ 1 then
        all.map fun f => if ['.', '/'].isPrefixOf f then f.drop 2 else f
      else all
    let shows := (all.length > 1 ∨ deep ∨ r.has 'H') ∧ !r.has 'h'
    let mut found := false
    let mut failed := false
    let mut separated := false
    for f in all do
      let label := if f = ['-'] then "(standard input)".toList else f
      if f ≠ ['-'] ∧ fs.isDirectory (Test.pathOf f) then
        if !r.has 's' then grumble "grep" (f ++ ": Is a directory".toList)
        failed := true
      else
        let text? ← if f = ['-'] then source "grep" f else do
          match ← readNamed f with
          | .ok content => pure (some content)
          | .error e => do
            if !r.has 's' then grumble "grep" (f ++ ": ".toList ++ e.text.toList)
            pure none
        match text? with
        | none => failed := true
        | some text =>
          let (out, hit) := style.report (if shows then some label else none) label text
          if separated ∧ !out.isEmpty ∧ style.before + style.after > 0 ∧ !style.counts then print "--\n".toList
          print out
          if !out.isEmpty then separated := true
          if hit then found := true
    return if found ∧ (style.quiet ∨ !failed) then 0 else if failed then 2 else 1

def table : List (String × (List Octets → Run Int)) :=
  [("grep", grep .basic), ("egrep", grep .extended), ("fgrep", grep .fixed)]

end CMakeHelm.Sh.Tool.Search
