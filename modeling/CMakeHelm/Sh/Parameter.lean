import CMakeHelm.Sh.Builtin

namespace CMakeHelm.Sh

/-- The value of a reference: one text, or several that may be joined. -/
inductive Got where
  | one (text : Option Octets)
  | many (texts : List Octets) (joined : Bool)
deriving DecidableEq, Repr

namespace Parameter

open Run

def rules : Run PatternRules := do
  return { caret := ← Builtin.isBash, groups := ← hasSwitch "extglob" }

def nameRules : Run NameRules := do
  let pattern ← rules
  return {
    pattern := { pattern with folds := ← hasSwitch "nocaseglob" }
    dots := ← hasSwitch "dotglob"
    parents := !(← Builtin.isBash)
    deep := ← hasSwitch "globstar"
    vanishes := ← hasSwitch "nullglob" }

def separators : Run Octets := return (← value? "IFS".toList).getD [' ', '\t', '\n']

def joined (texts : List Octets) : Run Octets := do
  match ← separators with
  | [] => return texts.flatten
  | c :: _ => return Text.join c texts

def referenceOf (text : Octets) : Octets × Option (Octets) :=
  match text.dropWhile (· ≠ '[') with
  | '[' :: key => (text.takeWhile (· ≠ '['), some key.dropLast)
  | _ => (text, none)

def optionLetters (s : Shell) : Octets :=
  let order := if s.dialect = .bash then "abefhkmnptuvxBCEHPTsc" else "ubaCvxsnmIfe"
  order.toList.filter (· ∈ s.options)

def plain? (name : Octets) : Run (Option Octets) := do
  let s ← shell
  match name with
  | ['?'] => return some (integer s.status)
  | ['#'] => return some (decimal s.args.length)
  | ['$'] => return some (decimal s.pid)
  | ['-'] => return some (optionLetters s)
  | ['!'] => return s.lastJob.map decimal
  | ['0'] => return some s.name
  | _ =>
    match Builtin.number? name with
    | some 0 => return some s.name
    | some n => return s.args[n - 1]?
    | none => return Shell.text? s name

def element (name : Octets) (key : Octets) : Run Got := do
  let s ← shell
  let name := Shell.target s 8 name
  match Shell.lookup? s name with
  | none => return if key = ['@'] ∨ key = ['*'] then .many [] (key = ['*']) else .one none
  | some v =>
    if key = ['@'] then return .many v.texts false
    else if key = ['*'] then return .many v.texts true
    else if v.isKeyed then return .one (v.element? key)
    else
      let k ← compute 8 key
      let at_ := if k < 0 then k + v.bound else k
      if at_ < 0 then
        complain (name ++ ": bad array subscript".toList)
        return .one none
      return .one (v.element? (integer at_))

def named (text : Octets) : Run Got := do
  let s ← shell
  match text with
  | ['@'] => return .many s.args false
  | ['*'] => return .many s.args true
  | _ =>
    match referenceOf text with
    | (name, some key) => element name key
    | (name, none) => return .one (← plain? name)

def sliced {α : Type} (xs : List α) (offset : Int) (length : Option Int) : Option (List α) :=
  let size : Int := xs.length
  let start := if offset < 0 then offset + size else offset
  if start < 0 ∨ start > size then some []
  else
    match length with
    | none => some (xs.drop start.toNat)
    | some n =>
      let stop := if n < 0 then size + n else min size (start + n)
      if stop < start then none else some ((xs.drop start.toNat).take (stop - start).toNat)

/-- Replacements where an unquoted ampersand stands for what they replace. -/
def filled (new : List Glyph) (old : Octets) : Octets :=
  new.flatMap fun g => if g = ⟨'&', false⟩ then old else [g.char]

def replaceFrom (r : Regex) (new : List Glyph) (t : Array Char) : Nat → Nat → Octets
  | 0, i => t.toList.drop i
  | n + 1, i =>
    match t[i]? with
    | none => []
    | some c =>
      match r.matchAt? t i with
      | some m =>
        if m.stop > i then filled new ((t.toList.drop i).take (m.stop - i)) ++ replaceFrom r new t n m.stop
        else c :: replaceFrom r new t n (i + 1)
      | none => c :: replaceFrom r new t n (i + 1)

def replaced (rules : PatternRules) (which : Occurrence) (pattern new : List Glyph) (text : Octets) : Octets :=
  let r := Pattern.regex rules pattern
  let t := text.toArray
  let cut (start stop : Nat) : Octets :=
    text.take start ++ filled new ((text.drop start).take (stop - start)) ++ text.drop stop
  if pattern.isEmpty ∧ (which = .first ∨ which = .every) then text
  else
    match which with
    | .first =>
      match r.find? t 0 with
      | some m => if m.stop > m.start ∨ text.isEmpty then cut m.start m.stop else text
      | none => text
    | .every => if text.isEmpty then (if r.accepts [] then filled new [] else []) else replaceFrom r new t (t.size + 1) 0
    | .atStart =>
      match r.matchAt? t 0 with
      | some m => cut 0 m.stop
      | none => text
    | .atEnd =>
      match (List.range (t.size + 1)).find? fun i => (Regex.spots t true r ⟨i, []⟩).any (·.pos == t.size) with
      | some i => cut i t.size
      | none => text

def recased (rules : PatternRules) (to_ : Recase) (every : Bool) (pattern : List Glyph) (text : Octets) : Octets :=
  let pattern := if pattern.isEmpty then [⟨'?', false⟩] else pattern
  let change (c : Char) : Char := if isMatch rules pattern [c] then to_.apply c else c
  if every then text.map change
  else
    match text with
    | c :: cs => change c :: cs
    | [] => []

def transformed (letter : Char) (text : Octets) : Octets :=
  match letter with
  | 'Q' => Quoting.reusable text
  | 'U' => text.map Char.toUpper
  | 'L' => text.map Char.toLower
  | 'u' =>
    match text with
    | c :: cs => c.toUpper :: cs
    | [] => []
  | 'E' => (Format.unescape .bash false text).1
  | _ => text

def homeOf (login : Octets) : Run (Option Octets) := do
  match String.ofList login with
  | "" => value? "HOME".toList
  | "root" => return some "/root".toList
  | "+" => if ← Builtin.isBash then return some (← shell).workPath else return none
  | "-" => if ← Builtin.isBash then value? "OLDPWD".toList else return none
  | _ => return none

def atTilde (colons isLast : Bool) (cs : Octets) : Run (List Part × Octets) := do
  match cs with
  | '~' :: rest =>
    let login := rest.takeWhile fun c => c ≠ '/' && !(colons && c == ':')
    let after := rest.drop login.length
    if after.isEmpty ∧ !isLast then return ([], cs)
    match ← homeOf login with
    | some home => return ([.quoted home], after)
    | none => return ([], cs)
  | _ => return ([], cs)

def afterColons : Nat → Bool → Octets → Run Word
  | 0, _, cs => return [.plain cs]
  | n + 1, isLast, cs => do
    let front := cs.takeWhile (· ≠ ':')
    match cs.drop front.length with
    | ':' :: rest => do
      let (home, rest) ← atTilde true isLast rest
      return .plain (front ++ [':']) :: home ++ (← afterColons n isLast rest)
    | _ => return if cs.isEmpty then [] else [.plain cs]

def tildes (colons : Bool) (w : Word) : Run Word := do
  let (front, w) ← match w with
    | .plain cs :: rest => do
      let (home, after) ← atTilde colons rest.isEmpty cs
      pure (home, if home.isEmpty ∨ !after.isEmpty then .plain after :: rest else rest)
    | w => pure ([], w)
  if !colons then return front ++ w
  return front ++ (← go w)
where
  go : Word → Run Word
    | [] => return []
    | .plain cs :: rest => do
      return (← if cs.contains ':' ∧ cs.contains '~' then afterColons cs.length rest.isEmpty cs else pure [.plain cs]) ++
        (← go rest)
    | p :: rest => return p :: (← go rest)

end Parameter

end CMakeHelm.Sh
