import CMakeHelm.Sh.Reader

namespace CMakeHelm.Sh.Grammar

open Parse

def consPlain (c : Char) : Word → Word
  | .plain cs :: w => .plain (c :: cs) :: w
  | w => .plain [c] :: w

def consQuoted (c : Char) : Word → Word
  | .quoted cs :: w => .quoted (c :: cs) :: w
  | w => .quoted [c] :: w

def isSpecial (c : Char) : Bool := c ∈ ['@', '*', '#', '?', '-', '$', '!']

def parameterName : Octets → Octets
  | [] => []
  | c :: cs =>
    if isNameStart c then (c :: cs).takeWhile isNameChar
    else if c.isDigit then (c :: cs).takeWhile Char.isDigit
    else if isSpecial c then [c]
    else []

def backquoted (inQuotes : Bool) : Octets → Option (Octets × Octets)
  | [] => none
  | '`' :: rest => some ([], rest)
  | '\\' :: c :: rest =>
    (backquoted inQuotes rest).map fun (cs, rest) =>
      (if c ∈ ['`', '\\', '$'] || (inQuotes && c == '"') then c :: cs else '\\' :: c :: cs, rest)
  | c :: rest => (backquoted inQuotes rest).map fun (cs, rest) => (c :: cs, rest)

/-- The lines up to the one that is `mark`, and what follows that. The end of a whole text will do as
well. -/
def hereLines (mark : Octets) (tabs isWhole : Bool) : Nat → Octets → Option (Octets × Octets)
  | 0, _ => none
  | n + 1, cs =>
    if cs = [] then if isWhole then some ([], []) else none
    else
      let line := cs.takeWhile (· ≠ '\n')
      let rest := (cs.dropWhile (· ≠ '\n')).tail
      let line := if tabs then line.dropWhile (· == '\t') else line
      if line = mark then some ([], rest)
      else if cs.all (· ≠ '\n') ∧ !isWhole then none
      else (hereLines mark tabs isWhole n rest).map fun (body, rest) => (line ++ '\n' :: body, rest)

def flatten : Word → Octets × Bool
  | [] => ([], false)
  | .plain cs :: w => let (ds, q) := flatten w; (cs ++ ds, q)
  | .quoted cs :: w => (cs ++ (flatten w).1, true)
  | _ :: w => flatten w

def coded (base n : Nat) (cs : Octets) : Nat × Octets :=
  let digit? (c : Char) : Option Nat :=
    let d := if c.isDigit then c.toNat - 48 else if c.isAlpha then c.toLower.toNat - 87 else base
    if d < base then some d else none
  let ds := (cs.take n).takeWhile fun c => (digit? c).isSome
  (ds.foldl (fun k c => base * k + (digit? c).getD 0) 0, cs.drop ds.length)

def codePoint (mark : Char) (width k : Nat) : Octets :=
  let ds := (Nat.toDigits 16 k).map Char.toUpper
  if k < 128 then [Char.ofNat k] else '\\' :: mark :: List.replicate (width - ds.length) '0' ++ ds

def escaped : Nat → Octets → Option (Octets × Octets)
  | 0, _ => none
  | _, [] => none
  | _, '\'' :: rest => some ([], rest)
  | n + 1, '\\' :: c :: rest =>
    let simple (d : Char) : Option (Octets × Octets) :=
      (escaped n rest).map fun (cs, rest) => (d :: cs, rest)
    let number (base digits : Nat) (from_ : Octets) (show_ : Nat → Octets) : Option (Octets × Octets) :=
      let (k, after) := coded base digits from_
      if after.length = from_.length then (escaped n rest).map fun (cs, rest) => ('\\' :: c :: cs, rest)
      else (escaped n after).map fun (cs, rest) => (show_ k ++ cs, rest)
    let octet (k : Nat) : Octets := [Char.ofNat (k % 256)]
    match c with
    | 'a' => simple '\x07'
    | 'b' => simple '\x08'
    | 'e' | 'E' => simple '\x1b'
    | 'f' => simple '\x0c'
    | 'n' => simple '\n'
    | 'r' => simple '\r'
    | 't' => simple '\t'
    | 'v' => simple '\x0b'
    | '\\' | '\'' | '"' | '?' => simple c
    | 'x' => number 16 2 rest octet
    | 'u' => number 16 4 rest fun k => codePoint 'u' 4 k
    | 'U' => number 16 8 rest fun k => codePoint 'U' 8 k
    | 'c' =>
      match rest with
      | d :: rest => (escaped n rest).map fun (cs, rest) => (Char.ofNat (d.toUpper.toNat % 32) :: cs, rest)
      | [] => none
    | c =>
      if '0' ≤ c ∧ c ≤ '7' then number 8 3 (c :: rest) octet
      else (escaped n rest).map fun (cs, rest) => ('\\' :: c :: cs, rest)
  | n + 1, c :: rest => (escaped n rest).map fun (cs, rest) => (c :: cs, rest)

/-- Where a word ends. -/
inductive Bound where
  | operator
  | brace
  | quotedBrace (opened : Bool)
  | slash
  /-- Before a colon or a brace; `opened` counts parentheses and question marks. -/
  | slice (opened : Nat)
  | parentheses (opened : Nat)
  | semicolon (opened : Nat)
  | bracket (opened : Nat)
  | group (opened : Nat)
  | regex (opened : Nat)
  | quote
  | text
deriving DecidableEq

/-- Only `$`, backquotes and some backslashes mean anything between double quotes. -/
def Bound.inQuotes : Bound → Bool
  | operator | brace | slash | bracket _ | group _ | regex _ => false
  | quotedBrace _ | parentheses _ | semicolon _ | slice _ | quote | text => true

def Bound.keepsQuotes (d : Dialect) : Bound → Bool
  | parentheses _ => d = .posix
  | text => true
  | _ => false

def Bound.isBrace : Bound → Bool
  | brace | quotedBrace _ => true
  | _ => false

def subscriptText? : Nat → Octets → Option (Octets × Octets)
  | _, [] => none
  | 0, ']' :: cs => some ([], cs)
  | depth, c :: cs =>
    let depth := if c = '[' then depth + 1 else if c = ']' then depth - 1 else depth
    (subscriptText? depth cs).map fun (a, rest) => (c :: a, rest)

structure Target where
  name : Octets
  hasSubscript : Bool := false
  appends : Bool := false

def target? (d : Dialect) (cs : Octets) : Option Target :=
  let name := cs.takeWhile isNameChar
  let rest := cs.drop name.length
  if !isName name then none
  else
    match d, rest with
    | _, '=' :: _ => some { name }
    | .bash, '+' :: '=' :: _ => some { name, appends := true }
    | .bash, '[' :: more =>
      match subscriptText? 0 more with
      | some (_, '=' :: _) => some { name, hasSubscript := true }
      | some (_, '+' :: '=' :: _) => some { name, hasSubscript := true, appends := true }
      | _ => none
    | _, _ => none

def isProcessPipe (d : Dialect) (cs : Octets) : Bool :=
  match d, cs with
  | .bash, '<' :: '(' :: _ | .bash, '>' :: '(' :: _ => true
  | _, _ => false

def redirects? : Parse (Option (Option Nat)) := do
  let cs ← rest
  let d ← dialect
  let ds := cs.takeWhile Char.isDigit
  let after := cs.drop ds.length
  if d = .bash ∧ "&>".toList.isPrefixOf cs then return some none
  if isProcessPipe d after then return none
  match after with
  | '<' :: _ | '>' :: _ =>
    return some (if ds = [] then none else some (ds.foldl (fun n d => 10 * n + (d.toNat - 48)) 0))
  | _ => return none

def defines (w : Word) : Bool :=
  match w with
  | [.plain name] => String.ofList name ∈ ["declare", "typeset", "local", "export", "readonly"]
  | _ => false

def group : List Command → Command
  | [c] => c
  | cs => .sequence cs

def withRedirections (c : Command) (rs : List Redirection) : Command :=
  if rs.isEmpty then c
  else
    match c with
    | .simple line as ws rs' => .simple line as ws (rs' ++ rs)
    | c => .redirected c rs

def isUnary (word : Octets) : Bool :=
  match word with
  | ['-', c] => "abcdefghknoprstuvwxzGLNORS".toList.contains c
  | _ => false

def isBinaryWord (word : Octets) : Bool :=
  String.ofList word ∈ ["=", "==", "!=", "=~", "-eq", "-ne", "-lt", "-le", "-gt", "-ge", "-ef", "-nt", "-ot"]

def bareWord : Parse Octets := return (← rest).takeWhile fun c => !isMeta c

def between (start after : Octets) : Octets :=
  ((start.take (start.length - after.length - 1)).reverse.dropWhile (· ∈ [' ', '\t', '\n'])).reverse

mutual

/-- The parts of a word up to its bound. Every reader spends fuel when it calls another; what is given
from outside is more than the input can use up. -/
def parts : Nat → Bound → Parse Word
  | 0, _ => unexpected
  | n + 1, bound => do
    let d ← dialect
    match bound, ← rest with
    | .text, [] => return []
    | _, [] => incomplete
    | bound, '\\' :: '\n' :: _ => do skip 2; parts n bound
    | bound, '\\' :: c :: _ => do
      skip 2
      if bound.inQuotes ∧ c ∉ ['$', '`', '"', '\\'] ∧ ¬(bound.isBrace ∧ c = '\x7d') then
        return consQuoted '\\' (consQuoted c (← parts n bound))
      else if bound.keepsQuotes d ∧ c = '"' then return consQuoted '\\' (consQuoted c (← parts n bound))
      else return consQuoted c (← parts n bound)
    | _, ['\\'] => incomplete
    | .quote, '"' :: _ => do skip 1; return []
    | .brace, '}' :: _ | .quotedBrace false, '}' :: _ => do skip 1; return []
    | .slash, '}' :: _ | .slash, '/' :: _ | .slice 0, '}' :: _ | .slice 0, ':' :: _ => return []
    | .slice k, c :: _ =>
      if c ∈ ['(', '?', ')', ':'] then do
        skip 1
        return consQuoted c (← parts n (.slice (if c ∈ ['(', '?'] then k + 1 else k - 1)))
      else ordinary n bound
    | .quotedBrace opened, '"' :: _ => do skip 1; parts n (.quotedBrace !opened)
    | .parentheses 0, ')' :: ')' :: _ => do skip 2; return []
    | .parentheses 0, ')' :: _ => if d = .bash then unexpected else ordinary n bound
    | .parentheses (k + 1), ')' :: _ => do skip 1; return consPlain ')' (← parts n (.parentheses k))
    | .parentheses k, '(' :: _ => do skip 1; return consPlain '(' (← parts n (.parentheses (k + 1)))
    | .semicolon 0, ';' :: _ | .semicolon 0, ')' :: _ => return []
    | .semicolon (k + 1), ')' :: _ => do skip 1; return consQuoted ')' (← parts n (.semicolon k))
    | .semicolon k, '(' :: _ => do skip 1; return consQuoted '(' (← parts n (.semicolon (k + 1)))
    | .bracket 0, ']' :: _ => do skip 1; return []
    | .bracket (k + 1), ']' :: _ => do skip 1; return consPlain ']' (← parts n (.bracket k))
    | .bracket k, '[' :: _ => do skip 1; return consPlain '[' (← parts n (.bracket (k + 1)))
    | .group 0, ')' :: _ => do skip 1; return [.plain [')']]
    | .group (k + 1), ')' :: _ => do skip 1; return consPlain ')' (← parts n (.group k))
    | .group k, '(' :: _ => do skip 1; return consPlain '(' (← parts n (.group (k + 1)))
    | .regex 0, ')' :: _ => return []
    | .regex (k + 1), ')' :: _ => do skip 1; return consPlain ')' (← parts n (.regex k))
    | .regex k, '(' :: _ => do skip 1; return consPlain '(' (← parts n (.regex (k + 1)))
    | .regex 0, c :: _ => if isSpace c ∨ c = '\n' then return [] else ordinary n bound
    | bound, _ => ordinary n bound

def ordinary : Nat → Bound → Parse Word
  | 0, _ => unexpected
  | n + 1, bound => do
    let d ← dialect
    match ← rest with
    | [] => incomplete
    | '$' :: '\'' :: cs =>
      if d = .bash ∧ !bound.inQuotes then
        match escaped (cs.length + 1) cs with
        | none => awaiting (.quote '\'') incomplete
        | some (text, after) => do
          skip (2 + cs.length - after.length)
          return .quoted (text.takeWhile (· ≠ '\x00')) :: (← parts n bound)
      else do
        skip 1
        return (if bound.inQuotes then consQuoted '$' else consPlain '$') (← parts n bound)
    | '$' :: '"' :: _ =>
      if d = .bash ∧ !bound.inQuotes then do skip 1; parts n bound
      else do
        skip 1
        return (if bound.inQuotes then consQuoted '$' else consPlain '$') (← parts n bound)
    | '$' :: _ => do
      skip 1
      let p ← dollar n bound.inQuotes
      return p ++ (← parts n bound)
    | '`' :: cs =>
      match backquoted bound.inQuotes cs with
      | none => awaiting (.quote '\x60') incomplete
      | some (text, after) => do
        skip (1 + cs.length - after.length)
        let body ← inner n text
        return .substitution body bound.inQuotes :: (← parts n bound)
    | '\'' :: cs =>
      if bound.inQuotes then do skip 1; return consQuoted '\'' (← parts n bound)
      else do
        let text := cs.takeWhile (· ≠ '\'')
        if text.length = cs.length then awaiting (.quote '\'') incomplete
        skip (text.length + 2)
        return .quoted text :: (← parts n bound)
    | '"' :: _ => do
      skip 1
      if bound.keepsQuotes d then return consQuoted '"' (← parts n bound)
      let inside ← awaiting (.quote '"') (parts n .quote)
      let inside := if inside.isEmpty then [.quoted []] else inside
      return inside ++ (← parts n bound)
    | c :: cs => do
      let groups := (← get).groups
      if isProcessPipe d (c :: cs) ∧ bound = .operator then do
        skip 2
        let body ← enclosed n
        return .pipe (c = '<') body :: (← parts n bound)
      else if groups ∧ bound = .operator ∧ c ∈ ['?', '*', '+', '@', '!'] ∧ cs.head? = some '(' then do
        skip 2
        let inside ← parts n (.group 0)
        return .plain [c, '('] :: inside ++ (← parts n bound)
      else if bound = .operator ∧ isMeta c then return []
      else do
        skip 1
        if bound.inQuotes then return consQuoted c (← parts n bound)
        else return consPlain c (← parts n bound)

def enclosed : Nat → Parse (List Command)
  | 0 => unexpected
  | n + 1 => do
    let goal := if (← dialect) = .bash then Goal.quote ')' else .token (some ")")
    awaiting goal do
      newlines
      let body ← if ← startsWith ")" then pure [] else list n
      newlines
      expect ")"
      return body

def dollar : Nat → Bool → Parse Word
  | 0, _ => unexpected
  | n + 1, inQuotes => do
    let d ← dialect
    let nested : Parse Word := do
      skip 1
      return [.substitution (← enclosed n) inQuotes]
    match ← rest with
    | [] => if inQuotes then return [.quoted ['$']] else incomplete
    | '(' :: '(' :: _ => do
      let sum : Parse Word := do
        skip 2
        return [.arithmetic (← awaiting .arithmetic (parts n (.parentheses 0))) inQuotes]
      if d = .bash then orElse sum nested else sum
    | '(' :: _ => nested
    | '{' :: _ => do
      skip 1
      return [← awaiting (.quote '\x7d') (braced n inQuotes)]
    | c :: _ =>
      if isNameStart c then return [.expansion (.ofName (← takeWhile isNameChar)) .value inQuotes]
      else if c.isDigit ∨ isSpecial c then do skip 1; return [.expansion (.ofName [c]) .value inQuotes]
      else if d = .bash ∧ c = '[' then do
        skip 1
        return [.arithmetic (← parts n (.bracket 0)) inQuotes]
      else return [if inQuotes then .quoted ['$'] else .plain ['$']]

def braced : Nat → Bool → Parse Part
  | 0, _ => unexpected
  | n + 1, inQuotes => do
    let d ← dialect
    let start ← rest
    let bad (r : Reference) : Parse Part := do
      let _ ← parts n (if inQuotes then .quotedBrace false else .brace)
      let text := start.take (start.length - (← rest).length)
      return .expansion r (.bad ("$\x7b".toList ++ text)) inQuotes
    match start with
    | '#' :: c :: cs => do
      if c ≠ '}' ∧ (c :: cs).take 2 ∉ [['%', '%'], ['#', '#']] then
        skip 1
        let name := parameterName (← rest)
        skip name.length
        let sub ← subscript n
        if ← startsWith "\x7d" then
          if !name.isEmpty then
            skip 1
            return .expansion (.mk name sub false) .length inQuotes
        modify fun r => { r with rest := start }
    | _ => pure ()
    match d, start with
    | .bash, '!' :: c :: cs => do
      let name := parameterName (c :: cs)
      let after := (c :: cs).drop name.length
      if isName name ∧ (after.take 2 = ['*', '\x7d'] ∨ after.take 2 = ['@', '\x7d']) then
        skip (name.length + 3)
        return .expansion (.ofName name) (.names (after.head? = some '*')) inQuotes
      else if !name.isEmpty ∧ name ∉ [['#'], ['?'], ['-'], ['$'], ['!']] then
        skip (name.length + 1)
        let sub ← subscript n
        match sub, ← startsWith "\x7d" with
        | some (.all joined), true =>
          skip 1
          return .expansion (.mk name sub false) (.keys joined) inQuotes
        | _, _ => operation n bad (.mk name sub true) inQuotes
      else
        skip 1
        operation n bad (.ofName ['!']) inQuotes
    | _, _ => do
      let name := parameterName start
      if name.isEmpty then bad (.ofName [])
      else
        skip name.length
        let sub ← subscript n
        operation n bad (.mk name sub false) inQuotes

def subscript : Nat → Parse (Option Subscript)
  | 0 => unexpected
  | n + 1 => do
    if !(← isBash) then return none
    match ← rest with
    | '[' :: '@' :: ']' :: _ => do skip 3; return some (.all false)
    | '[' :: '*' :: ']' :: _ => do skip 3; return some (.all true)
    | '[' :: _ => do skip 1; return some (.of (← parts n (.bracket 0)))
    | _ => return none

def operation : Nat → (Reference → Parse Part) → Reference → Bool → Parse Part
  | 0, _, _, _ => unexpected
  | n + 1, bad, r, inQuotes => do
    let d ← dialect
    let kind? : Char → Option Fallback
      | '-' => some .default
      | '=' => some .assign
      | '?' => some .error
      | '+' => some .alternative
      | _ => none
    let word : Parse Word := parts n (if inQuotes then .quotedBrace false else .brace)
    let pattern : Parse Word := parts n .brace
    let give (op : Operation) : Parse Part := return .expansion r op inQuotes
    let recase (to_ : Recase) (every : Bool) : Parse Part := do
      skip (if every then 2 else 1)
      give (.recase to_ every (← pattern))
    match d, ← rest with
    | _, [] => incomplete
    | _, '}' :: _ => do skip 1; give .value
    | _, '%' :: '%' :: _ => do skip 2; give (.strip true true (← pattern))
    | _, '%' :: _ => do skip 1; give (.strip true false (← pattern))
    | _, '#' :: '#' :: _ => do skip 2; give (.strip false true (← pattern))
    | _, '#' :: _ => do skip 1; give (.strip false false (← pattern))
    | .bash, '/' :: cs => do
      let (which, n') : Occurrence × Nat := match cs with
        | '/' :: _ => (.every, 2)
        | '#' :: _ => (.atStart, 2)
        | '%' :: _ => (.atEnd, 2)
        | _ => (.first, 1)
      skip n'
      let old ← parts n .slash
      let new ← if ← startsWith "/" then do
          skip 1
          pattern
        else do
          skip 1
          pure []
      give (.replace which old new)
    | .bash, '^' :: '^' :: _ => recase .upper true
    | .bash, '^' :: _ => recase .upper false
    | .bash, ',' :: ',' :: _ => recase .lower true
    | .bash, ',' :: _ => recase .lower false
    | .bash, '~' :: '~' :: _ => recase .toggle true
    | .bash, '~' :: _ => recase .toggle false
    | .bash, '@' :: c :: '}' :: _ => do
      skip 3
      if c.isAlpha then give (.transform c) else give (.bad [])
    | _, ':' :: c :: _ =>
      match kind? c, d with
      | some kind, _ => do skip 2; give (.fallback kind true (← word))
      | none, .bash => do
        skip 1
        let offset ← parts n (.slice 0)
        let length ← if ← startsWith ":" then do
            skip 1
            pure (some (← parts n (.slice 0)))
          else pure none
        expect "\x7d"
        give (.slice offset length)
      | none, .posix => bad r
    | _, c :: _ =>
      match kind? c with
      | some kind => do skip 1; give (.fallback kind false (← word))
      | none => bad r

/-- A whole text of commands, whose lines are counted anew. -/
def inner : Nat → Octets → Parse (List Command)
  | 0, _ => unexpected
  | n + 1, text => do
    within (text ++ ['\n']) do
      newlines
      let body ← if (← rest) = [] then pure [] else list n
      newlines
      if (← rest) ≠ [] then unexpected
      return body

def redirection : Nat → Option Nat → Parse Redirection
  | 0, _ => unexpected
  | n + 1, fd => do
    let d ← dialect
    let _ ← takeWhile Char.isDigit
    let target (skipped : Nat) : Parse Word := do
      skip skipped
      space
      let w ← parts n .operator
      if w.isEmpty then unexpected else return w
    match d, ← rest with
    | .bash, '&' :: '>' :: '>' :: _ => return .mk fd .bothAppend (← target 3)
    | .bash, '&' :: '>' :: _ => return .mk fd .both (← target 2)
    | .bash, '<' :: '<' :: '<' :: _ => return .mk fd .here ((← target 3) ++ [.quoted ['\n']])
    | _, '<' :: '<' :: cs => do
      let tabs := cs.head? = some '-'
      let mark ← target (if tabs then 3 else 2)
      let (mark, isQuoted) := flatten mark
      let cs ← rest
      let here := cs.takeWhile (· ≠ '\n')
      let after := cs.drop (here.length + 1)
      let isWhole := (← get).isWhole
      match hereLines mark tabs isWhole (after.length + 1) after with
      | none => incomplete
      | some (body, below) => do
        setBelow here below ((after.take (after.length - below.length)).count '\n')
        if isQuoted then return .mk fd .here [.quoted body]
        else return .mk fd .here (← within body (parts n .text))
    | .bash, '>' :: '&' :: _ => return .mk fd .merge (← target 2)
    | _, '<' :: '&' :: _ => return .mk (some (fd.getD 0)) .duplicate (← target 2)
    | _, '<' :: '>' :: _ => return .mk fd .readWrite (← target 2)
    | _, '<' :: _ => return .mk fd .read (← target 1)
    | _, '>' :: '>' :: _ => return .mk fd .append (← target 2)
    | _, '>' :: '&' :: _ => return .mk (some (fd.getD 1)) .duplicate (← target 2)
    | _, '>' :: '|' :: _ => return .mk fd .clobber (← target 2)
    | _, '>' :: _ => return .mk fd .write (← target 1)
    | _, _ => unexpected

def redirections : Nat → Parse (List Redirection)
  | 0 => unexpected
  | n + 1 => do
    space
    match ← redirects? with
    | none => return []
    | some fd => return (← redirection n fd) :: (← redirections n)

def elements : Nat → Parse (List Element)
  | 0 => unexpected
  | n + 1 => do
    newlines
    match ← rest with
    | [] => awaiting (.quote ')') incomplete
    | ')' :: _ => do skip 1; return []
    | '[' :: cs =>
      match subscriptText? 0 cs with
      | some (_, '=' :: _) => do
        skip 1
        let key ← parts n (.bracket 0)
        skip 1
        let w ← parts n .operator
        return .mk (some key) false w :: (← elements n)
      | some (_, '+' :: '=' :: _) => do
        skip 1
        let key ← parts n (.bracket 0)
        skip 2
        let w ← parts n .operator
        return .mk (some key) true w :: (← elements n)
      | _ => do
        let w ← parts n .operator
        return .mk none false w :: (← elements n)
    | c :: cs => do
      if isMeta c ∧ !isProcessPipe .bash (c :: cs) then unexpected
      let w ← parts n .operator
      return .mk none false w :: (← elements n)

def assignment : Nat → Target → Parse Assignment
  | 0, _ => unexpected
  | n + 1, t => do
    skip t.name.length
    let key ←
      if t.hasSubscript then do
        skip 1
        pure (some (← parts n (.bracket 0)))
      else pure none
    skip (if t.appends then 2 else 1)
    if (← isBash) ∧ (← startsWith "(") then
      skip 1
      return .mk t.name key t.appends (.items (← elements n))
    else return .mk t.name key t.appends (.word (← parts n .operator))

def simple : Nat → Nat → List Assignment → List Word → List Redirection → Parse Command
  | 0, _, _, _, _ => unexpected
  | n + 1, at_, assigned, words, redirected => do
    space
    match ← redirects? with
    | some fd => simple n at_ assigned words (redirected ++ [← redirection n fd])
    | none =>
      let d ← dialect
      let c ← peek
      if isMeta c ∧ !isProcessPipe d (← rest) then
        if (assigned.isEmpty ∧ words.isEmpty ∧ redirected.isEmpty) ∨ c = '(' then unexpected
        else return .simple at_ assigned words redirected
      else if words.isEmpty ∧ (target? d (← rest)).isNone then
        if !(assigned.isEmpty ∧ redirected.isEmpty) then unalias 100
        let w ← parts n .operator
        simple n at_ assigned [w] redirected
      else
        unaliasFurther
        match words, target? d (← rest) with
        | [], some t => simple n at_ (assigned ++ [← assignment n t]) words redirected
        | first :: _, some t =>
          let cs ← rest
          let value := cs.drop (t.name.length + if t.appends then 2 else 1)
          if d = .bash ∧ defines first ∧ !t.hasSubscript ∧ value.head? = some '(' then
            simple n at_ assigned (words ++ [[.definition (← assignment n t)]]) redirected
          else simple n at_ assigned (words ++ [← parts n .operator]) redirected
        | _, none => simple n at_ assigned (words ++ [← parts n .operator]) redirected

def wordList : Nat → Parse (List Word)
  | 0 => unexpected
  | n + 1 => do
    space
    if isMeta (← peek) ∧ !isProcessPipe (← dialect) (← rest) then return []
    let w ← parts n .operator
    return w :: (← wordList n)

def command : Nat → Parse Command
  | 0 => unexpected
  | n + 1 => do
    space
    let d ← dialect
    let at_ ← line
    let subshell : Parse Command := do
      skip 1
      let body ← awaitingWord ")" (list n)
      newlines
      expect ")"
      compound n (.subshell (.sequence body))
    match d, ← rest with
    | .bash, '(' :: '(' :: _ =>
      orElse
        (do
          skip 2
          let sum ← parts n (.parentheses 0)
          compound n (.arithmetic at_ sum))
        subshell
    | _, '(' :: _ => subshell
    | _, _ =>
      unalias 100
      match ← keyword? with
      | some "\x7b" => do
        skip 1
        let body ← awaitingWord "\x7d" (list n)
        expectWord "\x7d"
        compound n (group body)
      | some "if" => do skip 2; compound n (← conditional n)
      | some "while" => do skip 5; compound n (← repeating n false)
      | some "until" => do skip 5; compound n (← repeating n true)
      | some "for" => do skip 3; compound n (← each n)
      | some "select" => do skip 6; compound n (← menu n)
      | some "case" => do skip 4; compound n (← choice n)
      | some "[[" => do
        skip 2
        let c ← disjunction n
        newlines
        if (← bareWord) = "]]".toList then skip 2 else malformed "conditional binary operator expected"
        compound n (.condition at_ c)
      | some "function" => do
        skip 8
        space
        let name ← bareWord
        skip name.length
        space
        if ← startsWith "(" then do
          skip 1
          space
          expect ")"
        newlines
        return .function name (← command n)
      | some _ => unexpected
      | none => do
        let cs ← rest
        let name := cs.takeWhile fun c => !isMeta c
        let after := dropSpace (cs.drop name.length)
        let canName := isName name ∨ (d = .bash ∧ name.all fun c => c ∉ ['$', '\'', '"', '\\', '`', '='])
        if canName ∧ !name.isEmpty ∧ after.head? = some '(' then do
          skip name.length
          space
          skip 1
          space
          expect ")"
          newlines
          return .function name (← command n)
        else if d = .posix ∧ !name.isEmpty ∧ after.head? = some '(' ∧ name.all (fun c => c ∉ ['\'', '"', '=']) then
          malformed "Bad function name"
        else simple n at_ [] [] []

def compound : Nat → Command → Parse Command
  | 0, _ => unexpected
  | n + 1, c => do
    let rs ← redirections n
    return if rs.isEmpty then c else .redirected c rs

def conditional : Nat → Parse Command
  | 0 => unexpected
  | n + 1 => do
    let test ← awaitingWord "then" (list n)
    awaitingWord "then" (expectWord "then")
    let body ← awaitingWord "fi" (list n)
    match ← awaitingWord "fi" keyword? with
    | some "elif" => do
      skip 4
      return .conditional (.sequence test) (.sequence body) (some (← conditional n))
    | some "else" => do
      skip 4
      let otherwise ← awaitingWord "fi" (list n)
      awaitingWord "fi" (expectWord "fi")
      return .conditional (.sequence test) (.sequence body) (some (.sequence otherwise))
    | some "fi" => do
      skip 2
      return .conditional (.sequence test) (.sequence body) none
    | _ => unexpectedFor "fi"

def repeating : Nat → Bool → Parse Command
  | 0, _ => unexpected
  | n + 1, until_ => do
    let test ← awaitingWord "do" (list n)
    return .loop until_ (.sequence test) (← doGroup n)

def doGroup : Nat → Parse Command
  | 0 => unexpected
  | n + 1 => do
    if (← isBash) ∧ (← startsWith "\x7b") then
      skip 1
      let body ← awaitingWord "\x7d" (list n)
      expectWord "\x7d"
      return .sequence body
    awaitingWord "do" (expectWord "do")
    let body ← awaitingWord "done" (list n)
    awaitingWord "done" (expectWord "done")
    return .sequence body

def choices : Nat → Parse (Option (List Word))
  | 0 => unexpected
  | n + 1 => do
    newlines
    let words ←
      match ← awaitingWord "do" keyword? with
      | some "in" => do
        skip 2
        pure (some (← wordList n))
      | _ => pure none
    space
    let cs ← rest
    match words, cs with
    | some _, c :: _ =>
      if c ≠ ';' ∧ c ≠ '\n' then unexpected
    | _, _ => pure ()
    if ← startsWith ";" then skip 1
    newlines
    return words

def variableName : Nat → Parse Octets
  | 0 => unexpected
  | _ + 1 => do
    space
    let word ← bareWord
    let d ← dialect
    if !isName word then
      if d = .posix then malformed "Bad for loop variable" else unexpected
    skip word.length
    return word

def each : Nat → Parse Command
  | 0 => unexpected
  | n + 1 => do
    space
    let at_ ← line
    if (← isBash) ∧ (← startsWith "((") then
      skip 2
      let first ← parts n (.semicolon 0)
      expect ";"
      let test ← parts n (.semicolon 0)
      expect ";"
      let next ← parts n (.semicolon 0)
      expect "))"
      space
      if ← startsWith ";" then skip 1
      newlines
      return .counted at_ first test next (← doGroup n)
    let name ← variableName n
    let words ← choices n
    return .each name words (← doGroup n)

def menu : Nat → Parse Command
  | 0 => unexpected
  | n + 1 => do
    let name ← variableName n
    let words ← choices n
    return .menu name words (← doGroup n)

def choice : Nat → Parse Command
  | 0 => unexpected
  | n + 1 => do
    space
    let word ← parts n .operator
    newlines
    awaitingWord "in" (expectWord "in")
    newlines
    return .choice word (← awaitingWord ";;" (arms n))

def arms : Nat → Parse (List Arm)
  | 0 => unexpected
  | n + 1 => do
    newlines
    match ← keyword? with
    | some "esac" => do skip 4; return []
    | _ => do
      space
      if ← startsWith "(" then skip 1
      let patterns ← alternatives n
      newlines
      let cs ← rest
      let isEmpty := ";;".toList.isPrefixOf cs || ";&".toList.isPrefixOf cs || (← keyword?) = some "esac"
      let body ← if isEmpty then pure [] else list n
      space
      let ending ←
        match ← isBash, ← rest with
        | true, ';' :: ';' :: '&' :: _ => do skip 3; pure Ending.matchOn
        | true, ';' :: '&' :: _ => do skip 2; pure Ending.fallThrough
        | _, ';' :: ';' :: _ => do skip 2; pure Ending.stop
        | _, _ => do
          newlines
          if (← keyword?) = some "esac" then pure Ending.stop else unexpectedFor ";;"
      return .mk patterns (.sequence body) ending :: (← arms n)

def alternatives : Nat → Parse (List Word)
  | 0 => unexpected
  | n + 1 => do
    space
    let w ← parts n .operator
    if w.isEmpty then unexpected
    space
    if ← startsWith "|" then do
      skip 1
      return w :: (← alternatives n)
    else do
      expect ")"
      return [w]

def primary : Nat → Parse Condition
  | 0 => unexpected
  | n + 1 => do
    newlines
    let word ← bareWord
    if ← startsWith "(" then do
      skip 1
      let c ← disjunction n
      newlines
      expect ")"
      return c
    else if word = ['!'] then do
      skip 1
      return .not (← primary n)
    else if word = "]]".toList then unexpected
    else do
      let first ← parts n .operator
      if first.isEmpty then unexpected
      space
      let op ← bareWord
      let ends := op = "]]".toList ∨ (← startsWith "&&") ∨ (← startsWith "||") ∨ (← startsWith ")") ∨
        (← startsWith "\n")
      if ends then
        if isUnary word then malformed "unexpected argument to conditional unary operator"
        return .word first
      else if isUnary word ∧ !isBinaryWord op then
        return .unary word (← parts n .operator)
      else if ← startsWith "<" then do
        skip 1
        space
        return .binary ['<'] first (← parts n .operator)
      else if ← startsWith ">" then do
        skip 1
        space
        return .binary ['>'] first (← parts n .operator)
      else if isBinaryWord op then do
        skip op.length
        space
        if op = "=~".toList then return .binary op first (← parts n (.regex 0))
        let groups := (← get).groups
        modify ({ · with groups := true })
        let second ← parts n .operator
        modify ({ · with groups })
        return .binary op first second
      else malformed "conditional binary operator expected"

def conjunction : Nat → Parse Condition
  | 0 => unexpected
  | n + 1 => do
    let a ← primary n
    newlines
    if ← startsWith "&&" then do
      skip 2
      return .both a (← conjunction n)
    else return a

def disjunction : Nat → Parse Condition
  | 0 => unexpected
  | n + 1 => do
    let a ← conjunction n
    newlines
    if ← startsWith "||" then do
      skip 2
      return .either a (← disjunction n)
    else return a

def pipes : Nat → Parse (List Command)
  | 0 => unexpected
  | n + 1 => do
    let c ← command n
    space
    let d ← dialect
    match d, ← rest with
    | _, '|' :: '|' :: _ => return [c]
    | .bash, '|' :: '&' :: _ => do
      skip 2
      newlines
      return withRedirections c [.mk (some 2) .duplicate [.plain ['1']]] :: (← pipes n)
    | _, '|' :: _ => do
      skip 1
      newlines
      return c :: (← pipes n)
    | _, _ => return [c]

def pipeline : Nat → Parse Command
  | 0 => unexpected
  | n + 1 => do
    space
    unalias 100
    let word ← bareWord
    if word = ['!'] then do
      let _ ← keyword?
      skip 1
      if ← isBash then
        match ← pipeline n with
        | .pipeline negated cs => return .pipeline (!negated) cs
        | c => return .pipeline true [c]
      match ← pipes n with
      | [c] => return .pipeline true [c]
      | cs => return .pipeline true cs
    else if word = "time".toList ∧ (← isBash) then do
      skip 4
      space
      if (← bareWord) = "-p".toList then skip 2
      space
      match ← rest with
      | '\n' :: _ | ';' :: _ => return .sequence []
      | _ => pipeline n
    else
      match ← pipes n with
      | [c] => return c
      | cs => return .pipeline false cs

def andOr : Nat → Command → Parse Command
  | 0, _ => unexpected
  | n + 1, first => do
    space
    if ← startsWith "&&" then do
      skip 2
      newlines
      andOr n (.both first (← pipeline n))
    else if ← startsWith "||" then do
      skip 2
      newlines
      andOr n (.either first (← pipeline n))
    else return first

def list : Nat → Parse (List Command)
  | 0 => unexpected
  | n + 1 => do
    newlines
    let start ← rest
    let c ← andOr n (← pipeline n)
    space
    match ← isBash, ← rest with
    | _, ';' :: ';' :: _ => return [c]
    | true, ';' :: '&' :: _ => return [c]
    | _, ';' :: _ => do skip 1; more n [c]
    | _, '&' :: after => do skip 1; more n [.background (between start after) c]
    | _, '\n' :: _ => more n [c]
    | _, [] => incomplete
    | _, _ => return [c]

def more : Nat → List Command → Parse (List Command)
  | 0, _ => unexpected
  | n + 1, before => do
    newlines
    match ← isBash, ← rest with
    | _, [] => return before
    | _, ')' :: _ => return before
    | _, ';' :: ';' :: _ => return before
    | true, ';' :: '&' :: _ => return before
    | _, _ =>
      match ← keyword? with
      | some word => if isCloser word then return before else return before ++ (← list n)
      | none => return before ++ (← list n)

end

/-- The commands of one line, which may have to go on over further lines. -/
def lineOfCommands : Nat → List Command → Parse (List Command)
  | 0, _ => unexpected
  | n + 1, before => do
    let start ← rest
    let c ← andOr n (← pipeline n)
    space
    match ← rest with
    | '\n' :: _ => do skip 1; return before ++ [c]
    | ';' :: ';' :: _ => unexpected
    | ';' :: _ => do skip 1; next n (before ++ [c])
    | '&' :: after => do skip 1; next n (before ++ [.background (between start after) c])
    | [] => incomplete
    | _ => unexpected
where
  next (n : Nat) (before : List Command) : Parse (List Command) := do
    space
    match ← rest with
    | [] => incomplete
    | '\n' :: _ => do skip 1; return before
    | _ => lineOfCommands n before

def isSpent (r : Reader) : Bool := dropLines (r.rest.length + 1) r.rest = []

/-- The next unit that a shell runs: what stands on the next line that is not empty. -/
def unit : Parse (List Command) := do
  newlines
  let cs ← rest
  if cs = [] then incomplete
  lineOfCommands (20 * cs.length + 200) []

def lineOf (text : Octets) (t : Trouble) : Octets × Nat :=
  let before := match t with
    | .unexpected _ _ left => text.take (text.length - left)
    | .incomplete _ => text
    | .malformed _ => []
  let start := (before.reverse.dropWhile (· ≠ '\n')).reverse
  ((text.drop start.length).takeWhile (· ≠ '\n'), start.count '\n' + 1)

end CMakeHelm.Sh.Grammar
