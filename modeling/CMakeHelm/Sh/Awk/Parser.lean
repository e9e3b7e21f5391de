import CMakeHelm.Sh.Awk.Lexer

namespace CMakeHelm.Sh.Awk

structure Rest where
  tokens : List Token
  ranges : Nat := 0

abbrev Read := StateT Rest (Except Unit)

namespace Read

def refuse {α : Type} : Read α := throw ()

def peek? : Read (Option Token) := return (← get).tokens.head?

def skip : Read Unit := modify fun s => { s with tokens := s.tokens.tail }

def sees (w : String) : Read Bool := return (← peek?).any (·.isMark w)

def seesWord (w : String) : Read Bool := return (← peek?).any (·.isWord w)

def takes (w : String) : Read Bool := do
  if ← sees w then
    skip
    return true
  return false

def takesWord (w : String) : Read Bool := do
  if ← seesWord w then
    skip
    return true
  return false

def demand (w : String) : Read Unit := do if !(← takes w) then refuse

def isNewline : Option Token → Bool
  | some .newline => true
  | _ => false

def skipNewlines : Read Unit :=
  modify fun s => { s with tokens := s.tokens.dropWhile fun t => isNewline (some t) }

def skipSeparators : Read Unit :=
  modify fun s => { s with tokens := s.tokens.dropWhile fun t => isNewline (some t) || t.isMark ";" }

end Read

open Read

def comparisons : List (String × Comparison) :=
  [("<", .less), ("<=", .atMost), ("==", .equal), ("!=", .unequal), (">", .greater), (">=", .atLeast)]

def updates : List (String × Operation) :=
  [("+=", .add), ("-=", .subtract), ("*=", .multiply), ("/=", .divide), ("%=", .remainder), ("^=", .power)]

def isTarget : Expr → Bool
  | .name _ | .item _ _ | .field _ => true
  | _ => false

structure Place where
  prints : Bool := false
  plain : Bool := false

def beginsOperand : Token → Bool
  | .number _ | .text _ | .regex _ | .name _ | .call _ | .builtin _ => true
  | .mark w => w ∈ ["(", "$", "++", "--"]
  | _ => false

mutual

def expression : Nat → Place → Read Expr
  | 0, _ => refuse
  | n + 1, p => do
    let c ← disjunction n p
    if ← takes "?" then
      skipNewlines
      let a ← expression n p
      skipNewlines
      demand ":"
      skipNewlines
      return .choice c a (← expression n p)
    if isTarget c then
      if ← takes "=" then
        skipNewlines
        return .assign c (← expression n p)
      if let some (.mark w) ← peek? then
        if let some op := updates.lookup w then
          skip
          skipNewlines
          return .update op c (← expression n p)
    return c

def disjunction : Nat → Place → Read Expr
  | 0, _ => refuse
  | n + 1, p => do
    let a ← conjunction n p
    if ← takes "||" then
      skipNewlines
      return .either a (← disjunction n p)
    return a

def conjunction : Nat → Place → Read Expr
  | 0, _ => refuse
  | n + 1, p => do
    let a ← membership n p
    if ← takes "&&" then
      skipNewlines
      return .both a (← conjunction n p)
    return a

def membership : Nat → Place → Read Expr
  | 0, _ => refuse
  | n + 1, p => do members n p (← matching n p)

def members : Nat → Place → Expr → Read Expr
  | 0, _, e => return e
  | n + 1, p, e => do
    if !p.plain ∧ (← takesWord "in") then
      match ← peek? with
      | some (.name a) =>
        skip
        members n p (.has (match e with
          | .group es => es
          | e => [e]) a)
      | _ => refuse
    else return e

def matching : Nat → Place → Read Expr
  | 0, _ => refuse
  | n + 1, p => do patterns n p (← comparison n p)

def patterns : Nat → Place → Expr → Read Expr
  | 0, _, e => return e
  | n + 1, p, e => do
    if ← takes "~" then patterns n p (.matching e (← comparison n p))
    else if ← takes "!~" then patterns n p (.not (.matching e (← comparison n p)))
    else return e

def comparison : Nat → Place → Read Expr
  | 0, _ => refuse
  | n + 1, p => do
    let a ← lines n p (← concatenation n p)
    match ← peek? with
    | some (.mark w) =>
      match comparisons.lookup w with
      | some op =>
        if w = ">" ∧ p.prints then return a
        skip
        return .compare op a (← concatenation n p)
      | none => return a
    | _ => return a

def lines : Nat → Place → Expr → Read Expr
  | 0, _, e => return e
  | n + 1, p, e => do
    match (← get).tokens with
    | .mark "|" :: .word "getline" :: _ =>
      skip
      skip
      lines n p (.getline (← target? n) (.command e))
    | _ => return e

def concatenation : Nat → Place → Read Expr
  | 0, _ => refuse
  | n + 1, p => do joined n p (← sum n p)

def joined : Nat → Place → Expr → Read Expr
  | 0, _, e => return e
  | n + 1, p, e => do
    match ← peek? with
    | some t => if beginsOperand t then joined n p (.join e (← sum n p)) else return e
    | none => return e

def sum : Nat → Place → Read Expr
  | 0, _ => refuse
  | n + 1, p => do terms n p (← product n p)

def terms : Nat → Place → Expr → Read Expr
  | 0, _, e => return e
  | n + 1, p, e => do
    if ← takes "+" then terms n p (.compute .add e (← product n p))
    else if ← takes "-" then terms n p (.compute .subtract e (← product n p))
    else return e

def product : Nat → Place → Read Expr
  | 0, _ => refuse
  | n + 1, p => do factors n p (← signed n p)

def factors : Nat → Place → Expr → Read Expr
  | 0, _, e => return e
  | n + 1, p, e => do
    if ← takes "*" then factors n p (.compute .multiply e (← signed n p))
    else if ← takes "/" then factors n p (.compute .divide e (← signed n p))
    else if ← takes "%" then factors n p (.compute .remainder e (← signed n p))
    else return e

def signed : Nat → Place → Read Expr
  | 0, _ => refuse
  | n + 1, p => do
    if ← takes "-" then return .negate (← signed n p)
    if ← takes "+" then return .numeric (← signed n p)
    if ← takes "!" then return .not (← signed n p)
    let e ← stepped n p
    if ← takes "^" then return .compute .power e (← signed n p)
    return e

def stepped : Nat → Place → Read Expr
  | 0, _ => refuse
  | n + 1, p => do
    if ← takes "++" then return .step (← stepped n p) true true
    if ← takes "--" then return .step (← stepped n p) false true
    let e ← primary n p
    if isTarget e then
      if ← takes "++" then return .step e true false
      if ← takes "--" then return .step e false false
    return e

def target? : Nat → Read (Option Expr)
  | 0 => return none
  | n + 1 => do
    match ← peek? with
    | some (.name _) => return some (← primary n {})
    | some (.mark "$") => return some (← primary n {})
    | _ => return none

def primary : Nat → Place → Read Expr
  | 0, _ => refuse
  | n + 1, p => do
    match ← peek? with
    | none => refuse
    | some t =>
      skip
      match t with
      | .number x => return .number x
      | .text cs => return .text cs
      | .regex cs =>
        match regexOf cs with
        | some r => return .regex r
        | none => refuse
      | .name x =>
        if ← takes "[" then
          let index ← expressions n { p with prints := false, plain := false }
          demand "]"
          return .item x index
        return .name x
      | .call f =>
        demand "("
        skipNewlines
        if ← takes ")" then return .call f []
        let args ← expressions n {}
        demand ")"
        return .call f args
      | .builtin f =>
        if ← takes "(" then
          skipNewlines
          if ← takes ")" then return .builtin f []
          let args ← expressions n {}
          demand ")"
          return .builtin f args
        if f = "length" then return .builtin f [] else refuse
      | .word "getline" =>
        let target ← target? n
        if ← takes "<" then return .getline target (.file (← stepped n p))
        return .getline target .input
      | .mark "$" =>
        if ← takes "++" then return .field (.step (← primary n p) true true)
        if ← takes "--" then return .field (.step (← primary n p) false true)
        if ← takes "-" then return .field (.negate (← primary n p))
        return .field (← primary n p)
      | .mark "(" =>
        skipNewlines
        let es ← expressions n {}
        demand ")"
        return .group es
      | .mark "-" => return .negate (← signed n p)
      | .mark "+" => return .numeric (← signed n p)
      | .mark "!" => return .not (← signed n p)
      | _ => refuse

def expressions : Nat → Place → Read (List Expr)
  | 0, _ => refuse
  | n + 1, p => do
    let e ← expression n p
    skipNewlinesBefore p
    if ← takes "," then
      skipNewlines
      return e :: (← expressions n p)
    return [e]
where
  skipNewlinesBefore (p : Place) : Read Unit := do
    if !p.prints then
      let after := (← get).tokens.dropWhile fun t => isNewline (some t)
      if after.head?.any fun t => t.isMark ")" then modify ({ · with tokens := after })

end

def endsStatement : Read Bool := do
  match ← peek? with
  | none | some .newline => return true
  | some t => return t.isMark ";" || t.isMark "\x7d"

def finishStatement : Read Unit := do
  match ← peek? with
  | none => return
  | some .newline => skipSeparators
  | some t =>
    if t.isMark ";" then skipSeparators
    else if t.isMark "\x7d" then return
    else refuse

def sink (n : Nat) : Read Sink := do
  if ← takes ">" then return .file (← concatenation n { prints := true })
  if ← takes ">>" then return .append (← concatenation n { prints := true })
  if ← takes "|" then return .command (← concatenation n { prints := true })
  return .output

/-- What is printed. Parentheses around all of it are no group. -/
def printed (n : Nat) : Read (List Expr) := do
  let isEnd (t : Token) : Bool := t.isMark ">" || t.isMark ">>" || t.isMark "|"
  if (← endsStatement) || (← peek?).any isEnd then return []
  let before ← get
  let whole ← (try
      demand "("
      skipNewlines
      let es ← expressions n {}
      demand ")"
      if (← endsStatement) || (← peek?).any isEnd then return some es else return none
    catch _ => return none : Read (Option (List Expr)))
  match whole with
  | some es => return es
  | none =>
    set before
    expressions n { prints := true }

def simple (n : Nat) : Read Statement := do
  if ← takesWord "print" then
    let es ← printed n
    return .print es (← sink n)
  if ← takesWord "printf" then
    let es ← printed n
    return .printf es (← sink n)
  if ← takesWord "delete" then
    match ← peek? with
    | some (.name a) =>
      skip
      if ← takes "[" then
        let index ← expressions n {}
        demand "]"
        return .delete a (some index)
      return .delete a none
    | _ => refuse
  return .expr (← expression n {})

mutual

def statement : Nat → Read (List Statement)
  | 0 => refuse
  | n + 1 => do
    skipNewlines
    match ← peek? with
    | some (.mark "\x7b") => block n
    | some (.mark ";") =>
      skipSeparators
      return []
    | some (.word "if") =>
      skip
      demand "("
      let c ← expression n {}
      skipNewlines
      demand ")"
      let yes ← statement n
      let before ← get
      skipSeparators
      if ← takesWord "else" then return [.branch c yes (← statement n)]
      set before
      return [.branch c yes []]
    | some (.word "while") =>
      skip
      demand "("
      let c ← expression n {}
      demand ")"
      if ← takes ";" then return [.loop c []]
      return [.loop c (← statement n)]
    | some (.word "do") =>
      skip
      let body ← statement n
      skipSeparators
      if !(← takesWord "while") then refuse
      demand "("
      let c ← expression n {}
      demand ")"
      finishStatement
      return [.loopAfter body c]
    | some (.word "for") =>
      skip
      demand "("
      match (← get).tokens with
      | .name x :: .word "in" :: .name a :: .mark ")" :: rest =>
        modify ({ · with tokens := rest })
        return [.each x a (← statement n)]
      | _ =>
        let start ← if ← sees ";" then pure [] else List.singleton <$> simple n
        demand ";"
        skipNewlines
        let c ← if ← sees ";" then pure none else some <$> expression n {}
        demand ";"
        skipNewlines
        let step ← if ← sees ")" then pure [] else List.singleton <$> simple n
        demand ")"
        if ← takes ";" then return [.count start c step []]
        return [.count start c step (← statement n)]
    | some (.word w) =>
      let known : List (String × Statement) :=
        [("next", .next), ("nextfile", .nextFile), ("break", .leave), ("continue", .again)]
      match known.lookup w with
      | some s =>
        skip
        finishStatement
        return [s]
      | none =>
        if w = "exit" ∨ w = "return" then
          skip
          let e ← if ← endsStatement then pure none else some <$> expression n {}
          finishStatement
          return [if w = "exit" then .exit e else .return_ e]
        let s ← simple n
        finishStatement
        return [s]
    | _ =>
      let s ← simple n
      finishStatement
      return [s]

def block : Nat → Read (List Statement)
  | 0 => refuse
  | n + 1 => do
    demand "\x7b"
    skipSeparators
    let ss ← statements n
    demand "\x7d"
    if ← sees ";" then skipSeparators
    return ss

def statements : Nat → Read (List Statement)
  | 0 => refuse
  | n + 1 => do
    skipSeparators
    if ← sees "\x7d" then return []
    let s ← statement n
    return s ++ (← statements n)

end

def parameters : Nat → Read (List Octets)
  | 0 => refuse
  | n + 1 => do
    skipNewlines
    match ← peek? with
    | some (.name x) =>
      skip
      skipNewlines
      if ← takes "," then return x :: (← parameters n)
      return [x]
    | _ => return []

def rules : Nat → Program → Read Program
  | 0, _ => refuse
  | n + 1, p => do
    skipSeparators
    match ← peek? with
    | none => return p
    | some (.word "BEGIN") =>
      skip
      let body ← block n
      rules n { p with start := p.start ++ [body] }
    | some (.word "END") =>
      skip
      let body ← block n
      rules n { p with finish := p.finish ++ [body] }
    | some (.word "function") | some (.word "func") =>
      skip
      match ← peek? with
      | some (.call f) | some (.name f) =>
        skip
        demand "("
        let params ← parameters n
        demand ")"
        skipNewlines
        let body ← block n
        rules n { p with functions := p.functions ++ [(f, ⟨params, body⟩)] }
      | _ => refuse
    | some (.mark "\x7b") =>
      let body ← block n
      rules n { p with rules := p.rules ++ [(.always, body)] }
    | some _ =>
      let e ← expression n {}
      let pattern ← if ← takes "," then do
          skipNewlines
          let last ← expression n {}
          let k := (← get).ranges
          modify ({ · with ranges := k + 1 })
          pure (Pattern.range k e last)
        else pure (Pattern.holds e)
      let body ← if ← sees "\x7b" then block n else pure [Statement.print [] .output]
      rules n { p with rules := p.rules ++ [(pattern, body)] }

def parse (cs : Octets) : Option Program :=
  match lex cs with
  | .error _ => none
  | .ok tokens =>
    match (rules (8 * tokens.length + 64) {}).run { tokens } with
    | .ok (p, _) => some p
    | .error _ => none

end CMakeHelm.Sh.Awk
