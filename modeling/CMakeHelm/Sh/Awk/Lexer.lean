import CMakeHelm.Sh.Awk.Syntax
import CMakeHelm.Sh.Format

namespace CMakeHelm.Sh.Awk

inductive Token where
  | number (x : Float)
  | text (cs : Octets)
  | regex (cs : Octets)
  | name (cs : Octets)
  | call (cs : Octets)
  | word (w : String)
  | builtin (w : String)
  | mark (w : String)
  | newline

def Token.isMark (t : Token) (w : String) : Bool :=
  match t with
  | .mark w' => w == w'
  | _ => false

def Token.isWord (t : Token) (w : String) : Bool :=
  match t with
  | .word w' => w == w'
  | _ => false

def words : List String :=
  ["BEGIN", "END", "function", "func", "if", "else", "while", "for", "do", "break", "continue", "next", "nextfile",
    "exit", "return", "delete", "in", "getline", "print", "printf"]

def builtins : List String :=
  ["length", "substr", "index", "split", "sub", "gsub", "match", "sprintf", "sin", "cos", "atan2", "exp", "log",
    "sqrt", "int", "rand", "srand", "tolower", "toupper", "system", "close", "fflush"]

def marks : List String :=
  ["**=", "&&", "||", "++", "--", "+=", "-=", "*=", "/=", "%=", "^=", "==", "<=", ">=", "!=", "!~", ">>", "**", "\x7b",
    "\x7d", "(", ")", "[", "]", ";", ",", "+", "-", "*", "/", "%", "^", "!", "<", ">", "|", "?", ":", "~", "$", "="]

/-- Whether a slash behind the token divides. -/
def Token.isOperand : Token → Bool
  | .number _ | .text _ | .regex _ | .name _ | .builtin _ => true
  | .mark w => w ∈ [")", "]", "$", "++", "--"]
  | _ => false

def number? (cs : Octets) : Option (Float × Octets) :=
  let whole := cs.takeWhile Char.isDigit
  let rest := cs.drop whole.length
  let (places, rest) := match rest with
    | '.' :: rest => let ds := rest.takeWhile Char.isDigit; (ds, rest.drop ds.length)
    | rest => ([], rest)
  if whole.isEmpty ∧ places.isEmpty then none
  else
    let (e, rest) := Floating.exponent? ['e', 'E'] rest
    let mantissa := Floating.digits (whole ++ places)
    let scale : Int := e - places.length
    some (if mantissa = 0 then 0 else if scale > 400 then 1.0 / 0.0
      else Float.ofScientific mantissa (scale < 0) scale.natAbs, rest)

def quoted : Nat → Octets → Option (Octets × Octets)
  | 0, _ => none
  | n + 1, cs =>
    let next (front : Octets) (cs : Octets) := (quoted n cs).map fun (out, rest) => (front ++ out, rest)
    match cs with
    | [] | '\n' :: _ => none
    | '"' :: rest => some ([], rest)
    | '\\' :: '\n' :: rest => next [] rest
    | '\\' :: '"' :: rest => next ['"'] rest
    | '\\' :: '/' :: rest => next ['/'] rest
    | '\\' :: 'c' :: rest => next ['\\', 'c'] rest
    | '\\' :: rest =>
      let (out, rest) := Format.escape .posix rest
      next out rest
    | c :: rest => next [c] rest

/-- An expression up to its closing slash. Inside brackets a slash is a member. -/
def slashed : Nat → Octets → Option (Octets × Octets)
  | 0, _ => none
  | n + 1, cs =>
    let next (front : Octets) (cs : Octets) := (slashed n cs).map fun (out, rest) => (front ++ out, rest)
    match cs with
    | [] | '\n' :: _ => none
    | '/' :: rest => some ([], rest)
    | '\\' :: '/' :: rest => next ['/'] rest
    | '\\' :: c :: rest => next ['\\', c] rest
    | c :: rest => next [c] rest

def withControls : Octets → Octets
  | '\\' :: c :: rest =>
    match [('t', '\t'), ('n', '\n'), ('r', '\r'), ('f', '\x0c'), ('v', '\x0b'), ('a', '\x07'), ('"', '"'),
      ('/', '/')].lookup c with
    | some c => c :: withControls rest
    | none => '\\' :: c :: withControls rest
  | c :: rest => c :: withControls rest
  | [] => []

def regexOf (cs : Octets) : Option Regex := (Regex.parse true (withControls cs)).toOption

def isNameStart (c : Char) : Bool := c.isAlpha || c == '_'

def markAt? (cs : Octets) : Option String := marks.find? fun m => m.toList.isPrefixOf cs

def tokens : Nat → (last : Option Token) → Octets → Except Octets (List Token)
  | 0, _, _ => .ok []
  | n + 1, last, cs =>
    let push (t : Token) (rest : Octets) : Except Octets (List Token) := (tokens n (some t) rest).map (t :: ·)
    match cs with
    | [] => .ok []
    | '\n' :: rest => push .newline rest
    | '\\' :: '\n' :: rest => tokens n last rest
    | '\\' :: '\r' :: '\n' :: rest => tokens n last rest
    | '#' :: rest => tokens n last (rest.dropWhile (· ≠ '\n'))
    | '"' :: rest =>
      match quoted (rest.length + 1) rest with
      | some (text, rest) => push (.text text) rest
      | none => .error cs
    | c :: rest =>
      if c = ' ' ∨ c = '\t' ∨ c = '\r' then tokens n last rest
      else if isNameStart c then
        let name := cs.takeWhile fun c => isNameStart c || c.isDigit
        let rest := cs.drop name.length
        let w := String.ofList name
        if w ∈ words then push (.word w) rest
        else if w ∈ builtins then push (.builtin w) rest
        else if rest.head? = some '(' then push (.call name) rest
        else push (.name name) rest
      else if c = '/' ∧ !last.any Token.isOperand then
        match slashed (rest.length + 1) rest with
        | some (text, rest) => push (.regex text) rest
        | none => .error cs
      else
        match if c.isDigit ∨ c = '.' then number? cs else none with
        | some (x, rest) => push (.number x) rest
        | none =>
          match markAt? cs with
          | some m => push (.mark (if m = "**" then "^" else if m = "**=" then "^=" else m)) (cs.drop m.length)
          | none => .error cs

def lex (cs : Octets) : Except Octets (List Token) := tokens (cs.length + 1) none cs

end CMakeHelm.Sh.Awk
