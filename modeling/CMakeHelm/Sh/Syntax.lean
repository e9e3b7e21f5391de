import CMakeHelm.Text.Octets

namespace CMakeHelm.Sh

export Text (Octets ofBytes bytesOf octets octetsOf textOf)

scoped instance lawfulBEqOctets : LawfulBEq Octets := List.instLawfulBEq

scoped instance lawfulBEqFirst : LawfulBEq (Option Char) := Option.instLawfulBEq Char

def inOrder (a b : Octets) : Bool := !decide (b < a)

inductive Dialect where
  | posix
  | bash
deriving DecidableEq, Repr

/-- What `${name...}` does when the parameter is missing, or empty where `onEmpty` says so. -/
inductive Fallback where
  | default
  | assign
  | error
  | alternative
deriving DecidableEq, Repr

inductive Occurrence where
  | first
  | every
  | atStart
  | atEnd
deriving DecidableEq, Repr

inductive Recase where
  | upper
  | lower
  | toggle
deriving DecidableEq, Repr

inductive Mode where
  | read
  | write
  | clobber
  | append
  | readWrite
  | duplicate
  /-- A duplicate if the target is a descriptor, else both outputs go to the file. -/
  | merge
  | both
  | bothAppend
  | here
deriving DecidableEq, Repr

inductive Ending where
  | stop
  | fallThrough
  | matchOn
deriving DecidableEq, Repr

mutual

inductive Subscript where
  | all (joined : Bool)
  | of (w : List Part)

inductive Reference where
  | mk (name : Octets) (subscript : Option Subscript) (indirect : Bool)

inductive Operation where
  | value
  | length
  | keys (joined : Bool)
  | names (joined : Bool)
  | fallback (kind : Fallback) (onEmpty : Bool) (word : List Part)
  | strip (atEnd longest : Bool) (pattern : List Part)
  | replace (which : Occurrence) (pattern : List Part) (new : List Part)
  | recase (to_ : Recase) (every : Bool) (pattern : List Part)
  | slice (offset : List Part) (length : Option (List Part))
  | transform (letter : Char)
  | bad (text : Octets)

inductive Part where
  | plain (text : Octets)
  | quoted (text : Octets)
  | expansion (r : Reference) (op : Operation) (inQuotes : Bool)
  | substitution (body : List Command) (inQuotes : Bool)
  | arithmetic (expression : List Part) (inQuotes : Bool)
  | pipe (isInput : Bool) (body : List Command)
  /-- A definition of an array among the operands of a command. -/
  | definition (a : Assignment)

inductive Assignment where
  | mk (name : Octets) (subscript : Option (List Part)) (appends : Bool) (value : Value)

inductive Value where
  | word (w : List Part)
  | items (es : List Element)

inductive Element where
  | mk (subscript : Option (List Part)) (appends : Bool) (w : List Part)

inductive Redirection where
  | mk (fd : Option Nat) (mode : Mode) (target : List Part)

inductive Condition where
  | word (w : List Part)
  | unary (op : Octets) (w : List Part)
  | binary (op : Octets) (a b : List Part)
  | not (c : Condition)
  | both (a b : Condition)
  | either (a b : Condition)

inductive Arm where
  | mk (patterns : List (List Part)) (body : Command) (ending : Ending)

inductive Command where
  | simple (line : Nat) (assignments : List Assignment) (words : List (List Part))
      (redirections : List Redirection)
  | pipeline (negated : Bool) (commands : List Command)
  | both (a b : Command)
  | either (a b : Command)
  | sequence (commands : List Command)
  | background (text : Octets) (c : Command)
  | subshell (body : Command)
  | conditional (test body : Command) (otherwise : Option Command)
  | loop (until_ : Bool) (test body : Command)
  | each (name : Octets) (words : Option (List (List Part))) (body : Command)
  | counted (line : Nat) (first test next : List Part) (body : Command)
  | menu (name : Octets) (words : Option (List (List Part))) (body : Command)
  | choice (word : List Part) (arms : List Arm)
  | function (name : Octets) (body : Command)
  | arithmetic (line : Nat) (expression : List Part)
  | condition (line : Nat) (c : Condition)
  | redirected (c : Command) (redirections : List Redirection)

end

abbrev Word := List Part

instance : Inhabited Command := ⟨.sequence []⟩

def Reference.name : Reference → Octets
  | .mk name _ _ => name

def Reference.subscript : Reference → Option Subscript
  | .mk _ subscript _ => subscript

def Reference.ofName (name : Octets) : Reference := .mk name none false

def isNameStart (c : Char) : Bool := c.isAlpha || c == '_'

def isNameChar (c : Char) : Bool := isNameStart c || c.isDigit

def isName : Octets → Bool
  | [] => false
  | c :: cs => isNameStart c && cs.all isNameChar

end CMakeHelm.Sh
