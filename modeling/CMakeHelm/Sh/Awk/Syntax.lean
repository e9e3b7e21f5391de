import CMakeHelm.Sh.Regex

namespace CMakeHelm.Sh.Awk

inductive Comparison where
  | less
  | atMost
  | equal
  | unequal
  | greater
  | atLeast
deriving DecidableEq, Repr

inductive Operation where
  | add
  | subtract
  | multiply
  | divide
  | remainder
  | power
deriving DecidableEq, Repr

mutual

inductive Expr where
  | number (x : Float)
  | text (cs : Octets)
  /-- Alone it is matched against the record. -/
  | regex (r : Regex)
  | name (x : Octets)
  | item (array : Octets) (index : List Expr)
  | field (e : Expr)
  | assign (target value : Expr)
  | update (op : Operation) (target value : Expr)
  | step (target : Expr) (up before : Bool)
  | choice (c a b : Expr)
  | both (a b : Expr)
  | either (a b : Expr)
  | not (e : Expr)
  | has (index : List Expr) (array : Octets)
  | matching (e pattern : Expr)
  | compare (op : Comparison) (a b : Expr)
  | join (a b : Expr)
  | compute (op : Operation) (a b : Expr)
  | negate (e : Expr)
  | numeric (e : Expr)
  | call (function : Octets) (args : List Expr)
  | builtin (name : String) (args : List Expr)
  | group (es : List Expr)
  | getline (target : Option Expr) (source : Source)

inductive Source where
  | input
  | file (e : Expr)
  | command (e : Expr)

end

instance : Inhabited Expr := ⟨.number 0⟩

inductive Sink where
  | output
  | file (e : Expr)
  | append (e : Expr)
  | command (e : Expr)

inductive Statement where
  | expr (e : Expr)
  | print (es : List Expr) (sink : Sink)
  | printf (es : List Expr) (sink : Sink)
  | branch (c : Expr) (yes no : List Statement)
  | loop (c : Expr) (body : List Statement)
  | loopAfter (body : List Statement) (c : Expr)
  | count (start : List Statement) (c : Option Expr) (step body : List Statement)
  | each (x array : Octets) (body : List Statement)
  | next
  | nextFile
  | exit (e : Option Expr)
  | leave
  | again
  | return_ (e : Option Expr)
  | delete (array : Octets) (index : Option (List Expr))

inductive Pattern where
  | always
  | holds (e : Expr)
  | range (number : Nat) (first last : Expr)

structure Function where
  params : List Octets
  body : List Statement

structure Program where
  start : List (List Statement) := []
  rules : List (Pattern × List Statement) := []
  finish : List (List Statement) := []
  functions : List (Octets × Function) := []

end CMakeHelm.Sh.Awk
