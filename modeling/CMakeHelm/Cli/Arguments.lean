import CMakeHelm.Console
import CMakeHelm.Target

namespace CMakeHelm.Cli

inductive Flag where
  | verbose
  | quiet
  | root
  | release
  | arch
  | color
  | json
  | version
  | onlyRun
  | target
  | debugger
deriving DecidableEq, Repr

namespace Flag

def all : List Flag :=
  [verbose, quiet, root, release, arch, color, json, version, onlyRun, target, debugger]

def long : Flag → String
  | verbose => "verbose"
  | quiet => "quiet"
  | root => "root"
  | release => "release"
  | arch => "arch"
  | color => "color"
  | json => "json"
  | version => "version"
  | onlyRun => "run"
  | target => "target"
  | debugger => "debugger"

def letter? : Flag → Option Char
  | verbose => some 'v'
  | quiet => some 'q'
  | version => some 'V'
  | target => some 't'
  | root | release | arch | color | json | onlyRun | debugger => none

def takesValue : Flag → Bool
  | root | arch | color | target | debugger => true
  | verbose | quiet | release | json | version | onlyRun => false

def admits (value : String) : Flag → Bool
  | root => value ≠ ""
  | arch => (Architecture.parse? value).isSome
  | color => (ColorChoice.parse? value).isSome
  | _ => true

def isGlobal : Flag → Bool
  | verbose | quiet | root | release | arch | color | json => true
  | version | onlyRun | target | debugger => false

end Flag

inductive Verb where
  | targets
  | generate
  | build
  | run
deriving DecidableEq, Repr

namespace Verb

def all : List Verb := [targets, generate, build, run]

def name : Verb → String
  | targets => "targets"
  | generate => "generate"
  | build => "build"
  | run => "run"

def ofName? (s : String) : Option Verb := all.find? (·.name = s)

def takes (v : Verb) (f : Flag) : Bool :=
  f.isGlobal ||
    match v with
    | targets => f == .onlyRun
    | generate => false
    | build => f == .target
    | run => f == .target || f == .debugger

end Verb

abbrev Given := List (Flag × String)

def Given.add (given : Given) (f : Flag) (value : String) : Option Given :=
  if (given.lookup f).isSome ∨ !f.admits value then none else some (given ++ [(f, value)])

def dropEquals : List Char → List Char
  | '=' :: cs => cs
  | cs => cs

/-- Letters behind one dash. A letter that takes a value takes the rest of the word, or waits for
the next word. -/
def letters (legal : Flag → Bool) (given : Given) : List Char → Option (Given × Option Flag)
  | [] => some (given, none)
  | c :: cs =>
    match (Flag.all.filter legal).find? (·.letter? = some c) with
    | none => none
    | some .version => (given.add .version "").map (·, none)
    | some f =>
      if !f.takesValue then (given.add f "").bind fun given => letters legal given cs
      else if cs = [] then some (given, some f)
      else (given.add f (String.ofList (dropEquals cs))).map (·, none)

def word (legal : Flag → Bool) (given : Given) (cs : List Char) : Option (Given × Option Flag) :=
  match cs with
  | '-' :: '-' :: cs =>
    let name := cs.takeWhile (· ≠ '=')
    match (Flag.all.filter legal).find? (·.long.toList = name), cs.drop name.length with
    | none, _ => none
    | some f, [] => if f.takesValue then some (given, some f) else (given.add f "").map (·, none)
    | some f, _ :: value =>
      if f.takesValue then (given.add f (String.ofList value)).map (·, none) else none
  | '-' :: c :: cs => letters legal given (c :: cs)
  | _ => none

def isFlagWord (s : String) : Bool := s.startsWith "-" && s ≠ "-"

inductive Reading where
  | version
  | flags (given : Given) (rest : Option (Verb × List String))

def read (legal : Flag → Bool) (verbs : Bool) (given : Given) : List String → Option Reading
  | [] => some (.flags given none)
  | arg :: rest =>
    match if verbs then Verb.ofName? arg else none with
    | some verb => some (.flags given (some (verb, rest)))
    | none =>
      if arg = "--" then if rest = [] then some (.flags given none) else none
      else
        match word legal given arg.toList with
        | none => none
        | some (given, none) =>
          if (given.lookup .version).isSome then some .version else read legal verbs given rest
        | some (given, some f) =>
          match rest with
          | [] => none
          | value :: rest =>
            if isFlagWord value then none
            else
              match given.add f value with
              | none => none
              | some given => read legal verbs given rest

inductive Request where
  | targets (onlyRun : Bool)
  | generate
  | build (target : String)
  | run (target : String) (debugger : Option String)
deriving DecidableEq, Repr

structure Invocation where
  request : Request
  quiet : Bool := false
  json : Bool := false
  color : ColorChoice := .auto
  root : Option Path := none
  release : Bool := false
  arch : Option Architecture := none
deriving DecidableEq, Repr

inductive Parsed where
  | version
  | invocation (i : Invocation)
deriving DecidableEq, Repr

def request? (verb : Verb) (own : Given) : Option Request :=
  match verb with
  | .targets => some (.targets (own.lookup .onlyRun).isSome)
  | .generate => some .generate
  | .build => some (.build ((own.lookup .target).getD "all"))
  | .run => (own.lookup .target).map fun target => .run target (own.lookup .debugger)

/-- What the words after the program's name ask for, if they ask for something. `rootVariable` is
the root that the environment names; it must be one, unless both sides of the command name
another. -/
def parse? (rootVariable : Option String) (args : List String) : Option Parsed := do
  match ← read (fun f => f.isGlobal || f == .version) true [] args with
  | .version => return .version
  | .flags _ none => none
  | .flags before (some (verb, words)) =>
    match ← read verb.takes false [] words with
    | .version => none
    | .flags own _ =>
      let both := (before.lookup .root).isSome ∧ (own.lookup .root).isSome
      if rootVariable = some "" ∧ !both then none
      else
        let value (f : Flag) : Option String := (own.lookup f).or (before.lookup f)
        return .invocation {
          request := ← request? verb own
          quiet := (value .quiet).isSome
          json := (value .json).isSome
          color := ((value .color).bind ColorChoice.parse?).getD .auto
          root := ((value .root).or rootVariable).map Path.ofString
          release := (value .release).isSome
          arch := (value .arch).bind Architecture.parse? }

end CMakeHelm.Cli
