import CMakeHelm.Sh.Tool.Request

namespace CMakeHelm.Sh.Tool.Shared

open Run

def testScope : Run Test.Scope := do
  let m ← get
  let s := m.shell
  return {
    dialect := s.dialect
    fs := ← files
    stamp := fun l => (m.stamps.lookup l).getD 0
    isSet := fun name => (Shell.scope s).value (Shell.slotNamed s name) |>.isSome
    isReference := fun name => (s.vars.lookup name).any (·.reference)
    hasOption := fun name => (optionLetter? name).any (· ∈ s.options) || String.ofList name ∈ s.switches }

def test (args : List Octets) : Run Int := do
  match Test.condition (← testScope) args with
  | .ok true => return 0
  | .ok false => return 1
  | .error message =>
    complain message
    return 2

def bracket (args : List Octets) : Run Int := do
  if args.getLast? = some [']'] then test args.dropLast
  else
    complain ((if (← shell).dialect = .bash then "missing \x60]'" else "missing ]").toList)
    return 2

def formatComplaint (rules : Format.Rules) (c : Format.Complaint) : Octets :=
  match rules, c with
  | .posix, .notNumeric text => text ++ ": expected numeric value".toList
  | .posix, .notConverted text => text ++ ": not completely converted".toList
  | .posix, .outOfRange text => text ++ ": Numerical result out of range".toList
  | .posix, .invalidDirective text => text ++ ": invalid directive".toList
  | .bash, .notNumeric text | .bash, .notConverted text => text ++ ": invalid number".toList
  | .bash, .outOfRange text => "warning: ".toList ++ text ++ ": Numerical result out of range".toList
  | .bash, .invalidDirective text =>
    '\x60' :: text.getLast?.toList ++ "': invalid format character".toList
  | .tool, .notNumeric text => inQuotes text ++ ": expected a numeric value".toList
  | .tool, .notConverted text => inQuotes text ++ ": value not completely converted".toList
  | .tool, .outOfRange text => inQuotes text ++ ": Numerical result out of range".toList
  | .tool, .invalidDirective text => text ++ ": invalid conversion specification".toList

def formatStatus (rules : Format.Rules) (complaints : List Format.Complaint) : Int :=
  let isBad (c : Format.Complaint) : Bool :=
    match c with
    | .invalidDirective _ => true
    | _ => false
  let counted := if rules = .bash then complaints.filter fun c => match c with
    | .outOfRange _ => false
    | _ => true
    else complaints
  if rules = .posix ∧ complaints.any isBad then 2 else if counted.isEmpty then 0 else 1

def printf (args : List Octets) : Run Int := do
  let rules := Format.rulesOf (← shell).dialect
  let (into?, args) := match rules, args with
    | .bash, ['-', 'v'] :: name :: rest => (some name, rest)
    | .bash, ('-' :: 'v' :: c :: name) :: rest => (some (c :: name), rest)
    | _, args => (none, args)
  let args := if args.head? = some ['-', '-'] then args.tail else args
  match args with
  | [] =>
    if rules = .bash then
      let _ ← write 2 "printf: usage: printf [-v var] format [arguments]\n".toList
    else complain "usage: printf format [arg ...]".toList
    return 2
  | format :: args =>
    let p := Format.printf rules format args
    match into? with
    | some name =>
      let s ← shell
      assignWithin 8 (Shell.slotNamed s name) false p.out
    | none => print p.out
    for c in p.complaints do complain (formatComplaint rules c)
    return formatStatus rules p.complaints

def printfTool (args : List Octets) : Run Int := do
  let args := if args.head? = some ['-', '-'] then args.tail else args
  match args with
  | [] =>
    misuse "printf" "missing operand".toList
    return 1
  | format :: args =>
    let p := Format.printf .tool format args
    for c in p.complaints do grumble "printf" (formatComplaint .tool c)
    print p.out
    return formatStatus .tool p.complaints

def echo (args : List Octets) : Run Int := do
  let text ← match (← shell).dialect with
    | .posix => pure (Format.echo args)
    | .bash => do
      let args := if ← hasSwitch "xpg_echo" then "-e".toList :: args else args
      pure (Format.plainEcho .bash args)
  return if ← write 1 text then 0 else 1

def pwd (args : List Octets) : Run Int := do
  let s ← shell
  let bad? := (args.takeWhile fun a => a.head? = some '-' ∧ a ≠ ['-', '-'] ∧ a.length > 1).find? fun a =>
    a.tail.any fun c => c ≠ 'L' ∧ c ≠ 'P'
  if let some a := bad? then
    let c := (a.tail.find? fun c => c ≠ 'L' ∧ c ≠ 'P').getD '-'
    if s.dialect = .posix then complain ("Illegal option -".toList ++ [c])
    else
      complain ('-' :: c :: ": invalid option".toList)
      let _ ← write 2 "pwd: usage: pwd [-LP]\n".toList
    return 2
  let physical := (args.filter fun a => a = ['-', 'P'] ∨ a = ['-', 'L']).getLast? = some ['-', 'P']
  print ((if physical then (FileSystem.pathOf s.dir).chars else s.workPath) ++ ['\n'])
  return 0

def builtin? : String → Option (List Octets → Run Int)
  | ":" | "true" => some fun _ => return 0
  | "false" => some fun _ => return 1
  | "echo" => some echo
  | "printf" => some printf
  | "pwd" => some pwd
  | "test" => some test
  | "[" => some bracket
  | _ => none

def table : List (String × (List Octets → Run Int)) :=
  [("echo", fun args => do return if ← write 1 (Format.plainEcho .tool args) then 0 else 1), ("printf", printfTool),
    ("pwd", fun _ => pwd [['-', 'P']]), ("true", fun _ => return 0), ("false", fun _ => return 1), ("test", test),
    ("[", fun args => do
      if args.getLast? = some [']'] then test args.dropLast
      else
        grumble "[" "missing ']'".toList
        return 2)]

end CMakeHelm.Sh.Tool.Shared
