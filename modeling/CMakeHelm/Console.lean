import CMakeHelm.Data
import CMakeHelm.Elapsed

namespace CMakeHelm

inductive ColorChoice where
  | auto
  | always
  | never
deriving DecidableEq, Repr

namespace ColorChoice

def name : ColorChoice → String
  | auto => "auto"
  | always => "always"
  | never => "never"

def parse? (s : String) : Option ColorChoice :=
  match s.toLower with
  | "auto" => some auto
  | "always" => some always
  | "never" => some never
  | _ => none

def parseError (s : String) : String :=
  s!"invalid color choice '{s}'; expected 'auto', 'always', or 'never'"

end ColorChoice

/-- Lines for people go to the error stream, events to standard output. -/
structure Printed where
  stdout : String := ""
  stderr : String := ""
deriving DecidableEq, Repr

def Printed.append (a b : Printed) : Printed := ⟨a.stdout ++ b.stdout, a.stderr ++ b.stderr⟩

inductive Status where
  | generating
  | building
  | running
  | finished
deriving DecidableEq, Repr

namespace Status

def name : Status → String
  | generating => "Generating"
  | building => "Building"
  | running => "Running"
  | finished => "Finished"

def color : Status → String
  | finished => "\x1b[1;32m"
  | generating | building | running => "\x1b[1;36m"

end Status

inductive Console where
  | human (quiet color : Bool)
  | json
deriving DecidableEq, Repr

namespace Console

/-- JSON goes before quiet. Without a choice colors are for terminals. -/
def ofFlags (quiet : Bool) (color : ColorChoice) (json terminal : Bool) : Console :=
  if json then .json
  else .human quiet (color == .always || (color == .auto && terminal))

variable (c : Console)

def isQuiet : Bool :=
  match c with
  | human quiet _ => quiet
  | json => false

def isJson : Bool := c == json

def paint (color text : String) : String :=
  match c with
  | human _ true => color ++ text ++ "\x1b[0m"
  | _ => text

def statusWidth : Nat := 12

def formatStatus (s : Status) : String :=
  c.paint s.color (String.ofList (List.replicate (statusWidth - s.name.length) ' ') ++ s.name)

def status (s : Status) (message : String) : Printed :=
  if c.isJson || c.isQuiet then {} else { stderr := c.formatStatus s ++ " " ++ message ++ "\n" }

def event (d : Data) : Printed := if c.isJson then { stdout := d.compact ++ "\n" } else {}

def errorEvent (message : String) : Data := .object [("reason", .text "error"), ("message", .text message)]

/-- Shown also when quiet. -/
def error (message : String) : Printed :=
  if c.isJson then c.event (errorEvent message)
  else { stderr := c.paint "\x1b[1;31m" "error" ++ ": " ++ message ++ "\n" }

def finished (message : String) (nanos : Nat) : Printed :=
  c.status .finished (message ++ " in " ++ Elapsed.display nanos)

end Console

end CMakeHelm
