import CMakeHelm.Cli.Arguments
import CMakeHelm.Data.Names
import CMakeHelm.Helm.Shells
import CMakeHelm.Settings.Load

namespace CMakeHelm.Cli

open Session (Shells)

/-- What a run shows, in order: lines of its own, and lines that come from the session's shell. -/
inductive Piece where
  | own (p : Printed)
  | forwarded (line : List Char)
deriving DecidableEq, Repr

def Piece.printed : Piece → Printed
  | own p => p
  | forwarded line => { stdout := String.ofList line ++ "\n" }

structure Report where
  code : Nat
  pieces : List Piece := []
  fs : FileSystem

def Report.printed (r : Report) : Printed := (r.pieces.map Piece.printed).foldl Printed.append {}

def buildFile : String := "CMakeLists.txt"

def versionText : String := "cmake-pilot 0.1.0\n"

structure Context where
  fs : FileSystem
  around : Surroundings
  rootVariable : Option String := none
  terminal : Bool := false
  nanos : Nat := 0

variable (c : Context)

inductive Failure where
  | noBuildFile (root : Path)
  | noProject (start : Path)
  | unknownTarget (e : Helm.UnknownTarget)
  | artifact (e : Project.ArtifactError)
  | action (e : Helm.ActionError)
  | pathNotUtf8
deriving DecidableEq, Repr

def Failure.message : Failure → String
  | noBuildFile root => s!"no {buildFile} in {root.toString}"
  | noProject start => s!"could not find {buildFile} in {start.toString} or any parent directory"
  | unknownTarget e => e.message
  | artifact e => e.message
  | action e => e.message
  | pathNotUtf8 => "path contains invalid UTF-8 characters"

def projectRoot : Option Path → Except Failure Path
  | some root =>
    if c.fs.isFile (root.join (Path.ofString buildFile)) then .ok root else .error (.noBuildFile root)
  | none =>
    match c.fs.findOutermost? c.fs.workPath buildFile with
    | some root => .ok root
    | none => .error (.noProject c.fs.workPath)

/-- The project with its settings; what is asked for goes before what is set. -/
def openProject (i : Invocation) : Except Failure (Helm Shells) := do
  let root ← projectRoot c i.root
  let settings := Settings.layered c.fs [Settings.pathIn (Path.ofString c.around.home), Settings.pathIn root]
  let h := Helm.ofSettings c.fs c.around root settings
  return { h with
    configuration := if i.release then .release else h.configuration
    architecture := i.arch.getD h.architecture }

structure Course where
  fs : FileSystem
  pieces : List Piece := []
  failure : Option Failure := none

def targetEvent (k : Key) : Data :=
  .object [("reason", .text "target"), ("name", .text k.name), ("kind", .text k.kind.name)]

def showTarget (console : Console) (t : Target) : Printed :=
  if console.isJson then console.event (targetEvent t.key) else { stdout := t.key.display ++ "\n" }

def targets (console : Console) (h : Helm Shells) (onlyRun : Bool) : Course where
  fs := h.files
  pieces := (h.project.targets.filter fun t => !onlyRun || t.key.kind == .run).map (.own <| showTarget console ·)

/-- An action with a line before it, and what `after` makes of its descriptor when it is over. -/
def act (h : Helm Shells) (a : Helm.Action) (before : Printed)
    (after : Option Launch.Descriptor → Except Failure Printed) : Course :=
  let (h', answer) := h.act a
  let pieces := .own before :: (h'.shown.map .forwarded)
  match answer with
  | some (.ok d) =>
    match after d with
    | .ok printed => { fs := h'.files, pieces := pieces ++ [.own printed] }
    | .error e => { fs := h'.files, pieces, failure := some e }
  | some (.error e) => { fs := h'.files, pieces, failure := some (.action e) }
  | none => { fs := h'.files, pieces, failure := some (.action (.exec .sessionLost)) }

def generate (console : Console) (h : Helm Shells) : Course :=
  let what := s!"{h.project.buildDir.toString} ({h.configuration.name}, {h.architecture.name})"
  act h .generate (console.status .generating what) fun _ => .ok (console.finished "generate" c.nanos)

def build (console : Console) (h : Helm Shells) (target : String) : Course :=
  match h.select ⟨target, .build⟩ with
  | .error e => { fs := h.files, failure := some (.unknownTarget e) }
  | .ok h =>
    act h .build (console.status .building s!"{target} ({h.configuration.name})") fun _ =>
      .ok (console.finished s!"\x60{target}\x60" c.nanos)

/-- Only paths that are texts can be printed. -/
def describe (d : Launch.Descriptor) : Except Failure String :=
  match d.program.toString?, d.workingDirectory.toString? with
  | some program, some workingDirectory =>
    .ok (Data.spread [("program", program), ("workingDirectory", workingDirectory), ("debuggerKind", d.debuggerKind)])
  | _, _ => .error .pathNotUtf8

def conclude (console : Console) (target : String) : Option Launch.Descriptor → Except Failure Printed
  | some d => (describe d).map fun text => { stdout := text ++ "\n" }
  | none => .ok (console.status .finished s!"\x60{target}\x60")

def run (console : Console) (h : Helm Shells) (target : String) (debugger : Option String) : Course :=
  let h := { h with debugger := debugger.getD h.debugger }
  match h.select ⟨target, .run⟩ with
  | .error e => { fs := h.files, failure := some (.unknownTarget e) }
  | .ok h =>
    match h.artifact with
    | .error e => { fs := h.files, failure := some (.artifact e) }
    | .ok program =>
      act h .run (console.status .running program.toString) (conclude console target)

def perform (console : Console) (h : Helm Shells) : Request → Course
  | .targets onlyRun => targets console h onlyRun
  | .generate => generate c console h
  | .build target => build c console h target
  | .run target debugger => run console h target debugger

def report (args : List String) : Report :=
  match parse? c.rootVariable args with
  | none => { code := 2, fs := c.fs }
  | some .version => { code := 0, pieces := [.own { stdout := versionText }], fs := c.fs }
  | some (.invocation i) =>
    let console := Console.ofFlags i.quiet i.color i.json c.terminal
    let course := match openProject c i with
      | .ok h => perform c console h i.request
      | .error e => { fs := c.fs, failure := some e }
    match course.failure with
    | none => { code := 0, pieces := course.pieces, fs := course.fs }
    | some e =>
      { code := 1, pieces := course.pieces ++ [.own (console.error e.message)], fs := course.fs }

end CMakeHelm.Cli
