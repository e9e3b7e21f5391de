import CMakeHelm.Project.Load
import CMakeHelm.Project.Plan
import CMakeHelm.Session

namespace CMakeHelm

structure Helm (σ : Type) where
  project : Project
  session : Session σ
  configuration : Configuration := .debug
  architecture : Architecture := .x64
  selected : Option Key := none
  debugger : String := "cppdbg"

namespace Helm

inductive ActionError where
  | removal (e : Project.RemovalError)
  | artifact (e : Project.ArtifactError)
  | exec (e : Session.ExecError)
deriving DecidableEq, Repr

def ActionError.message : ActionError → String
  | removal e => e.message
  | artifact e => e.message
  | exec e => e.message

structure UnknownTarget where
  key : Key
  available : List Key
deriving DecidableEq, Repr

def UnknownTarget.message (e : UnknownTarget) : String :=
  let available := ", ".intercalate (e.available.map Key.display)
  s!"unknown target `{e.key.display}`\navailable targets: {available}"

inductive Action where
  | generate
  | build
  | run
deriving DecidableEq, Repr

/-- What an action is going to do: the commands to be sent one after another, and the descriptor
that it hands back. -/
structure Plan where
  commands : List String
  descriptor : Option Launch.Descriptor := none
deriving DecidableEq, Repr

variable {σ : Type} (h : Helm σ)

def select (k : Key) : Except UnknownTarget (Helm σ) :=
  if (h.project.find? k).isSome then .ok { h with selected := some k }
  else .error ⟨k, h.project.targets.map (·.key)⟩

def selectedTarget? : Option Target := h.selected.bind h.project.find?

/-- Load the project again; a selection that it no longer has is dropped. -/
def reload (fs : FileSystem) : Helm σ :=
  let project := h.project.reload fs
  { h with project, selected := h.selected.filter fun k => (project.find? k).isSome }

def needsReload (path : Path) : Bool := h.project.watches path

def planGenerate (fs : FileSystem) : FileSystem × Except ActionError Plan :=
  match h.project.generate fs h.configuration h.architecture with
  | (fs, .ok command) => (fs, .ok ⟨[command], none⟩)
  | (fs, .error e) => (fs, .error (.removal e))

def planBuild (fs : FileSystem) : FileSystem × Except ActionError Plan :=
  let name := (h.selectedTarget?.map (·.key.name)).getD "all"
  match h.project.build fs name h.configuration h.architecture with
  | (fs, .ok commands) => (fs, .ok ⟨commands, none⟩)
  | (fs, .error e) => (fs, .error (.removal e))

def planRun : Except ActionError Plan :=
  match h.selectedTarget? with
  | none => .error (.artifact .noTargetSelected)
  | some t =>
    match h.project.run t h.configuration h.debugger with
    | .ok (.debugger d) => .ok ⟨[], some d⟩
    | .ok (.shell command) => .ok ⟨[command], none⟩
    | .error e => .error (.artifact e)

def plan (fs : FileSystem) : Action → FileSystem × Except ActionError Plan
  | .generate => h.planGenerate fs
  | .build => h.planBuild fs
  | .run => (fs, h.planRun)

def artifact : Except Project.ArtifactError Path :=
  match h.selectedTarget? with
  | none => .error .noTargetSelected
  | some t => h.project.artifact t h.configuration

end Helm

namespace Session

/-- How far a list of commands has come. -/
inductive Progress where
  | next (commands : List String)
  | waiting (call : Nat) (commands : List String)
  | finished (result : Outcome)
deriving DecidableEq

variable {σ : Type} (H : Host σ)

/-- The next command is sent when the call before it has succeeded. -/
def Progress.step (s : Session σ) : Progress → Session σ × Progress
  | .next [] => (s, .finished .ok)
  | .next (command :: rest) => (s.exec command, .waiting s.calls.length rest)
  | .waiting i rest =>
    match s.result? i with
    | none => (s, .waiting i rest)
    | some .ok => (s, .next rest)
    | some (.error e) => (s, .finished (.error e))
  | .finished result => (s, .finished result)

def drive : Nat → Session σ → Progress → Session σ × Progress
  | 0, s, p => (s, p)
  | n + 1, s, p => let (s, p) := p.step s; drive n (s.settle H) p

/-- Send commands until one fails. If the session comes to rest before they are over, the call that
waits is dropped and there is no result. -/
def perform (s : Session σ) (commands : List String) : Session σ × Option Outcome :=
  match drive H (2 * commands.length + 1) s (.next commands) with
  | (s, .finished result) => (s, some result)
  | (s, .waiting i _) => ((s.abort i).settle H, none)
  | (s, .next _) => (s, none)

end Session

namespace Helm

variable {σ : Type} (H : Session.Host σ) (h : Helm σ)

abbrev Answer := Option (Except ActionError (Option Launch.Descriptor))

def perform (plan : Plan) : Helm σ × Answer :=
  let (session, result) := h.session.perform H plan.commands
  ({ h with session },
    result.map fun
      | .ok => .ok plan.descriptor
      | .error e => .error (.exec e))

end Helm

end CMakeHelm
