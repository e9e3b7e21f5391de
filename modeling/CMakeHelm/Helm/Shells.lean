import CMakeHelm.Helm
import CMakeHelm.Programs
import CMakeHelm.Session.Shells
import CMakeHelm.Settings

namespace CMakeHelm

open Session (Shells)

def Helm.variables (s : Surroundings) : List (Sh.Octets × Sh.Variable) :=
  Shells.environment [("PATH", s.search), ("HOME", s.home)]

namespace Helm

def ofSettings (fs : FileSystem) (around : Surroundings) (root : Path) (s : Settings) : Helm Shells where
  project :=
    { Project.load fs root (s.buildDir root) .unix with cmake := fs.cmakeProgram around s.build.cmake }
  session := { name := s.sessionName, host := { program := s.shellProgram, fs, vars := Helm.variables around } }
  configuration := s.configuration?.getD .debug
  architecture := s.architecture?.getD .x64
  debugger := s.debuggerKind

variable (h : Helm Shells)

def files : FileSystem := h.session.host.fs

def withFiles (fs : FileSystem) : Helm Shells :=
  { h with session := { h.session with host := { h.session.host with fs } } }

def shown : List (List Char) := h.session.host.shown

def act (a : Action) : Helm Shells × Answer :=
  match h.plan h.files a with
  | (fs, .ok plan) => (h.withFiles fs).perform Shells.host plan
  | (fs, .error e) => (h.withFiles fs, some (.error e))

end Helm

end CMakeHelm
