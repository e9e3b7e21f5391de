import CMakeHelm.Proofs.Project.RepeatedLoad
import CMakeHelm.Proofs.Project.Descent
import CMakeHelm.Proofs.Project.Reload
import CMakeHelm.Proofs.Project.Watch
import Mathlib

namespace CMakeHelm.Project

open Descent (canonical? canonical?_eq)

variable {fs : FileSystem} {root d path path' : Path} {seen : List Location} {l : Location} {content : Text.Bytes}
variable {pending : List Pending} {mets mets' : List Met} {c : Command} {k : Key} {t : Target} {text : String}

/-- The command stands in the description file of `d`, a normal path, and this file is met. -/
structure StandsIn (fs : FileSystem) (root : Path) (mets : List Met) (d : Path) (c : Command) : Prop where
  normal : d.normalize = d
  met : .file (descriptionPath root d) ∈ mets
  scanned : ∃ text, fs.readText (descriptionPath root d) = .ok text ∧ c ∈ Command.scan text

theorem StandsIn.mono (h : StandsIn fs root mets d c) (hs : mets ⊆ mets') : StandsIn fs root mets' d c :=
  { h with met := hs h.met }

def linked : FileSystem where
  workDir := []
  entries :=
    [(["p".toList], .directory),
      (["p".toList, "CMakeLists.txt".toList], .file (Text.encode "add_subdirectory(lib)".toList) false),
      (["p".toList, "lib".toList], .link (Path.ofString "src")),
      (["p".toList, "src".toList], .directory),
      (["p".toList, "src".toList, "CMakeLists.txt".toList], .file (Text.encode "add_library(a)".toList) false)]

end CMakeHelm.Project
