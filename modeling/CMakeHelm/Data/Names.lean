import CMakeHelm.Data
import CMakeHelm.Target

namespace CMakeHelm

def Configuration.ofData? : Data → Option Configuration :=
  Data.variant? [("debug", .debug), ("release", .release)]

def Configuration.toData : Configuration → Data
  | debug => .text "debug"
  | release => .text "release"

def Architecture.ofData? : Data → Option Architecture := Data.variant? [("x86", .x86), ("x64", .x64)]

def Architecture.toData : Architecture → Data
  | x86 => .text "x86"
  | x64 => .text "x64"

def Kind.ofData? : Data → Option Kind := Data.variant? [("build", .build), ("run", .run)]

def Kind.toData (k : Kind) : Data := .text k.name

def Key.ofData? (d : Data) : Option Key := do
  match ← d.record? ["name", "kind"] with
  | [some name, some kind] => return ⟨← name.text?, ← Kind.ofData? kind⟩
  | _ => none

def Key.toData (k : Key) : Data := .object [("name", .text k.name), ("kind", k.kind.toData)]

end CMakeHelm
