import CMakeHelm.FileSystem

namespace CMakeHelm.FileSystem

inductive Change where
  | remove (l : Location)
  | makeDirectory (l : Location)
  | write (l : Location) (content : Text.Bytes)
deriving DecidableEq, Repr

def Entry.becomes : Entry → Entry → Bool
  | .directory, .directory => true
  | .file _ _, .file _ _ => true
  | .link target, .link target' => target == target'
  | _, _ => false

def isGone (before after : FileSystem) (l : Location) : Bool :=
  match before.get? l, after.get? l with
  | some e, some e' => !Entry.becomes e e'
  | some _, none => true
  | none, _ => false

/-- Below `base`: first what has gone, each as a whole, then what is new or has new content. -/
def changes (base : Location) (before after : FileSystem) : List Change :=
  let within (e : Location × Entry) : Bool := base.isPrefixOf e.1 && e.1 ≠ base
  let gone := (before.entries.filter within).filter fun e => before.isGone after e.1
  let whole := gone.filter fun e => !(before.isGone after e.1.dropLast)
  whole.map (.remove ·.1) ++ (after.entries.filter within).filterMap fun (l, e) =>
    match e with
    | .directory => if before.get? l = some .directory then none else some (.makeDirectory l)
    | .file content _ =>
      match before.get? l with
      | some (.file old _) => if old = content then none else some (.write l content)
      | _ => some (.write l content)
    | .link _ => none

end CMakeHelm.FileSystem
