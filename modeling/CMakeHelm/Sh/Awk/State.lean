import CMakeHelm.Sh.Awk.Value
import CMakeHelm.Sh.Launcher

namespace CMakeHelm.Sh.Awk

/-- What a name stands for. An array has a number, by which functions share it. -/
inductive Slot where
  | value (v : Value)
  | array (id : Nat)

structure Outlet where
  name : Octets
  isCommand : Bool
  pieces : List Octets

structure Env where
  program : Program
  launch : Launch
  globals : List (Octets × Slot)
  locals : List (Octets × Slot) := []
  arrays : Array (List (Octets × Value)) := #[]
  record : Value := .unset
  fields : Array Value := #[]
  word : Nat := 1
  hasFile : Bool := false
  current : Option Octets := none
  inlets : List (Octets × Octets) := []
  outlets : List Outlet := []
  open_ : List Nat := []
  status : Int := 0
  seed : Nat := 0
  random : Nat := 12345

inductive Jump where
  | next
  | nextFile
  | exit
  | leave
  | again
  | return_ (v : Value)

abbrev Eval := ExceptT Jump (StateT Env Run)

namespace Eval

open Run (print write readAll)

def lower {α : Type} (body : Run α) : Eval α := (liftM body : StateT Env Run α)

def exhausted {α : Type} : Eval α := lower (throw Stop.exhausted)

def slot? (x : Octets) : Eval (Option Slot) := do
  let env ← get
  return (env.locals.lookup x).or (env.globals.lookup x)

def put (x : Octets) (s : Slot) (all : List (Octets × Slot)) : List (Octets × Slot) :=
  if (all.lookup x).isSome then all.map fun e => if e.1 = x then (x, s) else e else (x, s) :: all

def setSlot (x : Octets) (s : Slot) : Eval Unit :=
  modify fun env =>
    if (env.locals.lookup x).isSome then { env with locals := put x s env.locals }
    else { env with globals := put x s env.globals }

def global (name : String) : Eval Value := do
  match (← get).globals.lookup name.toList with
  | some (.value v) => return v
  | _ => return .unset

def setGlobal (name : String) (v : Value) : Eval Unit :=
  modify fun env => { env with globals := put name.toList (.value v) env.globals }

def text (v : Value) : Eval Octets := do
  match v with
  | .number x =>
    if isWhole x then return integer (truncated x)
    match ← global "CONVFMT" with
    | .text f | .given f => return v.toText f
    | _ => return v.toText "%.6g".toList
  | v => return v.toText []

def globalText (name : String) : Eval Octets := do text (← global name)

def arrayOf (x : Octets) : Eval Nat := do
  match ← slot? x with
  | some (.array id) => return id
  | _ =>
    let id := (← get).arrays.size
    modify fun env => { env with arrays := env.arrays.push [] }
    setSlot x (.array id)
    return id

def elements (id : Nat) : Eval (List (Octets × Value)) := return (← get).arrays.getD id []

def setElements (id : Nat) (es : List (Octets × Value)) : Eval Unit :=
  modify fun env => { env with arrays := env.arrays.setIfInBounds id es }

/-- A member that is asked for comes into being. -/
def element (id : Nat) (key : Octets) : Eval Value := do
  let es ← elements id
  match es.lookup key with
  | some v => return v
  | none =>
    setElements id (es ++ [(key, .unset)])
    return .unset

def setElement (id : Nat) (key : Octets) (v : Value) : Eval Unit := do
  let es ← elements id
  setElements id (if (es.lookup key).isSome then es.map fun e => if e.1 = key then (key, v) else e else es ++ [(key, v)])

def pieces (record : Octets) : Eval (List Octets) := do
  let separator ← globalText "FS"
  let paragraphs := (← globalText "RS").isEmpty
  if paragraphs ∧ separator ≠ [' '] then
    return (Text.split (· == '\n') record).flatMap (fieldsOf separator)
  return fieldsOf separator record

def setRecord (record : Octets) : Eval Unit := do
  let fields ← pieces record
  modify fun env => { env with record := .given record, fields := (fields.map Value.given).toArray }

def rebuild : Eval Unit := do
  let separator ← globalText "OFS"
  let fields ← (← get).fields.toList.mapM text
  modify fun env => { env with record := .text (fields.intersperse separator).flatten }

def setField (k : Nat) (v : Value) : Eval Unit := do
  if k = 0 then setRecord (← text v)
  else
    modify fun env =>
      let fields := env.fields ++ Array.replicate (k - env.fields.size) (Value.text [])
      { env with fields := fields.setIfInBounds (k - 1) v }
    rebuild

def setFieldCount (k : Nat) : Eval Unit := do
  modify fun env => { env with fields := env.fields.extract 0 k ++ Array.replicate (k - env.fields.size) (Value.text []) }
  rebuild

def variable_ (x : Octets) : Eval Value := do
  if x = "NF".toList then return .number (Float.ofNat (← get).fields.size)
  match ← slot? x with
  | some (.value v) => return v
  | _ => return .unset

def setVariable (x : Octets) (v : Value) : Eval Unit := do
  if x = "NF".toList then setFieldCount (truncated v.toNumber).toNat else setSlot x (.value v)

def define (x given : Octets) : Eval Unit :=
  let value := ((quoted (given.length + 2) (given ++ ['"'])).map (·.1)).getD given
  setVariable x (.given value)

def flush (o : Outlet) : Eval Int := do
  let content := o.pieces.reverse.flatten
  if o.isCommand then
    let l := (← get).launch
    lower do
      let handle ← Run.addStream (.pipe content [])
      match ← Run.withFds [(0, some handle)] (l.run l.vars ["sh".toList, "-c".toList, o.name]) with
      | .ok status => return status
      | .error _ => return 127
  else
    lower do
      let fs ← Run.files
      let path := Test.pathOf o.name
      let before := (fs.read path).toOption.getD []
      if let .ok fs := fs.write path (before ++ bytesOf content) (fs.isExecutable path) then
        Run.setFiles fs
        if let .ok (l, _) := fs.locate path then Run.stamp l
      return 0

def flushFiles : Eval Unit := do
  let outlets := (← get).outlets
  for o in outlets do
    if !o.isCommand then let _ ← flush o
  modify fun env => { env with outlets := env.outlets.map fun o => if o.isCommand then o else { o with pieces := [] } }

def close (name : Octets) : Eval Int := do
  let env ← get
  match env.outlets.find? fun o => o.name = name with
  | some o =>
    set { env with outlets := env.outlets.filter fun (p : Outlet) => p.name ≠ name }
    flush o
  | none =>
    if (env.inlets.lookup name).isSome then
      set { env with inlets := env.inlets.filter fun i => i.1 ≠ name }
      return 0
    return -1

def closeAll : Eval Unit := do
  let env ← get
  for o in env.outlets do
    let _ ← close o.name

def emit (name content : Octets) (isCommand appends : Bool) : Eval Unit := do
  let env ← get
  if !isCommand ∧ (name = "/dev/stdout".toList ∨ name = ['-']) then lower (print content)
  else if !isCommand ∧ name = "/dev/stderr".toList then
    let _ ← lower (write 2 content)
  else if env.outlets.any fun o => o.name = name then
    let add (o : Outlet) : Outlet := if o.name = name then { o with pieces := content :: o.pieces } else o
    set { env with outlets := env.outlets.map add }
  else
    if !isCommand ∧ !appends then
      let done ← lower do
        let fs ← Run.files
        let path := Test.pathOf name
        match fs.write path [] (fs.isExecutable path) with
        | .ok fs =>
          Run.setFiles fs
          return true
        | .error e =>
          Tool.grumble "awk" ("cannot open ".toList ++ '"' :: name ++ "\" (".toList ++ e.text.toList ++ [')'])
          return false
      if !done then
        modify ({ · with status := 2 })
        throw .exit
    modify fun env => { env with outlets := env.outlets ++ [⟨name, isCommand, [content]⟩] }

def takeRecord (separator text : Octets) : Option (Octets × Octets) :=
  if text.isEmpty then none
  else
    match separator with
    | [] =>
      let text := text.dropWhile (· = '\n')
      if text.isEmpty then none else some (paragraph (text.length + 1) text)
    | [c] =>
      let record := text.takeWhile (· ≠ c)
      some (record, (text.drop record.length).tail)
    | cs =>
      match (regexOf cs).bind fun r => r.find? text.toArray 0 with
      | some m =>
        if m.stop = m.start then some (text, []) else
          let rest := text.drop m.stop
          some (text.take m.start, if rest = ['\n'] then [] else rest)
      | none => some (if text.getLast? = some '\n' then text.dropLast else text, [])
where
  paragraph : Nat → Octets → Octets × Octets
    | 0, text => (text, [])
    | n + 1, text =>
      match text with
      | '\n' :: '\n' :: rest => ([], rest.dropWhile (· = '\n'))
      | ['\n'] => ([], [])
      | c :: rest => let (record, rest) := paragraph n rest; (c :: record, rest)
      | [] => ([], [])

def bump (name : String) : Eval Unit := do setGlobal name (.number ((← global name).toNumber + 1))

def isDefinition (word : Octets) : Bool :=
  let name := word.takeWhile fun c => isNameStart c || c.isDigit
  name.head?.any isNameStart && (word.drop name.length).head? = some '='

def openNext : Nat → Eval Bool
  | 0 => return false
  | n + 1 => do
    let env ← get
    let count := (truncated (← global "ARGC").toNumber).toNat
    if env.word ≥ count then
      if env.hasFile then return false
      let text ← lower (readAll 0)
      modify ({ · with hasFile := true, current := some text })
      return true
    let key := decimal env.word
    modify ({ · with word := env.word + 1 })
    let given ← match ← slot? "ARGV".toList with
      | some (.array id) => do pure ((← elements id).lookup key)
      | _ => pure none
    let word ← text (given.getD .unset)
    if word.isEmpty then openNext n
    else if isDefinition word then
      let x := word.takeWhile (· ≠ '=')
      define x (word.drop (x.length + 1))
      openNext n
    else
      modify ({ · with hasFile := true })
      let content? ← if word = ['-'] then some <$> lower (readAll 0) else lower do
        match ← Run.readNamed word with
        | .ok content => return some content
        | .error e =>
          Tool.grumble "awk" ("cannot open ".toList ++ '"' :: word ++ "\" (".toList ++ e.text.toList ++ [')'])
          return none
      match content? with
      | some content =>
        setGlobal "FILENAME" (.given word)
        setGlobal "FNR" (.number 0)
        modify ({ · with current := some content })
        return true
      | none =>
        modify ({ · with status := 2 })
        throw .exit

def nextRecord : Nat → Eval (Option Octets)
  | 0 => return none
  | n + 1 => do
    let separator ← globalText "RS"
    match (← get).current with
    | some content =>
      match takeRecord separator content with
      | some (record, rest) =>
        modify ({ · with current := some rest })
        bump "NR"
        bump "FNR"
        return some record
      | none =>
        modify ({ · with current := none })
        if ← openNext 10000 then nextRecord n else return none
    | none => if ← openNext 10000 then nextRecord n else return none

def recordFrom (name : Octets) (isCommand : Bool) : Eval (Except Fault (Option Octets)) := do
  let env ← get
  let content : Except Fault Octets ← match env.inlets.lookup name with
    | some rest => pure (.ok rest)
    | none =>
      if isCommand then
        flushFiles
        let l := env.launch
        lower do
          let handle ← Run.addStream (.pipe [] [])
          let _ ← Run.withFds [(1, some handle)] (l.run l.vars ["sh".toList, "-c".toList, name])
          match (← get).streams[handle]? with
          | some (.pipe front back) => return .ok (front ++ back.reverse)
          | _ => return .ok []
      else if name = ['-'] then do pure (.ok (← lower (readAll 0)))
      else lower (Run.readNamed name)
  match content with
  | .error e => return .error e
  | .ok content =>
    let separator ← globalText "RS"
    let (record, rest) := match takeRecord separator content with
      | some (record, rest) => (some record, rest)
      | none => (none, [])
    modify fun env => { env with inlets := (name, rest) :: env.inlets.filter fun i => i.1 ≠ name }
    return .ok record

end Eval

end CMakeHelm.Sh.Awk
