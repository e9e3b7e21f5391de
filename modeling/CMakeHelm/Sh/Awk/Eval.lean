import CMakeHelm.Sh.Awk.Parser
import CMakeHelm.Sh.Awk.State

namespace CMakeHelm.Sh.Awk

namespace Eval

open Run (print)

def number (x : Float) : Value := .number x

def ofNat (n : Nat) : Value := .number (Float.ofNat n)

def truth (b : Bool) : Value := .number (if b then 1 else 0)

def random : Eval Float := do
  let next := ((← get).random * 1103515245 + 12345) % 2147483648
  modify ({ · with random := next })
  return Float.ofNat next / 2147483648.0

def substring (cs : Octets) (start : Float) (count : Option Float) : Octets :=
  let first := truncated (start + 0.5).floor
  let stop : Int := match count with
    | some k => first + truncated (k + 0.5).floor
    | none => cs.length + 1
  let stop := min stop (cs.length + 1)
  let first := max first 1
  (cs.drop (first - 1).toNat).take (stop - first).toNat

def indexIn (part : Octets) : Nat → Octets → Nat
  | _, [] => 0
  | k, c :: cs => if part.isPrefixOf (c :: cs) then k else indexIn part (k + 1) cs

def formattedWith (format : Octets) (values : List Value) : Eval (Octets × Bool) := do
  let enough := operandCount (format.length + 1) format ≤ values.length
  if !enough then
    lower (Tool.grumble "awk" ("run time error: not enough arguments passed to printf(\"".toList ++ format ++ "\")".toList))
    modify ({ · with status := 2 })
  return (formatted (format.length + 1) format values, enough)

mutual

def eval : Nat → Expr → Eval Value
  | 0, _ => exhausted
  | n + 1, e => do
    match e with
    | .number x => return .number x
    | .text cs => return .text cs
    | .regex r => return truth (r.occursIn (← text (← get).record))
    | .name x => variable_ x
    | .item a index => element (← arrayOf a) (← key n index)
    | .field e =>
      let k := truncated (← eval n e).toNumber
      let env ← get
      return if k ≤ 0 then env.record else (env.fields[k.toNat - 1]?).getD .unset
    | .assign target value =>
      let v ← eval n value
      store n target v
      return v
    | .update op target value =>
      let y ← eval n value
      let x ← eval n target
      let v := number (op.apply x.toNumber y.toNumber)
      store n target v
      return v
    | .step target up before =>
      let x := (← eval n target).toNumber
      let y := if up then x + 1 else x - 1
      store n target (number y)
      return number (if before then y else x)
    | .choice c a b => if (← eval n c).isTrue then eval n a else eval n b
    | .both a b =>
      if (← eval n a).isTrue then return truth (← eval n b).isTrue
      return truth false
    | .either a b =>
      if (← eval n a).isTrue then return truth true
      return truth (← eval n b).isTrue
    | .not e => return truth !(← eval n e).isTrue
    | .has index a =>
      let k ← key n index
      return truth ((← elements (← arrayOf a)).lookup k).isSome
    | .matching e pattern =>
      let t ← text (← eval n e)
      return truth ((← regexFor n pattern).any fun r => r.occursIn t)
    | .compare op a b =>
      let x ← eval n a
      let y ← eval n b
      return truth (op.holds (x.compare (← globalText "CONVFMT") y))
    | .join a b =>
      let x ← text (← eval n a)
      return .text (x ++ (← text (← eval n b)))
    | .compute op a b =>
      let x ← eval n a
      let y ← eval n b
      return number (op.apply x.toNumber y.toNumber)
    | .negate e => return number (-(← eval n e).toNumber)
    | .numeric e => return number (← eval n e).toNumber
    | .group [e] => eval n e
    | .group es => return .text (← key n es)
    | .call f args => callFunction n f args
    | .builtin f args => callBuiltin n f args
    | .getline target source => getline n target source

def key : Nat → List Expr → Eval Octets
  | 0, _ => exhausted
  | n + 1, index => do
    let parts ← index.mapM fun e => do text (← eval n e)
    match parts with
    | [k] => return k
    | parts => return (parts.intersperse (← globalText "SUBSEP")).flatten

def store : Nat → Expr → Value → Eval Unit
  | 0, _, _ => exhausted
  | n + 1, target, v => do
    match target with
    | .name x => setVariable x v
    | .item a index => setElement (← arrayOf a) (← key n index) v
    | .field e => setField (truncated (← eval n e).toNumber).toNat v
    | .group [e] => store n e v
    | _ => return

def regexFor : Nat → Expr → Eval (Option Regex)
  | 0, _ => exhausted
  | n + 1, e => do
    match e with
    | .regex r => return some r
    | e => return regexOf (← text (← eval n e))

def getline : Nat → Option Expr → Source → Eval Value
  | 0, _, _ => exhausted
  | n + 1, target, source => do
    let take (record : Octets) : Eval Value := do
      match target with
      | some t => store n t (.given record)
      | none => setRecord record
      return number 1
    match source with
    | .input =>
      match ← nextRecord 100000 with
      | some record => take record
      | none => return number 0
    | .file e =>
      match ← recordFrom (← text (← eval n e)) false with
      | .ok (some record) => take record
      | .ok none => return number 0
      | .error _ => return number (-1)
    | .command e =>
      match ← recordFrom (← text (← eval n e)) true with
      | .ok (some record) =>
        bump "NR"
        take record
      | _ => return number 0

def callFunction : Nat → Octets → List Expr → Eval Value
  | 0, _, _ => exhausted
  | n + 1, f, args => do
    match (← get).program.functions.lookup f with
    | none =>
      lower (Tool.grumble "awk" ("function ".toList ++ f ++ " never defined".toList))
      modify ({ · with status := 2 })
      throw .exit
    | some g =>
      let slots ← args.mapM fun e => do
        match e with
        | .name x =>
          match ← slot? x with
          | some (.value .unset) | none =>
            if x = "NF".toList then return Slot.value (← variable_ x)
            return Slot.array (← arrayOf x)
          | some s => return s
        | e => return Slot.value (← eval n e)
      let before := (← get).locals
      let missing := (g.params.drop slots.length).map fun x => (x, Slot.value .unset)
      modify ({ · with locals := g.params.zip slots ++ missing })
      let result ← tryCatch (do runAll n g.body; pure Value.unset) fun j =>
        match j with
        | .return_ v => pure v
        | j => throw j
      modify ({ · with locals := before })
      return result

def callBuiltin : Nat → String → List Expr → Eval Value
  | 0, _, _ => exhausted
  | n + 1, f, args => do
    let value (k : Nat) : Eval Value := match args[k]? with
      | some e => eval n e
      | none => pure .unset
    let float (k : Nat) : Eval Float := do return (← value k).toNumber
    let string (k : Nat) : Eval Octets := do text (← value k)
    match f with
    | "length" =>
      match args with
      | [] => return ofNat (← text (← get).record).length
      | .name x :: _ =>
        match ← slot? x with
        | some (.array id) => return ofNat (← elements id).length
        | _ => return ofNat (← string 0).length
      | _ => return ofNat (← string 0).length
    | "substr" =>
      let cs ← string 0
      let start ← float 1
      let count ← if args.length > 2 then some <$> float 2 else pure none
      return .text (substring cs start count)
    | "index" =>
      let cs ← string 0
      let part ← string 1
      return ofNat (if part.isEmpty then 0 else indexIn part 1 cs)
    | "split" =>
      let cs ← string 0
      let parts : List Octets ← match args[2]? with
        | some (Expr.regex r) => pure (if cs.isEmpty then [] else splitAt r cs.toArray (cs.length + 1) 0)
        | some e => do pure (fieldsOf (← text (← eval n e)) cs)
        | none => do pure (fieldsOf (← globalText "FS") cs)
      match args[1]? with
      | some (Expr.name a) =>
        setElements (← arrayOf a) (parts.zipIdx.map fun (p, i) => (decimal (i + 1), Value.given p))
        return ofNat parts.length
      | _ => return ofNat parts.length
    | "sub" | "gsub" =>
      match args with
      | pattern :: _ =>
        let r? ← regexFor n pattern
        let new ← string 1
        let target := (args[2]?).getD (.field (.number 0))
        let cs ← text (← eval n target)
        match r? with
        | some r =>
          let (cs, count) := substitute r new (f = "gsub") cs
          if count > 0 then store n target (.text cs)
          return ofNat count
        | none => return number 0
      | [] => return number 0
    | "match" =>
      let cs ← string 0
      let r? ← match args[1]? with
        | some e => regexFor n e
        | none => pure none
      match r?.bind fun r => r.find? cs.toArray 0 with
      | some m =>
        setGlobal "RSTART" (ofNat (m.start + 1))
        setGlobal "RLENGTH" (ofNat (m.stop - m.start))
        return ofNat (m.start + 1)
      | none =>
        setGlobal "RSTART" (number 0)
        setGlobal "RLENGTH" (number (-1))
        return number 0
    | "sprintf" =>
      let values ← args.mapM (eval n)
      match values with
      | format :: values =>
        let (out, fine) ← formattedWith (← text format) values
        if !fine then throw .exit
        return .text out
      | [] => return .text []
    | "tolower" => return .text ((← string 0).map Char.toLower)
    | "toupper" => return .text ((← string 0).map Char.toUpper)
    | "sin" => return number (← float 0).sin
    | "cos" => return number (← float 0).cos
    | "atan2" => return number (Float.atan2 (← float 0) (← float 1))
    | "exp" => return number (← float 0).exp
    | "log" => return number (← float 0).log
    | "sqrt" => return number (← float 0).sqrt
    | "int" =>
      let x ← float 0
      return number (if x < 0 then x.ceil else x.floor)
    | "rand" => return number (← random)
    | "srand" =>
      let before := (← get).seed
      let seed ← if args.isEmpty then pure 1 else do pure (truncated (← float 0)).natAbs
      modify ({ · with seed, random := seed })
      return ofNat before
    | "system" =>
      let command ← string 0
      flushFiles
      let l := (← get).launch
      match ← lower (l.run l.vars ["sh".toList, "-c".toList, command]) with
      | .ok status => return number (Float.ofInt status)
      | .error _ => return number 127
    | "close" => return number (Float.ofInt (← close (← string 0)))
    | "fflush" =>
      flushFiles
      return number 0
    | _ => return .unset

def output : Nat → Sink → Octets → Eval Unit
  | 0, _, _ => exhausted
  | n + 1, sink, content => do
    match sink with
    | .output => lower (print content)
    | .file e => emit (← text (← eval n e)) content false false
    | .append e => emit (← text (← eval n e)) content false true
    | .command e => emit (← text (← eval n e)) content true false

def runAll : Nat → List Statement → Eval Unit
  | 0, _ => exhausted
  | _, [] => return
  | n + 1, s :: ss => do
    run n s
    runAll n ss

def turn : Nat → List Statement → Eval Bool
  | 0, _ => exhausted
  | n + 1, body =>
    tryCatch (do runAll n body; pure true) fun j =>
      match j with
      | .leave => pure false
      | .again => pure true
      | j => throw j

def repeat_ : Nat → Option Expr → (step body : List Statement) → Eval Unit
  | 0, _, _, _ => exhausted
  | n + 1, c, step, body => do
    let goesOn ← match c with
      | some c => do pure (← eval n c).isTrue
      | none => pure true
    if goesOn then
      if ← turn n body then
        runAll n step
        repeat_ n c step body

def run : Nat → Statement → Eval Unit
  | 0, _ => exhausted
  | n + 1, s => do
    match s with
    | .expr e => let _ ← eval n e
    | .print es sink =>
      let format ← globalText "OFMT"
      let texts ← match es with
        | [] => do pure [(← text (← get).record)]
        | es => es.mapM fun e => do return (← eval n e).toText format
      let separator ← globalText "OFS"
      let ending ← globalText "ORS"
      output n sink ((texts.intersperse separator).flatten ++ ending)
    | .printf es sink =>
      match ← es.mapM (eval n) with
      | format :: values =>
        let (out, fine) ← formattedWith (← text format) values
        output n sink out
        if !fine then throw .exit
      | [] => return
    | .branch c yes no => if (← eval n c).isTrue then runAll n yes else runAll n no
    | .loop c body => repeat_ n (some c) [] body
    | .loopAfter body c => if ← turn n body then repeat_ n (some c) [] body
    | .count start c step body =>
      runAll n start
      repeat_ n c step body
    | .each x a body =>
      let id ← arrayOf a
      overKeys n x id body ((← elements id).map (·.1))
    | .next => throw .next
    | .nextFile => throw .nextFile
    | .exit e =>
      if let some e := e then
        let status := truncated (← eval n e).toNumber
        modify ({ · with status })
      throw .exit
    | .leave => throw .leave
    | .again => throw .again
    | .return_ e =>
      let v ← match e with
        | some e => eval n e
        | none => pure .unset
      throw (.return_ v)
    | .delete a none => setElements (← arrayOf a) []
    | .delete a (some index) =>
      let id ← arrayOf a
      let k ← key n index
      setElements id ((← elements id).filter fun e => e.1 ≠ k)

def overKeys : Nat → Octets → Nat → List Statement → List Octets → Eval Unit
  | 0, _, _, _, _ => exhausted
  | _, _, _, _, [] => return
  | n + 1, x, id, body, k :: ks => do
    if ((← elements id).lookup k).isSome then
      setVariable x (.given k)
      if ← turn n body then overKeys n x id body ks
    else overKeys n x id body ks

end

def depth : Nat := 100000000

def applies (p : Pattern) : Eval Bool := do
  match p with
  | .always => return true
  | .holds e => return (← eval depth e).isTrue
  | .range k first last =>
    let begun := (← get).open_.contains k
    if !begun ∧ !(← eval depth first).isTrue then return false
    let ends : Bool := (← eval depth last).isTrue
    modify fun env => { env with open_ := if ends then env.open_.erase k else if begun then env.open_ else k :: env.open_ }
    return true

def applyRules (rules : List (Pattern × List Statement)) : Eval Unit :=
  rules.forM fun (p, body) => do if ← applies p then runAll depth body

def overRecords : Nat → List (Pattern × List Statement) → Eval Unit
  | 0, _ => exhausted
  | n + 1, rules => do
    match ← nextRecord 100000 with
    | none => return
    | some record =>
      setRecord record
      tryCatch (applyRules rules) fun j =>
        match j with
        | .next => pure ()
        | .nextFile => modify ({ · with current := none })
        | j => throw j
      overRecords n rules

def part (body : Eval Unit) : Eval Bool :=
  tryCatch (do body; pure true) fun j =>
    match j with
    | .exit => pure false
    | _ => pure true

def whole : Eval Unit := do
  let p := (← get).program
  let started ← part (p.start.forM (runAll depth))
  let readsInput := !p.rules.isEmpty || !p.finish.isEmpty
  let failed := (← get).status = 2 && !started
  if started ∧ readsInput then
    let _ ← part (overRecords depth p.rules)
  if readsInput ∧ !failed then
    let _ ← part (p.finish.forM (runAll depth))
  closeAll

end Eval

open Tool

def settings (args : List Octets) (launch : Launch) (program : Program) (separator : Octets) : Env :=
  let words := ("awk".toList :: args).zipIdx.map fun (a, i) => (decimal i, Value.given a)
  let environment := launch.vars.map fun (name, v) => (name, Value.given (v.value.getD []))
  let values : List (String × Value) :=
    [("FS", .text separator), ("OFS", .text [' ']), ("ORS", .text ['\n']), ("RS", .text ['\n']),
      ("SUBSEP", .text ['\x1c']), ("CONVFMT", .text "%.6g".toList), ("OFMT", .text "%.6g".toList), ("NR", .number 0),
      ("FNR", .number 0), ("FILENAME", .text []), ("RSTART", .number 0), ("RLENGTH", .number (-1)),
      ("ARGC", .number (Float.ofNat words.length))]
  { program, launch
    globals := values.map (fun (x, v) => (x.toList, Slot.value v)) ++
      [("ARGV".toList, .array 0), ("ENVIRON".toList, .array 1)]
    arrays := #[words, environment] }

def unescaped (cs : Octets) : Octets := ((quoted (cs.length + 2) (cs ++ ['"'])).map (·.1)).getD cs

def awk (launch : Launch) (args : List Octets) : Run Int := do
  let r := leadingRequest ['F', 'v', 'f', 'W'] [("version", 'V'), ("field-separator", 'F'), ("assign", 'v'), ("file", 'f')] args
  let files := r.options.filterMap fun o => if o.1 = 'f' then some o.2 else none
  let texts ← files.mapM fun f => source "awk" f
  if texts.any Option.isNone then return 2
  let (program?, operands) := match files, r.named with
    | [], program :: operands => (some program, operands)
    | [], [] => (none, [])
    | _, operands => (some ((texts.filterMap fun t => t).intersperse ['\n']).flatten, operands)
  match program? with
  | none =>
    let _ ← Run.write 2 "usage: awk [-F fs][-v var=value][prog | -f progfile][file ...]\n".toList
    return 2
  | some text =>
    match parse text with
    | none =>
      grumble "awk" "line 1: syntax error at or near end of line".toList
      return 2
    | some program =>
      let separator := ((r.value? 'F').map unescaped).getD [' ']
      let definitions := r.options.filterMap fun o => if o.1 = 'v' then some o.2 else none
      let body : Eval Unit := do
        for d in definitions do
          let x := d.takeWhile (· ≠ '=')
          Eval.define x (d.drop (x.length + 1))
        Eval.whole
      let (_, env) ← (ExceptT.run body).run (settings operands launch program separator)
      return env.status

def table : List (String × (Launch → List Octets → Run Int)) := [("awk", awk), ("mawk", awk)]

end CMakeHelm.Sh.Awk
