import CMakeHelm.Sh.Tool.Request

namespace CMakeHelm.Sh.Tool.Calendar

open Run

structure Moment where
  year : Int
  month : Nat
  day : Nat
  seconds : Nat
deriving DecidableEq, Repr

/-- Days from the first of March of year zero. -/
def dayNumber (year : Int) (month day : Nat) : Int :=
  let y := if month ≤ 2 then year - 1 else year
  let m := if month ≤ 2 then month + 9 else month - 3
  y * 365 + y.fdiv 4 - y.fdiv 100 + y.fdiv 400 + ((153 * m + 2) / 5 : Nat) + (day - 1 : Nat)

def epoch : Int := 719468

def Moment.stamp (t : Moment) : Int := (dayNumber t.year t.month t.day - epoch) * 86400 + t.seconds

def ofStamp (stamp : Int) : Moment :=
  let days := stamp.fdiv 86400 + epoch
  let era := days.fdiv 146097
  let doe := (days - era * 146097).toNat
  let yoe := (doe - doe / 1460 + doe / 36524 - doe / 146096) / 365
  let doy := doe - (365 * yoe + yoe / 4 - yoe / 100)
  let mp := (5 * doy + 2) / 153
  let day := doy - (153 * mp + 2) / 5 + 1
  let month := if mp < 10 then mp + 3 else mp - 9
  let year : Int := yoe + era * 400 + if month ≤ 2 then 1 else 0
  ⟨year, month, day, (stamp - stamp.fdiv 86400 * 86400).toNat⟩

def Moment.weekday (t : Moment) : Nat := ((dayNumber t.year t.month t.day - epoch + 4).emod 7).toNat

def Moment.dayOfYear (t : Moment) : Nat := (dayNumber t.year t.month t.day - dayNumber t.year 1 1).toNat + 1

def dayNames : List String := ["Sunday", "Monday", "Tuesday", "Wednesday", "Thursday", "Friday", "Saturday"]

def monthNames : List String :=
  ["January", "February", "March", "April", "May", "June", "July", "August", "September", "October", "November",
    "December"]

/-- The year and the week by the rule that week one holds the first Thursday. -/
def Moment.isoWeek (t : Moment) : Int × Nat :=
  let thursday := ofStamp (t.stamp + (4 - ((t.weekday + 6) % 7 + 1 : Int)) * 86400)
  (thursday.year, (thursday.dayOfYear - 1) / 7 + 1)

def padded (width : Nat) (fill : Char) (n : Int) : Octets :=
  let ds := Nat.toDigits 10 n.natAbs
  (if n < 0 then ['-'] else []) ++ List.replicate (width - ds.length) fill ++ ds

def format (t : Moment) (nanos : Nat) : Nat → Octets → Octets
  | 0, _ => []
  | _, [] => []
  | n + 1, '%' :: cs =>
    let mark := (cs.takeWhile fun c => c ∈ ['-', '_', '0', '^', '#'])
    let cs := cs.drop mark.length
    let number (width : Nat) (usual : Char) (k : Int) : Octets :=
      if '-' ∈ mark then padded 0 '0' k
      else padded width (if '_' ∈ mark then ' ' else if '0' ∈ mark then '0' else usual) k
    let letters (s : String) : Octets := if '^' ∈ mark then s.toList.map Char.toUpper else s.toList
    let hour := t.seconds / 3600
    let minute := t.seconds / 60 % 60
    let second := t.seconds % 60
    let hour12 := if hour % 12 = 0 then 12 else hour % 12
    let dayName := dayNames.getD t.weekday ""
    let monthName := monthNames.getD (t.month - 1) ""
    let short (s : String) : String := String.ofList (s.toList.take 3)
    let whole (f : String) (rest : Octets) : Octets := format t nanos n f.toList ++ format t nanos n rest
    match cs with
    | ':' :: 'z' :: rest => "+00:00".toList ++ format t nanos n rest
    | c :: rest =>
      let next : Octets := format t nanos n rest
      match c with
      | '%' => '%' :: next
      | 'n' => '\n' :: next
      | 't' => '\t' :: next
      | 'Y' => number 4 '0' t.year ++ next
      | 'C' => number 2 '0' (t.year.fdiv 100) ++ next
      | 'y' => number 2 '0' (t.year.emod 100) ++ next
      | 'm' => number 2 '0' t.month ++ next
      | 'd' => number 2 '0' t.day ++ next
      | 'e' => number 2 ' ' t.day ++ next
      | 'H' => number 2 '0' hour ++ next
      | 'k' => number 2 ' ' hour ++ next
      | 'I' => number 2 '0' hour12 ++ next
      | 'l' => number 2 ' ' hour12 ++ next
      | 'M' => number 2 '0' minute ++ next
      | 'S' => number 2 '0' second ++ next
      | 'N' => number 9 '0' nanos ++ next
      | 's' => number 0 '0' t.stamp ++ next
      | 'j' => number 3 '0' t.dayOfYear ++ next
      | 'u' => decimal (if t.weekday = 0 then 7 else t.weekday) ++ next
      | 'w' => decimal t.weekday ++ next
      | 'U' => number 2 '0' ((t.dayOfYear + 6 - t.weekday) / 7 : Nat) ++ next
      | 'W' => number 2 '0' ((t.dayOfYear + 6 - (t.weekday + 6) % 7) / 7 : Nat) ++ next
      | 'V' => number 2 '0' t.isoWeek.2 ++ next
      | 'G' => number 4 '0' t.isoWeek.1 ++ next
      | 'g' => number 2 '0' (t.isoWeek.1.emod 100) ++ next
      | 'q' => decimal ((t.month + 2) / 3) ++ next
      | 'a' => letters (short dayName) ++ next
      | 'A' => letters dayName ++ next
      | 'b' | 'h' => letters (short monthName) ++ next
      | 'B' => letters monthName ++ next
      | 'p' => (if '#' ∈ mark then (if hour < 12 then "am" else "pm") else if hour < 12 then "AM" else "PM").toList ++ next
      | 'P' => (if hour < 12 then "am" else "pm").toList ++ next
      | 'Z' => letters "UTC" ++ next
      | 'z' => "+0000".toList ++ next
      | 'F' => whole "%Y-%m-%d" rest
      | 'T' | 'X' => whole "%H:%M:%S" rest
      | 'D' | 'x' => whole "%m/%d/%y" rest
      | 'R' => whole "%H:%M" rest
      | 'r' => whole "%I:%M:%S %p" rest
      | 'c' => whole "%a %b %e %H:%M:%S %Y" rest
      | c => '%' :: mark ++ c :: next
    | [] => ['%']
  | n + 1, c :: cs => c :: format t nanos n cs

def numbersOf (d : Char) (text : Octets) : Option (List Nat) := (Text.split (· == d) text).mapM natural

def isValid (year : Int) (month day : Nat) : Bool :=
  decide (1 ≤ month ∧ month ≤ 12 ∧ 1 ≤ day) &&
    (let t := ofStamp ((dayNumber year month day - epoch) * 86400); decide (t.month = month ∧ t.day = day))

/-- A month counted from January of a year, however many that are. -/
def shiftMonths (t : Moment) (k : Int) : Moment :=
  let m : Int := (t.month : Int) - 1 + k
  ofStamp ({ t with year := t.year + m.fdiv 12, month := (m.emod 12).toNat + 1 } : Moment).stamp

def unit? (word : Octets) : Option (Nat ⊕ Nat) :=
  let word := if word.length > 3 ∧ word.getLast? = some 's' then word.dropLast else word
  match String.ofList word with
  | "sec" | "second" => some (.inl 1)
  | "min" | "minute" => some (.inl 60)
  | "hour" => some (.inl 3600)
  | "day" => some (.inl 86400)
  | "week" => some (.inl 604800)
  | "fortnight" => some (.inl 1209600)
  | "month" => some (.inr 1)
  | "year" => some (.inr 12)
  | _ => none

def shifted (t : Moment) (k : Int) : Nat ⊕ Nat → Moment
  | .inl size => ofStamp (t.stamp + k * size)
  | .inr months => shiftMonths t (k * months)

def clockTime? (word : Octets) : Option Nat :=
  let word := word.takeWhile (· ≠ '.')
  match numbersOf ':' word with
  | some [h, m] => if h < 24 ∧ m < 60 then some (h * 3600 + m * 60) else none
  | some [h, m, s] => if h < 24 ∧ m < 60 ∧ s < 61 then some (h * 3600 + m * 60 + s) else none
  | _ => none

def monthNamed? (word : Octets) : Option Nat :=
  (monthNames.findIdx? fun m => word.length ≥ 3 && (word.map Char.toLower).isPrefixOf (m.toList.map Char.toLower)).map
    (· + 1)

def words? : Nat → Moment → List Octets → Option Moment
  | 0, _, _ => none
  | _, t, [] => some t
  | n + 1, t, w :: rest =>
    let sign? : Option (Int × Octets) := match w with
      | '+' :: ds => some (1, ds)
      | '-' :: ds => some (-1, ds)
      | ds => some (1, ds)
    let date (year : Nat) (month day : Nat) : Option Moment :=
      if isValid year month day then some { year, month, day, seconds := 0 } else none
    match String.ofList (w.map Char.toLower) with
    | "now" | "today" | "utc" | "gmt" | "z" | "+0000" => words? n t rest
    | "tomorrow" => words? n (ofStamp (t.stamp + 86400)) rest
    | "yesterday" => words? n (ofStamp (t.stamp - 86400)) rest
    | "midnight" => words? n { t with seconds := 0 } rest
    | "noon" => words? n { t with seconds := 43200 } rest
    | "next" | "last" =>
      match rest with
      | u :: rest => (unit? u).bind fun u => words? n (shifted t (if w.head? = some 'n' then 1 else -1) u) rest
      | [] => none
    | _ =>
      match clockTime? w with
      | some s => words? n { t with seconds := s } rest
      | none =>
        let separated := Text.split (fun c => c == 'T' || c == 't') w
        match separated, numbersOf '-' w, numbersOf '/' w with
        | _, some [y, m, d], _ => (date y m d).bind fun t => words? n t rest
        | _, _, some [m, d, y] => (date y m d).bind fun t => words? n t rest
        | [d, c], _, _ =>
          let zone := c.getLast? = some 'Z'
          words? n t (d :: (if zone then c.dropLast else c) :: rest)
        | _, _, _ =>
          match sign?.bind fun (s, ds) => (natural ds).map fun k => s * (k : Int), rest with
          | some k, u :: rest' =>
            match unit? u with
            | some u =>
              match rest' with
              | ago :: rest'' =>
                if ago = "ago".toList then words? n (shifted t (-k) u) rest'' else words? n (shifted t k u) rest'
              | [] => some (shifted t k u)
            | none =>
              match monthNamed? u, rest' with
              | some m, y :: rest'' =>
                ((natural y).bind fun y => date y m k.toNat).bind fun t => words? n t rest''
              | _, _ =>
                if w.length = 8 ∧ w.all Char.isDigit then
                  (date (k.toNat / 10000) (k.toNat / 100 % 100) (k.toNat % 100)).bind fun t => words? n t rest
                else none
          | some k, [] =>
            if w.length = 8 ∧ w.all Char.isDigit then
              date (k.toNat / 10000) (k.toNat / 100 % 100) (k.toNat % 100)
            else none
          | none, _ =>
            if (unit? w).isSome then
              match rest with
              | ago :: rest' =>
                let k : Int := if ago = "ago".toList then -1 else 1
                (unit? w).bind fun u => words? n (shifted t k u) (if k = -1 then rest' else rest)
              | [] => (unit? w).map (shifted t 1)
            else none

def read? (now : Moment) (text : Octets) : Option Moment :=
  match text with
  | '@' :: '-' :: ds => (natural (ds.takeWhile (· ≠ '.'))).map fun k => ofStamp (-(k : Int))
  | '@' :: ds => (natural (ds.takeWhile (· ≠ '.'))).map fun k => ofStamp k
  | _ =>
    let ws := words text
    if ws.isEmpty then some { now with seconds := 0 } else words? (3 * ws.length + 5) now ws

def stampText (t : Nat) : Octets :=
  format (ofStamp (t / 1000 : Nat)) (t % 1000 * 1000000) 100 "%Y-%m-%d %H:%M:%S.%N +0000".toList

def listed (t : Nat) : Octets := format (ofStamp (t / 1000 : Nat)) 0 40 "%b %e %H:%M".toList

def date (args : List Octets) : Run Int := do
  let r := request ['d', 'r', 's', 'f'] [("date", 'd'), ("utc", 'u'), ("universal", 'u'), ("rfc-email", 'R'),
    ("reference", 'r'), ("iso-8601", 'I')] args
  let clock := (← get).clock
  let now := ofStamp (clock / 1000 : Nat)
  let fs ← files
  let stamps := (← get).stamps
  let moment? : Option Moment := match r.value? 'd', r.value? 'r' with
    | some text, _ => read? now text
    | none, some f => ((fs.locate (Test.pathOf f)).toOption).map fun (l, _) =>
      ofStamp (((stamps.lookup l).getD clock) / 1000 : Nat)
    | none, none => some now
  match moment? with
  | none =>
    match r.value? 'd' with
    | some text => grumble "date" ("invalid date ".toList ++ inQuotes text)
    | none => grumble "date" ((r.value? 'r').getD [] ++ ": No such file or directory".toList)
    return 1
  | some t =>
    let nanos := if r.has 'd' then 0 else clock % 1000 * 1000000
    let usual := if r.has 'R' then "%a, %d %b %Y %H:%M:%S %z"
      else if r.has 'I' then "%Y-%m-%d" else "%a %b %e %H:%M:%S %Z %Y"
    match r.named with
    | [] =>
      print (format t nanos 200 usual.toList ++ ['\n'])
      return 0
    | ('+' :: f) :: _ =>
      print (format t nanos (f.length + 30) f ++ ['\n'])
      return 0
    | word :: _ =>
      grumble "date" ("invalid date ".toList ++ inQuotes word)
      return 1

def table : List (String × (List Octets → Run Int)) := [("date", date)]

end CMakeHelm.Sh.Tool.Calendar
