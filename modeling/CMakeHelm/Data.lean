namespace CMakeHelm

/-- Numerals stay as they are written, since nothing computes with them. -/
inductive Data where
  | null
  | flag (b : Bool)
  | number (numeral : String)
  | moment (text : String)
  | text (s : String)
  | list (items : List Data)
  | table (fields : List (String × Data))
deriving Inhabited, Repr

namespace Data

def object (fields : List (String × Data)) : Data :=
  let insert (fields : List (String × Data)) (f : String × Data) :=
    fields.takeWhile (·.1 < f.1) ++ f :: (fields.dropWhile (·.1 < f.1)).filter (·.1 ≠ f.1)
  .table (fields.foldl insert [])

def hexDigit (n : Nat) : Char := if n < 10 then Char.ofNat (48 + n) else Char.ofNat (87 + n)

def escape (c : Char) : List Char :=
  if c = '"' then ['\\', '"']
  else if c = '\\' then ['\\', '\\']
  else if c = '\x08' then ['\\', 'b']
  else if c = '\t' then ['\\', 't']
  else if c = '\n' then ['\\', 'n']
  else if c = '\x0c' then ['\\', 'f']
  else if c = '\r' then ['\\', 'r']
  else if c.toNat < 0x20 then ['\\', 'u', '0', '0', hexDigit (c.toNat / 16), hexDigit (c.toNat % 16)]
  else [c]

def quoted (s : String) : List Char := '"' :: s.toList.flatMap escape ++ ['"']

mutual

def compactChars : Data → List Char
  | .null => "null".toList
  | .flag b => (if b then "true" else "false").toList
  | .number numeral => numeral.toList
  | .moment s => quoted s
  | .text s => quoted s
  | .list [] => ['[', ']']
  | .list (item :: items) => '[' :: compactChars item ++ compactItems items ++ [']']
  | .table [] => ['{', '}']
  | .table ((key, v) :: fields) => '{' :: quoted key ++ ':' :: compactChars v ++ compactFields fields ++ ['}']

def compactItems : List Data → List Char
  | [] => []
  | item :: items => ',' :: compactChars item ++ compactItems items

def compactFields : List (String × Data) → List Char
  | [] => []
  | (key, v) :: fields => ',' :: quoted key ++ ':' :: compactChars v ++ compactFields fields

end

def compact (d : Data) : String := String.ofList d.compactChars

def spread (fields : List (String × String)) : String :=
  let line (f : String × String) := "  " ++ String.ofList (quoted f.1) ++ ": " ++ String.ofList (quoted f.2)
  "\x7b\n" ++ ",\n".intercalate (fields.map line) ++ "\n\x7d"

def variant? {α : Type} (names : List (String × α)) : Data → Option α
  | .text s => names.lookup s
  | .table [(s, .null)] => names.lookup s
  | _ => none

/-- The fields of a record: by name from a table, whatever else that holds, or one after another
from a list that has no more of them. -/
def record? (names : List String) : Data → Option (List (Option Data))
  | .table fields => some (names.map fun name => fields.lookup name)
  | .list items =>
    if items.length ≤ names.length then some ((List.range names.length).map (items[·]?)) else none
  | .moment _ => some (names.map fun _ => none)
  | _ => none

def text? : Data → Option String
  | .text s => some s
  | _ => none

def optionalText? : Option Data → Option (Option String)
  | none | some .null => some none
  | some (.text s) => some (some s)
  | some _ => none

end Data

end CMakeHelm
