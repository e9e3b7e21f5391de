import CMakeHelm.Data

namespace CMakeHelm.Toml

/-- How a table came to be decides what may still be added: a header defines its table once, and a
dotted key opens only tables that no header has defined. -/
inductive Origin where
  | header
  | implied
  | dotted
deriving DecidableEq, Repr

inductive Node where
  | value (d : Data)
  | table (origin : Origin) (fields : List (String × Node))
  | tables (before : List (List (String × Node))) (last : List (String × Node))

abbrev Fields := List (String × Node)

def Fields.set (key : String) (n : Node) : Fields → Fields
  | [] => [(key, n)]
  | (k, m) :: rest => if k = key then (key, n) :: rest else (k, m) :: Fields.set key n rest

/-- Change the table at the end of a path. Tables that are missing on the way are made with the
given origin. -/
def alter (making : Origin) (f : Origin → Fields → Option Fields) :
    List String → Origin → Fields → Option Fields
  | [], origin, fields => f origin fields
  | key :: path, _, fields =>
    match List.lookup key fields with
    | none => (alter making f path making []).map fun inner => Fields.set key (.table making inner) fields
    | some (.value _) => none
    | some (.table origin inner) =>
      if making = .dotted ∧ origin = .header then none
      else (alter making f path origin inner).map fun inner => Fields.set key (.table origin inner) fields
    | some (.tables before last) =>
      (alter making f path .header last).map fun last => Fields.set key (.tables before last) fields

/-- A new key in a table that was opened the same way as the key is written. -/
def define (isDotted : Bool) (key : String) (d : Data) (origin : Origin) (fields : Fields) : Option Fields :=
  if (origin == .dotted) ≠ isDotted then none
  else if (List.lookup key fields).isSome then none
  else some (Fields.set key (.value d) fields)

def assign (path : List String) (key : String) (d : Data) : Origin → Fields → Option Fields :=
  alter .dotted (define (path ≠ []) key d) path

def openTable (key : String) (fields : Fields) : Option Fields :=
  match List.lookup key fields with
  | none => some (Fields.set key (.table .header []) fields)
  | some (.table .implied inner) => some (Fields.set key (.table .header inner) fields)
  | _ => none

def pushTable (key : String) (fields : Fields) : Option Fields :=
  match List.lookup key fields with
  | none => some (Fields.set key (.tables [] []) fields)
  | some (.tables before last) => some (Fields.set key (.tables (before ++ [last]) []) fields)
  | _ => none

mutual

def Node.toData : Node → Data
  | .value d => d
  | .table _ fields => .table (fieldsData fields)
  | .tables before last => .list (tablesData before ++ [.table (fieldsData last)])

def fieldsData : List (String × Node) → List (String × Data)
  | [] => []
  | (key, n) :: rest => (key, n.toData) :: fieldsData rest

def tablesData : List (List (String × Node)) → List Data
  | [] => []
  | fields :: rest => .table (fieldsData fields) :: tablesData rest

end

end CMakeHelm.Toml
