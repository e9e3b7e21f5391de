namespace CMakeHelm.Text

def split {α : Type} (sep : α → Bool) : List α → List (List α)
  | [] => [[]]
  | c :: cs => if sep c then [] :: split sep cs else (split sep cs).modifyHead (c :: ·)

theorem split_ne_nil {α : Type} (sep : α → Bool) (cs : List α) : split sep cs ≠ [] := by
  induction cs with
  | nil => simp [split]
  | cons c cs ih =>
    rw [split]
    split
    · simp
    · cases h : split sep cs with
      | nil => exact absurd h ih
      | cons p ps => simp

def join (sep : Char) : List (List Char) → List Char
  | [] => []
  | [p] => p
  | p :: q :: ps => p ++ sep :: join sep (q :: ps)

theorem join_split (sep : Char) (cs : List Char) : join sep (split (· == sep) cs) = cs := by
  induction cs with
  | nil => rfl
  | cons c cs ih =>
    have hne := split_ne_nil (· == sep) cs
    rw [split]
    cases h : split (· == sep) cs with
    | nil => exact absurd h hne
    | cons p ps =>
      rw [h] at ih
      by_cases hc : c = sep
      · simp [hc, join, ih]
      · cases ps with
        | nil => simp_all [join]
        | cons q qs => simp_all [join]

def strip? : (front cs : List Char) → Option (List Char)
  | [], cs => some cs
  | _ :: _, [] => none
  | f :: fs, c :: cs => if f = c then strip? fs cs else none

theorem strip?_eq_some_iff {front cs rest : List Char} :
    strip? front cs = some rest ↔ cs = front ++ rest := by
  induction front generalizing cs with
  | nil => simp [strip?, eq_comm]
  | cons f fs ih =>
    cases cs with
    | nil => simp [strip?]
    | cons c cs =>
      by_cases h : f = c
      · simp [strip?, h, ih]
      · simp [strip?, h, Ne.symm h]

def cut? (mark : List Char) : List Char → Option (List Char × List Char)
  | [] => (strip? mark []).map ([], ·)
  | c :: cs =>
    match strip? mark (c :: cs) with
    | some rest => some ([], rest)
    | none => (cut? mark cs).map fun (before, rest) => (c :: before, rest)

/-- Every occurrence of `old`, left to right without overlap, becomes `new`. An empty `old`
leaves the text as it is. -/
def replace (old new : List Char) (cs : List Char) : List Char :=
  if old = [] then cs else go cs.length cs
where
  go : Nat → List Char → List Char
    | 0, cs => cs
    | _ + 1, [] => []
    | n + 1, c :: cs =>
      match strip? old (c :: cs) with
      | some rest => new ++ go n rest
      | none => c :: go n cs

end CMakeHelm.Text
