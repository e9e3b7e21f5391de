import CMakeHelm.Proofs.Statement

namespace CMakeHelm

namespace Text

variable {cs gap piece rest front front' back back' : List Char} {pieces : List (List Char)}

/-- The pieces of a text without blanks that no longer piece contains, in order. -/
inductive MaximalPieces : List Char → List (List Char) → Prop
  | gap {gap : List Char} (hgap : ∀ c ∈ gap, isBlank c = true) : MaximalPieces gap []
  | piece {gap piece rest : List Char} {pieces : List (List Char)} (hgap : ∀ c ∈ gap, isBlank c = true)
      (hne : piece ≠ []) (hsolid : ∀ c ∈ piece, isBlank c = false) (hend : ∀ c ∈ rest.head?, isBlank c = true)
      (h : MaximalPieces rest pieces) : MaximalPieces (gap ++ (piece ++ rest)) (piece :: pieces)

theorem MaximalPieces.words_eq (h : MaximalPieces cs pieces) : words cs = pieces := by
  induction h with
  | gap hgap => exact words_blanks hgap
  | piece hgap hne hsolid hend _ ih =>
      rw [words_blanks_append hgap, words_word_append hne hsolid hend, ih]

theorem MaximalPieces.solid (h : MaximalPieces cs pieces) :
    ∀ piece ∈ pieces, piece ≠ [] ∧ ∀ c ∈ piece, isBlank c = false ∧ c ∈ cs := by
  induction h with
  | gap hgap => simp
  | piece hgap hne hsolid hend _ ih =>
      rw [List.forall_mem_cons]
      refine ⟨⟨hne, fun c hc => ⟨hsolid c hc, by simp [hc]⟩⟩, fun piece hpiece => ⟨(ih piece hpiece).1, fun c hc => ?_⟩⟩
      obtain ⟨hblank, hmem⟩ := (ih piece hpiece).2 c hc
      exact ⟨hblank, by simp [hmem]⟩

theorem not_of_mem_head?_dropWhile {p : Char → Bool} {c : Char} (h : c ∈ (cs.dropWhile p).head?) : p c = false := by
  have hnot := List.head?_dropWhile_not p cs
  rw [Option.mem_def.1 h] at hnot
  simpa using hnot

theorem blank_of_mem_takeWhile {c : Char} (h : c ∈ cs.takeWhile isBlank) : isBlank c = true := List.mem_takeWhile_imp h

theorem maximalPieces_words (cs : List Char) : MaximalPieces cs (words cs) := by
  -- What is left behind the first word has the words that are left.
  induction hn : cs.length using Nat.strong_induction_on generalizing cs with
  | _ n ih =>
      subst hn
      have hcut : cs.takeWhile isBlank ++ dropBlank cs = cs := List.takeWhile_append_dropWhile
      have hgap : ∀ c ∈ cs.takeWhile isBlank, isBlank c = true := fun _ => blank_of_mem_takeWhile
      cases hsolid : dropBlank cs with
      | nil =>
          rw [hsolid, List.append_nil] at hcut
          rw [hcut] at hgap
          rw [words_blanks hgap]
          exact .gap hgap
      | cons c rest =>
          have hc : isBlank c = false := not_of_mem_head?_dropWhile (p := isBlank) (by rw [← dropBlank, hsolid]; rfl)
          have hword : (c :: rest).takeWhile (!isBlank ·) ++ (c :: rest).dropWhile (!isBlank ·) = c :: rest :=
            List.takeWhile_append_dropWhile
          have hne : (c :: rest).takeWhile (!isBlank ·) ≠ [] := by simp [hc]
          have hunbroken : ∀ d ∈ (c :: rest).takeWhile (!isBlank ·), isBlank d = false := by
            intro d hd
            simpa using List.mem_takeWhile_imp hd
          have hend : ∀ d ∈ ((c :: rest).dropWhile (!isBlank ·)).head?, isBlank d = true := by
            intro d hd
            simpa using not_of_mem_head?_dropWhile hd
          have hlt : ((c :: rest).dropWhile (!isBlank ·)).length < cs.length := by
            have hpos := List.length_pos_of_ne_nil hne
            have hlength := congrArg List.length hword
            have hlength' := congrArg List.length hcut
            rw [List.length_append] at hlength hlength'
            rw [hsolid] at hlength'
            omega
          have hpieces := MaximalPieces.piece hgap hne hunbroken hend (ih _ hlt _ rfl)
          rw [hword, ← hsolid, hcut] at hpieces
          rw [← hpieces.words_eq] at hpieces
          exact hpieces

theorem maximalPieces_iff : MaximalPieces cs pieces ↔ words cs = pieces :=
  ⟨MaximalPieces.words_eq, fun h => h ▸ maximalPieces_words cs⟩

theorem append_inj_of_class {p : Char → Prop} (hfront : ∀ c ∈ front, p c) (hfront' : ∀ c ∈ front', p c)
    (hback : ∀ c ∈ back.head?, ¬ p c) (hback' : ∀ c ∈ back'.head?, ¬ p c) (h : front ++ back = front' ++ back') :
    front = front' ∧ back = back' := by
  rcases List.append_eq_append_iff.1 h with ⟨more, rfl, rfl⟩ | ⟨more, rfl, rfl⟩
  · cases more with
    | nil => exact ⟨(List.append_nil _).symm, rfl⟩
    | cons c more => exact absurd (hfront' c (by simp)) (hback c (by simp))
  · cases more with
    | nil => exact ⟨List.append_nil _, rfl⟩
    | cons c more => exact absurd (hfront c (by simp)) (hback' c (by simp))

end Text

namespace Statement

open Text

def IsLetter (c : Char) : Prop := ('A' ≤ c ∧ c ≤ 'Z') ∨ ('a' ≤ c ∧ c ≤ 'z')

def IsDigit (c : Char) : Prop := '0' ≤ c ∧ c ≤ '9'

instance (c : Char) : Decidable (IsLetter c) := inferInstanceAs (Decidable (_ ∨ _))

instance (c : Char) : Decidable (IsDigit c) := inferInstanceAs (Decidable (_ ∧ _))

theorem isNameStart_iff (c : Char) : isNameStart c = true ↔ IsLetter c ∨ c = '_' := by
  simp [isNameStart, Char.isAlpha, Char.isUpper, Char.isLower, IsLetter, Char.le_def]

theorem isNameChar_iff (c : Char) : isNameChar c = true ↔ (IsLetter c ∨ c = '_') ∨ IsDigit c := by
  rw [isNameChar, Bool.or_eq_true, isNameStart_iff]
  simp [Char.isDigit, IsDigit, Char.le_def]

/-- A line in parts: blanks, a name, blanks, a body between parentheses, blanks, and what ends the line. -/
structure Cut where
  indent : List Char
  name : List Char
  opening : List Char
  body : List Char
  ending : List Char
  tail : List Char

def Cut.chars (k : Cut) : List Char :=
  k.indent ++ (k.name ++ (k.opening ++ '(' :: (k.body ++ ')' :: (k.ending ++ k.tail))))

structure Cut.Proper (k : Cut) : Prop where
  indent : ∀ c ∈ k.indent, isBlank c = true
  name : ∃ first rest, k.name = first :: rest ∧ (IsLetter first ∨ first = '_') ∧
    ∀ c ∈ rest, (IsLetter c ∨ c = '_') ∨ IsDigit c
  opening : ∀ c ∈ k.opening, isBlank c = true
  body : ∀ c ∈ k.body, c ≠ '(' ∧ c ≠ ')'
  ending : ∀ c ∈ k.ending, isBlank c = true
  tail : k.tail = [] ∨ ∃ comment, k.tail = '#' :: comment ∧ '\n' ∉ comment

variable {k l : Cut} {line : List Char} {s : Statement}

theorem isName_iff {name : List Char} :
    IsName name ↔ ∃ first rest, name = first :: rest ∧ (IsLetter first ∨ first = '_') ∧
      ∀ c ∈ rest, (IsLetter c ∨ c = '_') ∨ IsDigit c := by
  cases name with
  | nil => simp [IsName]
  | cons c cs =>
      have hfirst : isNameStart c = true → isNameChar c = true := fun h => by rw [isNameChar, h, Bool.true_or]
      simp only [IsName, List.head?_cons, Option.any_some, List.all_cons, Bool.and_eq_true, List.all_eq_true,
        isNameChar_iff, isNameStart_iff, List.cons.injEq] at hfirst ⊢
      constructor
      · rintro ⟨hc, -, hcs⟩
        exact ⟨c, cs, ⟨rfl, rfl⟩, hc, hcs⟩
      · rintro ⟨_, _, ⟨rfl, rfl⟩, hc, hcs⟩
        exact ⟨hc, hfirst hc, hcs⟩

theorem isParen_eq_false_iff {c : Char} : isParen c = false ↔ c ≠ '(' ∧ c ≠ ')' := by
  rw [isParen, Bool.or_eq_false_iff, beq_eq_false_iff_ne, beq_eq_false_iff_ne]

theorem isTail_iff {tail : List Char} :
    isTail tail = true ↔ tail = [] ∨ ∃ comment, tail = '#' :: comment ∧ '\n' ∉ comment := by
  cases tail with
  | nil => simp [isTail]
  | cons c cs => simp [isTail]

theorem dropBlank_tail {tail : List Char} (h : tail = [] ∨ ∃ comment, tail = '#' :: comment ∧ '\n' ∉ comment) :
    dropBlank tail = tail := by
  rcases h with rfl | ⟨comment, rfl, -⟩
  · rfl
  · exact dropBlank_cons_of_not (by decide) comment

theorem parseChars?_of_proper (hk : k.Proper) :
    parseChars? k.chars = some ⟨String.ofList k.name, (words k.body).map String.ofList⟩ := by
  have htail : isTail (dropBlank (k.ending ++ k.tail)) = true := by
    rw [dropBlank_append hk.ending, dropBlank_tail hk.tail]
    exact isTail_iff.2 hk.tail
  let indent : Blanks := ⟨k.indent, List.all_eq_true.2 hk.indent⟩
  let opening : Blanks := ⟨k.opening, List.all_eq_true.2 hk.opening⟩
  have hparts : parseChars? (indent.chars ++
      (k.name ++ (opening.chars ++ '(' :: (k.body ++ ')' :: (k.ending ++ k.tail))))) = _ :=
    parseChars?_of_parts (isName_iff.2 hk.name) (fun c hc => isParen_eq_false_iff.2 (hk.body c hc)) htail
  exact hparts

theorem exists_proper_of_parseChars? (h : parseChars? line = some s) :
    ∃ k : Cut, k.Proper ∧ k.chars = line ∧ s = ⟨String.ofList k.name, (words k.body).map String.ofList⟩ := by
  have hindent : line.takeWhile isBlank ++ dropBlank line = line := List.takeWhile_append_dropWhile
  have hname : (dropBlank line).takeWhile isNameChar ++ (dropBlank line).dropWhile isNameChar = dropBlank line :=
    List.takeWhile_append_dropWhile
  have hopening : ((dropBlank line).dropWhile isNameChar).takeWhile isBlank ++
      dropBlank ((dropBlank line).dropWhile isNameChar) = (dropBlank line).dropWhile isNameChar :=
    List.takeWhile_append_dropWhile
  simp only [parseChars?] at h
  split at h
  · cases h
  next hstart =>
  split at h
  next inner hinner =>
    split at h
    next rest hrest =>
      split at h
      next htail =>
        have hbody : inner.takeWhile (!isParen ·) ++ inner.dropWhile (!isParen ·) = inner :=
          List.takeWhile_append_dropWhile
        have hending : rest.takeWhile isBlank ++ dropBlank rest = rest := List.takeWhile_append_dropWhile
        refine ⟨⟨line.takeWhile isBlank, (dropBlank line).takeWhile isNameChar,
          ((dropBlank line).dropWhile isNameChar).takeWhile isBlank, inner.takeWhile (!isParen ·),
          rest.takeWhile isBlank, dropBlank rest⟩, ?_, ?_, (Option.some.inj h).symm⟩
        · exact
            { indent := fun c => blank_of_mem_takeWhile
              name := isName_iff.1 ⟨by simpa using hstart, List.all_eq_true.2 fun c => List.mem_takeWhile_imp⟩
              opening := fun c => blank_of_mem_takeWhile
              body := fun c hc => isParen_eq_false_iff.1 (by simpa using List.mem_takeWhile_imp hc)
              ending := fun c => blank_of_mem_takeWhile
              tail := isTail_iff.1 htail }
        · rw [Cut.chars, hending, ← hrest, hbody, ← hinner, hopening, hname, hindent]
      · cases h
    · cases h
  · cases h

theorem parseChars?_eq_some_iff : parseChars? line = some s ↔
    ∃ k : Cut, k.Proper ∧ k.chars = line ∧ s = ⟨String.ofList k.name, (words k.body).map String.ofList⟩ := by
  constructor
  · exact exists_proper_of_parseChars?
  · rintro ⟨k, hk, rfl, rfl⟩
    exact parseChars?_of_proper hk

namespace Cut.Proper

theorem name_chars (hk : k.Proper) : ∀ c ∈ k.name, isNameChar c = true := List.all_eq_true.1 (isName_iff.2 hk.name).2

theorem not_blank_of_mem_head?_name (hk : k.Proper) (more : List Char) :
    ∀ c ∈ (k.name ++ more).head?, ¬ isBlank c = true := by
  obtain ⟨first, rest, hname, hletter, -⟩ := hk.name
  intro c hc
  obtain rfl : first = c := by simpa [hname] using hc
  rw [not_blank_of_isNameChar ((isNameChar_iff first).2 (.inl hletter))]
  exact Bool.false_ne_true

theorem not_nameChar_of_mem_head?_opening (hk : k.Proper) (more : List Char) :
    ∀ c ∈ (k.opening ++ '(' :: more).head?, ¬ isNameChar c = true := by
  intro c hc hnamed
  cases hopening : k.opening with
  | nil =>
      obtain rfl : '(' = c := by simpa [hopening] using hc
      exact absurd hnamed (by decide)
  | cons d ds =>
      obtain rfl : d = c := by simpa [hopening] using hc
      have hblank : isBlank d = true := hk.opening d (hopening ▸ List.mem_cons_self)
      rw [not_blank_of_isNameChar hnamed] at hblank
      exact Bool.false_ne_true hblank

theorem not_blank_of_mem_head?_tail (hk : k.Proper) : ∀ c ∈ k.tail.head?, ¬ isBlank c = true := by
  rcases hk.tail with htail | ⟨comment, htail, -⟩
  · simp [htail]
  · intro c hc
    obtain rfl : '#' = c := by simpa [htail] using hc
    decide

theorem eq (hk : k.Proper) (hl : l.Proper) (h : k.chars = l.chars) : k = l := by
  obtain ⟨hindent, h⟩ := append_inj_of_class hk.indent hl.indent (hk.not_blank_of_mem_head?_name _)
    (hl.not_blank_of_mem_head?_name _) h
  obtain ⟨hname, h⟩ := append_inj_of_class hk.name_chars hl.name_chars (hk.not_nameChar_of_mem_head?_opening _)
    (hl.not_nameChar_of_mem_head?_opening _) h
  obtain ⟨hopening, h⟩ := append_inj_of_class hk.opening hl.opening (by simp; decide) (by simp; decide) h
  obtain ⟨hbody, h⟩ := append_inj_of_class hk.body hl.body (by simp) (by simp) (List.cons.inj h).2
  obtain ⟨hending, htail⟩ := append_inj_of_class hk.ending hl.ending hk.not_blank_of_mem_head?_tail
    hl.not_blank_of_mem_head?_tail (List.cons.inj h).2
  cases k
  cases l
  simp_all

end Cut.Proper

/-- A statement is found on a line if and only if the line can be cut as the grammar says; it has the name of the cut,
and the maximal pieces of the cut's body as its arguments. A line can be cut in one way only, so there is one statement
at most, and its arguments are words without parentheses. -/
theorem parse?_eq_some_iff_cut (line : String) :
    (∀ s, parse? line = some s ↔ ∃ k : Cut, k.Proper ∧ k.chars = line.toList ∧ s.name.toList = k.name ∧
      MaximalPieces k.body (s.args.map String.toList)) ∧
    (∀ k l : Cut, k.Proper → l.Proper → k.chars = line.toList → l.chars = line.toList → k = l) ∧
    ∀ s, parse? line = some s → ∀ arg ∈ s.args, arg ≠ "" ∧
      ∀ c ∈ arg.toList, isBlank c = false ∧ c ≠ '(' ∧ c ≠ ')' := by
  have hiff (s : Statement) : parse? line = some s ↔ ∃ k : Cut, k.Proper ∧ k.chars = line.toList ∧
      s.name.toList = k.name ∧ MaximalPieces k.body (s.args.map String.toList) := by
    rw [parse?, parseChars?_eq_some_iff]
    refine exists_congr fun k => and_congr_right fun _ => and_congr_right fun _ => ?_
    rw [maximalPieces_iff]
    constructor
    · rintro rfl
      simp [Function.comp_def]
    · rintro ⟨hname, hargs⟩
      rw [← hname, hargs]
      simp [Function.comp_def]
  refine ⟨hiff, fun k l hk hl hkl hll => hk.eq hl (hkl.trans hll.symm), fun s hs arg harg => ?_⟩
  obtain ⟨k, hk, -, -, hpieces⟩ := (hiff s).1 hs
  obtain ⟨hne, hsolid⟩ := hpieces.solid arg.toList (List.mem_map_of_mem harg)
  refine ⟨fun he => hne (by simp [he]), fun c hc => ?_⟩
  obtain ⟨hblank, hmem⟩ := hsolid c hc
  exact ⟨hblank, hk.body c hmem⟩

def brokenCut : Cut where
  indent := ['\n']
  name := ['_', 'x', '1']
  opening := ['\u2003']
  body := "a\u3000bb ".toList
  ending := ['\r', '\n']
  tail := "#)(".toList

theorem brokenLine_is_cut :
    brokenCut.Proper ∧ parse? "\n_x1\u2003(a\u3000bb )\r\n#)(" = some ⟨"_x1", ["a", "bb"]⟩ ∧
      ∀ l : Cut, l.Proper → l.chars = "\n_x1\u2003(a\u3000bb )\r\n#)(".toList → l = brokenCut := by
  have hproper : brokenCut.Proper :=
    { indent := List.all_eq_true.1 rfl
      name := ⟨'_', ['x', '1'], rfl, .inr rfl, by rw [List.forall_mem_cons, List.forall_mem_singleton]; decide⟩
      opening := List.all_eq_true.1 rfl
      body := by simp [brokenCut]
      ending := List.all_eq_true.1 rfl
      tail := .inr ⟨[')', '('], rfl, by decide⟩ }
  have hchars : brokenCut.chars = "\n_x1\u2003(a\u3000bb )\r\n#)(".toList := by decide +kernel
  have hpieces : MaximalPieces brokenCut.body [['a'], ['b', 'b']] := maximalPieces_iff.2 (by decide +kernel)
  obtain ⟨hiff, hunique, -⟩ := parse?_eq_some_iff_cut "\n_x1\u2003(a\u3000bb )\r\n#)("
  exact ⟨hproper, (hiff _).2 ⟨brokenCut, hproper, hchars, rfl, hpieces⟩,
    fun l hl hlchars => hunique l brokenCut hl hproper hlchars hchars⟩

end Statement

end CMakeHelm
