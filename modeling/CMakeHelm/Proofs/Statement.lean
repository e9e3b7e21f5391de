import CMakeHelm.Statement
import CMakeHelm.Proofs.Text.Words
import Mathlib

namespace CMakeHelm.Statement

open Text

def IsName (cs : List Char) : Prop := cs.head?.any isNameStart = true ∧ cs.all isNameChar = true

instance (cs : List Char) : Decidable (IsName cs) := inferInstanceAs (Decidable (_ ∧ _))

theorem isLower_toLower {c : Char} (h : c.isUpper = true) : c.toLower.isLower = true := by
  have hval : 'A'.val ≤ c.val ∧ c.val ≤ 'Z'.val := by simpa [Char.isUpper] using h
  have hlower : c.toLower.val = c.val + 32 := by rw [Char.toLower, dif_pos hval]; rfl
  have hadd : (c.val + 32).toNat = (c.val.toNat + 32) % 2 ^ 32 := UInt32.toNat_add c.val 32
  have hrange : 65 ≤ c.val.toNat ∧ c.val.toNat ≤ 90 := by rwa [UInt32.le_iff_toNat_le, UInt32.le_iff_toNat_le] at hval
  have hresult : 97 ≤ (c.val + 32).toNat ∧ (c.val + 32).toNat ≤ 122 := by omega
  rw [Char.isLower, hlower]
  simpa [UInt32.le_iff_toNat_le] using hresult

theorem toLower_of_not_upper {c : Char} (h : ¬ c.isUpper = true) : c.toLower = c :=
  dif_neg (by simpa [Char.isUpper] using h)

theorem isNameStart_toLower (c : Char) : isNameStart c.toLower = isNameStart c := by
  by_cases h : c.isUpper = true
  · simp [isNameStart, Char.isAlpha, h, isLower_toLower h]
  · rw [toLower_of_not_upper h]

theorem isNameChar_toLower (c : Char) : isNameChar c.toLower = isNameChar c := by
  by_cases h : c.isUpper = true
  · simp [isNameChar, isNameStart, Char.isAlpha, h, isLower_toLower h]
  · rw [toLower_of_not_upper h]

theorem isName_toLower (s : String) : IsName s.toLower.toList ↔ IsName s.toList := by
  have hhead : s.toLower.toList.head?.any isNameStart = s.toList.head?.any isNameStart := by
    rw [String.toLower, String.toList_map, List.head?_map]
    cases s.toList.head? with
    | none => rfl
    | some c => exact isNameStart_toLower c
  have hall : s.toLower.toList.all isNameChar = s.toList.all isNameChar := by
    rw [String.toLower, String.toList_map, List.all_map]
    exact List.all_congr rfl fun c => isNameChar_toLower c
  rw [IsName, IsName, hhead, hall]

theorem not_blank_of_isNameChar {c : Char} (h : isNameChar c = true) : isBlank c = false := by
  have hrange : 65 ≤ c.toNat ∧ c.toNat ≤ 90 ∨ 97 ≤ c.toNat ∧ c.toNat ≤ 122 ∨ c.toNat = 95 ∨
      48 ≤ c.toNat ∧ c.toNat ≤ 57 := by
    simp only [isNameChar, isNameStart, Char.isAlpha, Char.isUpper, Char.isLower, Char.isDigit, Bool.or_eq_true,
      Bool.and_eq_true, decide_eq_true_eq, beq_iff_eq, ge_iff_le, UInt32.le_iff_toNat_le, Char.toNat_val] at h
    rcases h with ((hupper | hlower) | rfl) | hdigit
    · exact .inl hupper
    · exact .inr (.inl hlower)
    · exact .inr (.inr (.inl rfl))
    · exact .inr (.inr (.inr hdigit))
  simp only [isBlank, Bool.or_eq_false_iff, Bool.and_eq_false_iff, decide_eq_false_iff_not, beq_eq_false_iff_ne]
  omega

structure Blanks where
  chars : List Char
  all_blank : chars.all isBlank = true := by decide

theorem Blanks.blank (b : Blanks) : ∀ c ∈ b.chars, isBlank c = true := List.all_eq_true.1 b.all_blank

structure Token where
  text : String
  nonempty : text.toList ≠ [] := by decide
  all_solid : text.toList.all (fun c => !isBlank c && !isParen c) = true := by decide

theorem Token.unbroken (t : Token) : ∀ c ∈ t.text.toList, isBlank c = false ∧ isParen c = false := by
  intro c hc
  simpa using List.all_eq_true.1 t.all_solid c hc

/-- A way to write a statement. Each argument has the blanks before it at its side. -/
structure Line where
  indent : Blanks := ⟨[], by simp⟩
  name : String
  opening : Blanks := ⟨[], by simp⟩
  args : List (Blanks × Token)
  closing : Blanks := ⟨[], by simp⟩
  ending : Blanks := ⟨[], by simp⟩
  comment : Option (List Char) := none
  apart : ∀ arg ∈ args.tail, arg.1.chars ≠ [] := by decide
  comment_on_line : ∀ text ∈ comment, '\n' ∉ text := by decide

def spaced : List (Blanks × Token) → List Char
  | [] => []
  | (gap, token) :: args => gap.chars ++ token.text.toList ++ spaced args

namespace Line

def statement (l : Line) : Statement := ⟨l.name, l.args.map (·.2.text)⟩

def body (l : Line) : List Char := spaced l.args ++ l.closing.chars

def tail (l : Line) : List Char :=
  match l.comment with
  | none => []
  | some text => '#' :: text

def text (l : Line) : String :=
  String.ofList (l.indent.chars ++ (l.name.toList ++ (l.opening.chars ++
    '(' :: (l.body ++ ')' :: (l.ending.chars ++ l.tail)))))

end Line

theorem words_spaced (last : Blanks) {args : List (Blanks × Token)} (h : ∀ arg ∈ args.tail, arg.1.chars ≠ []) :
    words (spaced args ++ last.chars) = args.map (·.2.text.toList) := by
  induction args with
  | nil => exact words_blanks last.blank
  | cons arg args ih =>
      obtain ⟨gap, token⟩ := arg
      -- The word ends where the next gap begins, or the blanks behind the last argument.
      have hnext : ∀ c ∈ (spaced args ++ last.chars).head?, isBlank c = true := by
        intro c hc
        cases args with
        | nil => exact last.blank c (List.mem_of_mem_head? hc)
        | cons arg args =>
            obtain ⟨gap', token'⟩ := arg
            have hne : gap'.chars ≠ [] := h (gap', token') List.mem_cons_self
            cases hgap : gap'.chars with
            | nil => exact absurd hgap hne
            | cons d ds =>
                rw [spaced, hgap] at hc
                obtain rfl : d = c := Option.some.inj hc
                exact gap'.blank d (hgap ▸ List.mem_cons_self)
      have hih := ih fun arg harg => h arg (List.mem_of_mem_tail harg)
      rw [spaced, List.append_assoc, List.append_assoc, words_blanks_append gap.blank,
        words_word_append token.nonempty (fun c hc => (token.unbroken c hc).1) hnext, hih, List.map_cons]

theorem not_paren_of_blank {c : Char} (h : isBlank c = true) : isParen c = false := by
  rw [isParen, Bool.or_eq_false_iff, beq_eq_false_iff_ne, beq_eq_false_iff_ne]
  constructor
  · rintro rfl
    exact absurd h (by decide)
  · rintro rfl
    exact absurd h (by decide)

theorem not_paren_of_mem_spaced {args : List (Blanks × Token)} {c : Char} (h : c ∈ spaced args) :
    isParen c = false := by
  induction args with
  | nil => exact absurd h List.not_mem_nil
  | cons arg args ih =>
      obtain ⟨gap, token⟩ := arg
      rw [spaced, List.mem_append, List.mem_append] at h
      rcases h with (h | h) | h
      · exact not_paren_of_blank (gap.blank c h)
      · exact (token.unbroken c h).2
      · exact ih h

theorem Line.not_paren_of_mem_body (l : Line) {c : Char} (h : c ∈ l.body) : isParen c = false := by
  rcases List.mem_append.1 h with h | h
  · exact not_paren_of_mem_spaced h
  · exact not_paren_of_blank (l.closing.blank c h)

theorem Line.isTail_tail (l : Line) : isTail (dropBlank (l.ending.chars ++ l.tail)) = true := by
  rw [dropBlank_append l.ending.blank, Line.tail]
  cases h : l.comment with
  | none => rfl
  | some text =>
      have hline : '\n' ∉ text := l.comment_on_line text h
      rw [dropBlank_cons_of_not (by decide)]
      simpa [isTail] using hline

theorem takeWhile_name {name : List Char} (h : ∀ c ∈ name, isNameChar c = true) (opening : Blanks) (inner : List Char) :
    (name ++ (opening.chars ++ '(' :: inner)).takeWhile isNameChar = name := by
  rw [List.takeWhile_append_of_pos h]
  cases hopening : opening.chars with
  | nil => rw [List.nil_append, List.takeWhile_cons_of_neg (by decide), List.append_nil]
  | cons c cs =>
      have hc : ¬ isNameChar c = true := by
        intro hc
        have hblank : isBlank c = true := opening.blank c (hopening ▸ List.mem_cons_self)
        rw [not_blank_of_isNameChar hc] at hblank
        exact absurd hblank (by decide)
      rw [List.cons_append, List.takeWhile_cons_of_neg hc, List.append_nil]

theorem dropWhile_name {name : List Char} (h : ∀ c ∈ name, isNameChar c = true) (opening : Blanks) (inner : List Char) :
    (name ++ (opening.chars ++ '(' :: inner)).dropWhile isNameChar = opening.chars ++ '(' :: inner := by
  have hsplit := List.takeWhile_append_dropWhile (p := isNameChar) (l := name ++ (opening.chars ++ '(' :: inner))
  rw [takeWhile_name h] at hsplit
  exact List.append_cancel_left hsplit

theorem parseChars?_of_parts {name body rest : List Char} {indent opening : Blanks} (hname : IsName name)
    (hbody : ∀ c ∈ body, isParen c = false) (hrest : isTail (dropBlank rest) = true) :
    parseChars? (indent.chars ++ (name ++ (opening.chars ++ '(' :: (body ++ ')' :: rest)))) =
      some ⟨String.ofList name, (words body).map String.ofList⟩ := by
  have hchars : ∀ c ∈ name, isNameChar c = true := List.all_eq_true.1 hname.2
  have hfirst (more : List Char) : dropBlank (name ++ more) = name ++ more := by
    cases name with
    | nil => exact absurd hname.1 (by decide)
    | cons c cs => exact dropBlank_cons_of_not (not_blank_of_isNameChar (hchars c List.mem_cons_self)) _
  have hopen (inner : List Char) : dropBlank (opening.chars ++ '(' :: inner) = '(' :: inner := by
    rw [dropBlank_append opening.blank, dropBlank_cons_of_not (by decide)]
  have hinside : ∀ c ∈ body, (!isParen c) = true := fun c hc => by simp [hbody c hc]
  have htake : (body ++ ')' :: rest).takeWhile (!isParen ·) = body := by
    rw [List.takeWhile_append_of_pos hinside, List.takeWhile_cons_of_neg (by decide), List.append_nil]
  have hdrop : (body ++ ')' :: rest).dropWhile (!isParen ·) = ')' :: rest := by
    rw [List.dropWhile_append_of_pos hinside, List.dropWhile_cons_of_neg (by decide)]
  simp only [parseChars?, dropBlank_append indent.blank, hfirst, takeWhile_name hchars, dropWhile_name hchars, hopen,
    htake, hdrop, hname.1, hrest, Bool.not_true, Bool.false_eq_true, if_false, if_true]

theorem parse?_text (l : Line) (h : IsName l.name.toList) : parse? l.text = some l.statement := by
  have hbody : ∀ c ∈ l.body, isParen c = false := fun c hc => l.not_paren_of_mem_body hc
  rw [parse?, Line.text, String.toList_ofList, parseChars?_of_parts h hbody l.isTail_tail, Line.body,
    words_spaced l.closing l.apart, String.ofList_toList, List.map_map, Line.statement]
  simp [Function.comp_def]

end CMakeHelm.Statement
