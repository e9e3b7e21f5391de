import CMakeHelm.Proofs.Sh.Reader
import CMakeHelm.Sh.Parser

namespace CMakeHelm.Sh.Grammar

open Parse

variable {r : Reader} {c d : Char} {cs more w : Octets} {n : Nat}

def isInert (c : Char) : Bool := !isMeta c && c ∉ ['\\', '\'', '"', '$', '`', '*', '?', '[', '\x00']

def plainWord (cs : Octets) : Word := if cs = [] then [] else [.plain cs]

theorem consPlain_plainWord (c : Char) (cs : Octets) : consPlain c (plainWord cs) = plainWord (c :: cs) := by
  cases cs <;> rfl

theorem parts_operator (hr : r.IsPlain) (hrest : r.rest = c :: cs) (hc : c ∉ ['\\', '\'', '"', '$', '`'])
    (hgroup : c ∈ ['?', '*', '+', '@', '!'] → cs.head? ≠ some '(') :
    parts (n + 2) .operator r =
      if isMeta c then .ok ([], r) else (consPlain c <$> parts n .operator) (r.advance 1) := by
  obtain ⟨hslash, hsingle, hdouble, hdollar, hback⟩ : c ≠ '\\' ∧ c ≠ '\'' ∧ c ≠ '"' ∧ c ≠ '$' ∧ c ≠ '`' := by
    simpa using hc
  have hparts : parts (n + 2) .operator r = ordinary (n + 1) .operator r := by
    rw [parts, bind_ok (dialect_eq hr), bind_ok (rest_eq r), hrest]
    simp [hslash]
  rw [hparts, ordinary, bind_ok (dialect_eq hr), bind_ok (rest_eq r), hrest]
  by_cases hmeta : isMeta c
  · have hnone : c ∉ ['?', '*', '+', '@', '!'] := by
      intro h
      simp only [List.mem_cons, List.not_mem_nil, or_false] at h
      rcases h with rfl | rfl | rfl | rfl | rfl <;> simp [isMeta, isSpace] at hmeta
    simp only [List.mem_cons, List.not_mem_nil, or_false] at hnone
    simp only [hdollar, false_implies, implies_true, isProcessPipe, Bool.false_eq_true, ↓reduceIte, List.mem_cons,
      List.not_mem_nil, or_false, hnone, false_and, and_false, hmeta, and_self, bind_pure_comp]
    exact map_ok _ (get_eq r)
  · have hnone : ¬ ((c = '?' ∨ c = '*' ∨ c = '+' ∨ c = '@' ∨ c = '!') ∧ cs.head? = some '(') := by simpa using hgroup
    simp only [hdollar, false_implies, implies_true, isProcessPipe, Bool.false_eq_true, and_true, ↓reduceIte,
      List.mem_cons, List.not_mem_nil, or_false, hnone, and_false, hmeta, Bound.inQuotes, bind_pure_comp]
    rw [bind_ok (get_eq r), bind_ok (skip_eq 1 r)]

theorem parts_bare (hr : r.IsPlain) (hrest : r.rest = w ++ d :: more) (hw : ∀ c ∈ w, isInert c) (hd : isMeta d)
    (hparen : d ≠ '(') (hn : 2 * w.length + 2 ≤ n) :
    parts n .operator r = .ok (plainWord w, r.advance w.length) := by
  induction w generalizing r n with
  | nil =>
      obtain ⟨n, rfl⟩ := Nat.exists_eq_add_of_le' (m := 2) hn
      have hmark : d ∉ ['\\', '\'', '"', '$', '`'] ∧ d ∉ ['?', '*', '+', '@', '!'] := by
        simp only [List.mem_cons, List.not_mem_nil, or_false]
        constructor <;> rintro (rfl | rfl | rfl | rfl | rfl) <;> simp [isMeta, isSpace] at hd
      rw [parts_operator hr hrest hmark.1 fun h => absurd h hmark.2, if_pos hd]
      simp [plainWord]
  | cons c w ih =>
      obtain ⟨n, rfl⟩ := Nat.exists_eq_add_of_le' (m := 2) (by omega : 2 ≤ n)
      have hc := hw c List.mem_cons_self
      have hmark : c ∉ ['\\', '\'', '"', '$', '`'] := by
        simp only [List.mem_cons, List.not_mem_nil, or_false]
        rintro (rfl | rfl | rfl | rfl | rfl) <;> simp [isInert] at hc
      have hmeta : isMeta c = false := by simp_all [isInert]
      have hhead : (w ++ d :: more).head? ≠ some '(' := by
        cases w with
        | nil => simpa using hparen
        | cons b w =>
            have hb := hw b (by simp)
            rintro ⟨⟩
            simp [isInert, isMeta] at hb
      have hread := ih (r := r.advance 1) (n := n) (hr.advance 1) (by simp [hrest])
        (fun b hb => hw b (List.mem_cons_of_mem c hb)) (by simp only [List.length_cons] at hn; omega)
      rw [parts_operator hr hrest hmark fun _ => hhead, hmeta, if_neg Bool.false_ne_true, map_ok _ hread,
        consPlain_plainWord, Reader.advance_advance, List.length_cons, Nat.add_comm 1]

/-- Text between double quotes in which nothing expands, and no backslash takes the character behind it along. -/
def isQuotable : Octets → Bool
  | [] => true
  | ['\\'] => false
  | '\\' :: c :: cs => c ∉ ['$', '`', '"', '\\', '\n', '\x00'] && isQuotable cs
  | c :: cs => c ∉ ['$', '`', '\x00'] && isQuotable cs

theorem isQuotable_cons (h : c ≠ '\\') (cs : Octets) :
    isQuotable (c :: cs) = (c ∉ ['$', '`', '\x00'] && isQuotable cs) := by
  rw [isQuotable] <;> simp [h]

def escapeQuotes (cs : Octets) : Octets := cs.flatMap fun c => if c = '"' then ['\\', '"'] else [c]

def quotedWord (cs : Octets) : Word := if cs = [] then [] else [.quoted cs]

theorem consQuoted_quotedWord (c : Char) (cs : Octets) : consQuoted c (quotedWord cs) = quotedWord (c :: cs) := by
  cases cs <;> rfl

theorem parts_quote_end (hr : r.IsPlain) (hrest : r.rest = '"' :: cs) :
    parts (n + 1) .quote r = .ok ([], r.advance 1) := by
  rw [parts, bind_ok (dialect_eq hr), bind_ok (rest_eq r), hrest]
  exact bind_ok (skip_eq 1 r)

theorem parts_quote_escape (hr : r.IsPlain) (hrest : r.rest = '\\' :: c :: cs) (hc : c ≠ '\n') :
    parts (n + 1) .quote r =
      ((if c ∈ ['$', '`', '"', '\\'] then consQuoted c else consQuoted '\\' ∘ consQuoted c) <$> parts n .quote)
        (r.advance 2) := by
  rw [parts, bind_ok (dialect_eq hr), bind_ok (rest_eq r), hrest]
  by_cases h : c ∈ ['$', '`', '"', '\\']
  · rw [if_pos h]
    simp only [List.mem_cons, List.not_mem_nil, or_false] at h
    rcases h with rfl | rfl | rfl | rfl <;> simp [Bound.inQuotes, Bound.keepsQuotes, bind_ok (skip_eq 2 r)]
  · rw [if_neg h]
    simp only [h, bind_ok (skip_eq 2 r)]
    rfl

theorem parts_quote (hr : r.IsPlain) (hrest : r.rest = c :: cs) (hc : c ∉ ['\\', '"', '$', '`']) :
    parts (n + 2) .quote r = (consQuoted c <$> parts n .quote) (r.advance 1) := by
  obtain ⟨hslash, hdouble, hdollar, hback⟩ : c ≠ '\\' ∧ c ≠ '"' ∧ c ≠ '$' ∧ c ≠ '`' := by simpa using hc
  have hparts : parts (n + 2) .quote r = ordinary (n + 1) .quote r := by
    rw [parts, bind_ok (dialect_eq hr), bind_ok (rest_eq r), hrest]
    simp [hslash, hdouble]
  rw [hparts, ordinary, bind_ok (dialect_eq hr), bind_ok (rest_eq r), hrest]
  by_cases hsingle : c = '\''
  · subst hsingle
    simp [Bound.inQuotes, bind_ok (skip_eq 1 r)]
  · simp only [hdollar, false_implies, implies_true, reduceCtorEq, ↓reduceIte, false_and, and_false, Bound.inQuotes,
    bind_pure_comp]
    rw [bind_ok (get_eq r), bind_ok (skip_eq 1 r)]

theorem escapeQuotes_cons (c : Char) (cs : Octets) :
    escapeQuotes (c :: cs) = (if c = '"' then ['\\', '"'] else [c]) ++ escapeQuotes cs := List.flatMap_cons

theorem escapeQuotes_append (cs ds : Octets) : escapeQuotes (cs ++ ds) = escapeQuotes cs ++ escapeQuotes ds :=
  List.flatMap_append

theorem escapeQuotes_of_not_mem (h : '"' ∉ cs) : escapeQuotes cs = cs := by
  induction cs with
  | nil => rfl
  | cons c cs ih =>
      rw [List.mem_cons, not_or] at h
      rw [escapeQuotes_cons, if_neg (Ne.symm h.1), ih h.2, List.singleton_append]

theorem parts_quotable (hr : r.IsPlain) (hrest : r.rest = escapeQuotes w ++ '"' :: more) (hw : isQuotable w)
    (hn : 2 * (escapeQuotes w).length + 1 ≤ n) :
    parts n .quote r = .ok (quotedWord w, r.advance ((escapeQuotes w).length + 1)) := by
  -- The induction follows how the text is read: a backslash passes together with the character behind it.
  induction w using isQuotable.induct generalizing r n with
  | case1 =>
      obtain ⟨n, rfl⟩ := Nat.exists_eq_add_of_le' (m := 1) (by omega : 1 ≤ n)
      rw [parts_quote_end hr hrest]
      rfl
  | case2 => simp [isQuotable] at hw
  | case3 c cs ih =>
      rw [isQuotable, Bool.and_eq_true] at hw
      obtain ⟨hc, hcs⟩ := hw
      obtain ⟨hdollar, hback, hdouble, hslash, hnewline, -⟩ :
          c ≠ '$' ∧ c ≠ '`' ∧ c ≠ '"' ∧ c ≠ '\\' ∧ c ≠ '\n' ∧ c ≠ '\x00' := by simpa using hc
      have htext : escapeQuotes ('\\' :: c :: cs) = '\\' :: c :: escapeQuotes cs := by
        simp [escapeQuotes_cons, hdouble]
      rw [htext] at hrest hn ⊢
      simp only [List.length_cons] at hn
      obtain ⟨n, rfl⟩ := Nat.exists_eq_add_of_le' (m := 1) (by omega : 1 ≤ n)
      have hread := ih (r := r.advance 2) (n := n) (hr.advance 2) (by simp [hrest]) hcs (by omega)
      rw [parts_quote_escape hr hrest hnewline, if_neg (by simp [hdollar, hback, hdouble, hslash]), map_ok _ hread,
        Function.comp_apply, consQuoted_quotedWord, consQuoted_quotedWord, Reader.advance_advance]
      congr 3
      simp only [List.length_cons]
      omega
  | case4 c cs hlast hpair ih =>
      have hbackslash : c ≠ '\\' := by
        rintro rfl
        cases cs with
        | nil => exact hlast rfl rfl
        | cons d ds => exact hpair d ds rfl rfl
      rw [isQuotable_cons hbackslash, Bool.and_eq_true] at hw
      obtain ⟨hc, hcs⟩ := hw
      obtain ⟨hdollar, hback, -⟩ : c ≠ '$' ∧ c ≠ '`' ∧ c ≠ '\x00' := by simpa using hc
      rw [escapeQuotes_cons] at hrest hn ⊢
      by_cases hdouble : c = '"'
      · rw [if_pos hdouble] at hrest hn ⊢
        simp only [List.length_append, List.length_cons, List.length_nil] at hn
        obtain ⟨n, rfl⟩ := Nat.exists_eq_add_of_le' (m := 1) (by omega : 1 ≤ n)
        have hread := ih (r := r.advance 2) (n := n) (hr.advance 2) (by simp [hrest]) hcs (by omega)
        rw [parts_quote_escape hr (by simpa using hrest) (by decide), if_pos (by decide), map_ok _ hread,
          consQuoted_quotedWord, Reader.advance_advance, hdouble, List.length_append, Nat.add_assoc]
        rfl
      · rw [if_neg hdouble] at hrest hn ⊢
        simp only [List.length_append, List.length_cons, List.length_nil] at hn
        obtain ⟨n, rfl⟩ := Nat.exists_eq_add_of_le' (m := 2) (by omega : 2 ≤ n)
        have hread := ih (r := r.advance 1) (n := n) (hr.advance 1) (by simp [hrest]) hcs (by omega)
        rw [parts_quote hr (by simpa using hrest) (by simp [hbackslash, hdouble, hdollar, hback]), map_ok _ hread,
          consQuoted_quotedWord, Reader.advance_advance, List.length_append, Nat.add_assoc]
        rfl

/-- `text` is a way to write the word `w`, and `p` is what it is read as. -/
inductive Spells : (text : Octets) → (p : Part) → (w : Octets) → Prop where
  | bare {w : Octets} (ne_nil : w ≠ []) (inert : ∀ c ∈ w, isInert c) (head : w.head? ∉ [some '#', some '~']) :
      Spells w (.plain w) w
  | quoted {w : Octets} (quotable : isQuotable w) : Spells ('"' :: escapeQuotes w ++ ['"']) (.quoted w) w

namespace Spells

variable {text : Octets} {p : Part}

theorem exists_eq_cons (h : Spells text p w) : ∃ c cs, text = c :: cs ∧ isSolid c ∧ isMeta c = false := by
  cases h with
  | bare hne hinert hhead =>
      cases w with
      | nil => exact absurd rfl hne
      | cons c cs =>
          have hc := hinert c List.mem_cons_self
          refine ⟨c, cs, rfl, ?_, ?_⟩ <;> simp_all [isInert, isSolid, isMeta]
  | quoted => exact ⟨_, _, rfl, by decide, by decide⟩

theorem parts_eq (h : Spells text p w) (hr : r.IsPlain) (hrest : r.rest = text ++ d :: more)
    (hd : d = ' ' ∨ d = '\n') (hn : 2 * text.length + 4 ≤ n) :
    parts n .operator r = .ok ([p], r.advance text.length) := by
  obtain ⟨hmeta, hparen⟩ : isMeta d ∧ d ≠ '(' := by rcases hd with rfl | rfl <;> decide
  cases h with
  | bare hne hinert =>
      have hread := parts_bare (n := n) hr hrest hinert hmeta hparen (by omega)
      rwa [plainWord, if_neg hne] at hread
  | quoted hw =>
      obtain ⟨n, rfl⟩ := Nat.exists_eq_add_of_le' (m := 2) (by omega : 2 ≤ n)
      simp only [List.length_append, List.length_cons, List.length_nil] at hn
      have hopen : parts (n + 2) .operator r = ordinary (n + 1) .operator r := by
        rw [parts, bind_ok (dialect_eq hr), bind_ok (rest_eq r), hrest]
        rfl
      have hbody : (r.advance 1).rest = escapeQuotes w ++ '"' :: d :: more := by simp [hrest]
      have hend : (r.advance (1 + ((escapeQuotes w).length + 1))).rest = [] ++ d :: more := by
        simp [hrest, Nat.add_comm 1]
      have hinside := parts_quotable (n := n) (hr.advance 1) hbody hw (by omega)
      have hclose := parts_bare (n := n) (hr.advance _) hend (by simp) hmeta hparen (by simp; omega)
      have hword : (if quotedWord w = [] then [.quoted []] else quotedWord w) ++ plainWord [] = [.quoted w] := by
        cases w <;> simp [quotedWord, plainWord]
      rw [hopen, ordinary, bind_ok (dialect_eq hr), bind_ok (rest_eq r), hrest]
      simp only [List.cons_append, Bound.keepsQuotes, Bool.false_eq_true, ↓reduceIte, List.isEmpty_iff,
        bind_pure_comp]
      rw [bind_ok (skip_eq 1 r), bind_ok (awaiting_ok _ hinside), Reader.advance_advance, map_ok _ hclose, hword,
        Reader.advance_advance]
      simp [Nat.add_comm 1]

end Spells

/-- A word with the way it is written. -/
structure Spelling where
  text : Octets
  part : Part
  word : Octets
  spells : Spells text part word

end CMakeHelm.Sh.Grammar
