import CMakeHelm.Data
import CMakeHelm.Proofs.Text.Lines
import Mathlib

namespace CMakeHelm.Json

variable {cs cs' rest rest' w w' out out' : List Char} {c c' : Char} {d d' : Data}

def isSpace (c : Char) : Bool := c == ' ' || c == '\t' || c == '\n' || c == '\r'

def skip (cs : List Char) : List Char := cs.dropWhile isSpace

theorem skip_cons_of_not (h : isSpace c = false) (cs : List Char) : skip (c :: cs) = c :: cs :=
  List.dropWhile_cons_of_neg (by simp [h])

def IsDigits (cs : List Char) : Prop := cs ≠ [] ∧ ∀ c ∈ cs, c.isDigit = true

/-- A sign, a whole part without zeros in front, a fraction and an exponent. Only the whole part has to be there. -/
def IsNumeral (cs : List Char) : Prop :=
  ∃ sign whole fraction exponent, cs = sign ++ whole ++ fraction ++ exponent ∧ sign ∈ [[], ['-']] ∧
    IsDigits whole ∧ (whole.head? = some '0' → whole = ['0']) ∧
    (fraction = [] ∨ ∃ ds, fraction = '.' :: ds ∧ IsDigits ds) ∧
    (exponent = [] ∨ ∃ e sign ds, exponent = e :: sign ++ ds ∧ e ∈ ['e', 'E'] ∧ sign ∈ [[], ['+'], ['-']] ∧ IsDigits ds)

def isNumeralChar (c : Char) : Bool := c.isDigit || c ∈ ['+', '-', '.', 'e', 'E']

theorem IsNumeral.ne_nil (h : IsNumeral cs) : cs ≠ [] := by
  obtain ⟨sign, whole, fraction, exponent, rfl, -, ⟨hwhole, -⟩, -⟩ := h
  simp [hwhole]

theorem IsNumeral.isNumeralChar (h : IsNumeral cs) (hc : c ∈ cs) : isNumeralChar c = true := by
  have hdigits : ∀ ds : List Char, IsDigits ds → c ∈ ds → Json.isNumeralChar c = true := by
    intro ds hds hm
    simp [Json.isNumeralChar, hds.2 c hm]
  obtain ⟨sign, whole, fraction, exponent, rfl, hsign, hwhole, -, hfraction, hexponent⟩ := h
  simp only [List.mem_append] at hc
  rcases hc with ((hc | hc) | hc) | hc
  · simp only [List.mem_cons, List.not_mem_nil, or_false] at hsign
    rcases hsign with rfl | rfl
    · cases hc
    · obtain rfl := List.mem_singleton.1 hc
      rfl
  · exact hdigits whole hwhole hc
  · rcases hfraction with rfl | ⟨ds, rfl, hds⟩
    · cases hc
    · rcases List.mem_cons.1 hc with rfl | hc
      · rfl
      · exact hdigits ds hds hc
  · rcases hexponent with rfl | ⟨e, sign, ds, rfl, he, hsign, hds⟩
    · cases hc
    · simp only [List.mem_cons, List.not_mem_nil, or_false] at he hsign
      rcases List.mem_append.1 hc with hc | hc
      · rcases he with rfl | rfl <;> rcases hsign with rfl | rfl | rfl <;>
          simp only [List.mem_cons, List.not_mem_nil, or_false] at hc <;> rcases hc with rfl | rfl <;> rfl
      · exact hdigits ds hds hc

theorem not_isNumeral_cons (h : isNumeralChar c = false) : ¬ IsNumeral ((c :: cs).takeWhile isNumeralChar) := by
  intro hn
  exact hn.ne_nil (List.takeWhile_cons_of_neg (by simp [h]))

def hexValue? (c : Char) : Option Nat :=
  if '0' ≤ c ∧ c ≤ '9' then some (c.toNat - 48)
  else if 'a' ≤ c ∧ c ≤ 'f' then some (c.toNat - 87)
  else if 'A' ≤ c ∧ c ≤ 'F' then some (c.toNat - 55)
  else none

def unit? : List Char → Option Nat
  | [c₃, c₂, c₁, c₀] => do
    return ((← hexValue? c₃) * 16 + (← hexValue? c₂)) * 256 + (← hexValue? c₁) * 16 + (← hexValue? c₀)
  | _ => none

theorem length_of_unit? {n : Nat} (h : unit? cs = some n) : cs.length = 4 := by
  unfold unit? at h
  split at h
  · rfl
  · cases h

def escapes : List (Char × Char) :=
  [('"', '"'), ('\\', '\\'), ('/', '/'), ('b', '\x08'), ('f', '\x0c'), ('n', '\n'), ('r', '\r'), ('t', '\t')]

def paired (high low : Nat) : Char := Char.ofNat (0x10000 + (high - 0xD800) * 0x400 + (low - 0xDC00))

/-- How a character may be written in a string. One beyond four digits takes two units, which stand for nothing by
themselves. -/
inductive Spelled : List Char → Char → Prop
  | plain {c : Char} (hquote : c ≠ '"') (hslash : c ≠ '\\') (hcontrol : 0x20 ≤ c.toNat) : Spelled [c] c
  | escape {e c : Char} (h : escapes.lookup e = some c) : Spelled ['\\', e] c
  | unit {ds : List Char} {n : Nat} (h : unit? ds = some n) (hn : n < 0xD800 ∨ 0xE000 ≤ n) :
      Spelled ('\\' :: 'u' :: ds) (Char.ofNat n)
  | pair {ds es : List Char} {high low : Nat} (hds : unit? ds = some high) (hes : unit? es = some low)
      (hhigh : 0xD800 ≤ high ∧ high < 0xDC00) (hlow : 0xDC00 ≤ low ∧ low < 0xE000) :
      Spelled ('\\' :: 'u' :: (ds ++ '\\' :: 'u' :: es)) (paired high low)

theorem Spelled.ne_quote (h : Spelled w c) : ∃ x xs, w = x :: xs ∧ x ≠ '"' := by
  cases h with
  | plain hquote => exact ⟨_, _, rfl, hquote⟩
  | _ => exact ⟨_, _, rfl, by decide⟩

theorem ne_of_lookup_escapes {e : Char} (h : escapes.lookup e = some c) : e ≠ 'u' := by
  rintro rfl
  cases (by decide : escapes.lookup 'u' = none).symm.trans h

theorem Spelled.unique (h : Spelled w c) (h' : Spelled w' c') (he : w ++ cs = w' ++ cs') : c = c' ∧ cs = cs' := by
  have hunits {ds ds' : List Char} {n n' : Nat} {xs xs' : List Char} (hds : unit? ds = some n)
      (hds' : unit? ds' = some n') (he : ds ++ xs = ds' ++ xs') : n = n' ∧ xs = xs' := by
    obtain ⟨rfl, rfl⟩ := List.append_inj he ((length_of_unit? hds).trans (length_of_unit? hds').symm)
    exact ⟨Option.some.inj (hds.symm.trans hds'), rfl⟩
  -- A backslash tells what is escaped from what is not, `u` behind it the units from the rest, and a unit by itself is
  -- never half of a pair.
  cases h with
  | plain hquote hslash hcontrol =>
      cases h' with
      | plain => simpa using he
      | _ => exact absurd (List.cons.inj he).1 hslash
  | escape h =>
      cases h' with
      | plain hquote hslash => exact absurd (List.cons.inj he).1.symm hslash
      | escape h' =>
          simp only [List.cons_append, List.nil_append, List.cons.injEq, true_and] at he
          obtain ⟨rfl, rfl⟩ := he
          exact ⟨Option.some.inj (h.symm.trans h'), rfl⟩
      | _ => exact absurd (List.cons.inj (List.cons.inj he).2).1 (ne_of_lookup_escapes h)
  | unit h hn =>
      cases h' with
      | plain hquote hslash => exact absurd (List.cons.inj he).1.symm hslash
      | escape h' => exact absurd (List.cons.inj (List.cons.inj he).2).1.symm (ne_of_lookup_escapes h')
      | unit h' =>
          obtain ⟨rfl, rfl⟩ := hunits h h' (List.cons.inj (List.cons.inj he).2).2
          exact ⟨rfl, rfl⟩
      | pair hds hes hhigh =>
          simp only [List.cons_append, List.cons.injEq, true_and, List.append_assoc] at he
          obtain ⟨rfl, -⟩ := hunits h hds he
          omega
  | pair hds hes hhigh =>
      cases h' with
      | plain hquote hslash => exact absurd (List.cons.inj he).1.symm hslash
      | escape h' => exact absurd (List.cons.inj (List.cons.inj he).2).1.symm (ne_of_lookup_escapes h')
      | unit h' hn =>
          simp only [List.cons_append, List.cons.injEq, true_and, List.append_assoc] at he
          obtain ⟨rfl, -⟩ := hunits hds h' he
          omega
      | pair hds' hes' =>
          simp only [List.cons_append, List.cons.injEq, true_and, List.append_assoc] at he
          obtain ⟨rfl, he⟩ := hunits hds hds' he
          obtain ⟨rfl, rfl⟩ := hunits hes hes' (List.cons.inj (List.cons.inj he).2).2
          exact ⟨rfl, rfl⟩

inductive Letters : List Char → List Char → List Char → Prop
  | close (rest : List Char) : Letters ('"' :: rest) [] rest
  | letter {w cs out rest : List Char} {c : Char} (hw : Spelled w c) (h : Letters cs out rest) :
      Letters (w ++ cs) (c :: out) rest

theorem Letters.unique (h : Letters cs out rest) (h' : Letters cs out' rest') : out = out' ∧ rest = rest' := by
  induction h generalizing out' rest' with
  | close rest =>
      generalize hx : '"' :: rest = x at h'
      cases h' with
      | close => exact ⟨rfl, (List.cons.inj hx).2⟩
      | letter hw =>
          obtain ⟨y, ys, rfl, hy⟩ := hw.ne_quote
          exact absurd (List.cons.inj hx).1.symm hy
  | @letter w cs out rest c hw h ih =>
      generalize hx : w ++ cs = x at h'
      cases h' with
      | close =>
          obtain ⟨y, ys, rfl, hy⟩ := hw.ne_quote
          exact absurd (List.cons.inj hx).1 hy
      | letter hw' h' =>
          obtain ⟨rfl, rfl⟩ := hw.unique hw' hx
          obtain ⟨rfl, rfl⟩ := ih h'
          exact ⟨rfl, rfl⟩

def Label (cs name rest : List Char) : Prop :=
  ∃ letters after, skip cs = '"' :: letters ∧ Letters letters name after ∧ skip after = ':' :: rest

inductive Part where
  | value
  | items
  | fields
deriving DecidableEq

/-- The text opens with a part that says these data, and then has `rest`. A numeral goes on as long as it can. -/
inductive Reads : Part → List Char → Data → List Char → Prop
  | null (rest : List Char) : Reads .value ('n' :: 'u' :: 'l' :: 'l' :: rest) .null rest
  | yes (rest : List Char) : Reads .value ('t' :: 'r' :: 'u' :: 'e' :: rest) (.flag true) rest
  | no (rest : List Char) : Reads .value ('f' :: 'a' :: 'l' :: 's' :: 'e' :: rest) (.flag false) rest
  | number {cs : List Char} (h : IsNumeral (cs.takeWhile isNumeralChar)) :
      Reads .value cs (.number (String.ofList (cs.takeWhile isNumeralChar))) (cs.dropWhile isNumeralChar)
  | text {cs out rest : List Char} (h : Letters cs out rest) : Reads .value ('"' :: cs) (.text (String.ofList out)) rest
  | noItems {cs rest : List Char} (h : skip cs = ']' :: rest) : Reads .value ('[' :: cs) (.list []) rest
  | list {cs rest : List Char} {d : Data} (h : Reads .items cs d rest) : Reads .value ('[' :: cs) d rest
  | noFields {cs rest : List Char} (h : skip cs = '}' :: rest) : Reads .value ('{' :: cs) (.table []) rest
  | table {cs rest : List Char} {d : Data} (h : Reads .fields cs d rest) : Reads .value ('{' :: cs) d rest
  | lastItem {cs after rest : List Char} {d : Data} (h : Reads .value (skip cs) d after)
      (hend : skip after = ']' :: rest) : Reads .items cs (.list [d]) rest
  | item {cs after more rest : List Char} {d : Data} {ds : List Data} (h : Reads .value (skip cs) d after)
      (hmore : skip after = ',' :: more) (hrest : Reads .items more (.list ds) rest) :
      Reads .items cs (.list (d :: ds)) rest
  | lastField {cs name cs' after rest : List Char} {d : Data} (hname : Label cs name cs')
      (h : Reads .value (skip cs') d after) (hend : skip after = '}' :: rest) :
      Reads .fields cs (.table [(String.ofList name, d)]) rest
  | field {cs name cs' after more rest : List Char} {d : Data} {fields : List (String × Data)}
      (hname : Label cs name cs') (h : Reads .value (skip cs') d after) (hmore : skip after = ',' :: more)
      (hrest : Reads .fields more (.table fields) rest) :
      Reads .fields cs (.table ((String.ofList name, d) :: fields)) rest

theorem Label.unique {name name' : List Char} (h : Label cs name rest) (h' : Label cs name' rest') :
    name = name' ∧ rest = rest' := by
  obtain ⟨letters, after, hopen, hletters, hcolon⟩ := h
  obtain ⟨letters', after', hopen', hletters', hcolon'⟩ := h'
  obtain rfl : letters = letters' := (List.cons.inj (hopen.symm.trans hopen')).2
  obtain ⟨rfl, rfl⟩ := hletters.unique hletters'
  exact ⟨rfl, (List.cons.inj (hcolon.symm.trans hcolon')).2⟩

theorem not_reads_closing (h : c = ']' ∨ c = '}') : ¬ Reads .value (c :: cs) d rest := by
  intro hr
  have hc : isNumeralChar c = false := by rcases h with rfl | rfl <;> decide
  cases hr with
  | number hn => exact not_isNumeral_cons hc hn
  | _ => simp at h

theorem not_reads_items_of_skip (hend : skip cs = ']' :: rest') : ¬ Reads .items cs d rest := by
  intro hr
  cases hr with
  | lastItem h => exact not_reads_closing (.inl rfl) (hend ▸ h)
  | item h => exact not_reads_closing (.inl rfl) (hend ▸ h)

theorem not_reads_fields_of_skip (hend : skip cs = '}' :: rest') : ¬ Reads .fields cs d rest := by
  have hlabel {name rest : List Char} : ¬ Label cs name rest := by
    rintro ⟨letters, after, hopen, -⟩
    cases hend.symm.trans hopen
  intro hr
  cases hr with
  | lastField hname => exact hlabel hname
  | field hname => exact hlabel hname

theorem Reads.of_numeral (hn : IsNumeral (cs.takeWhile isNumeralChar)) (h : Reads .value cs d rest) :
    d = .number (String.ofList (cs.takeWhile isNumeralChar)) ∧ rest = cs.dropWhile isNumeralChar := by
  cases h with
  | number => exact ⟨rfl, rfl⟩
  | _ => exact absurd hn (not_isNumeral_cons (by decide))

variable {p : Part}

/-- A text opens with at most one value. -/
theorem Reads.unique (h : Reads p cs d rest) (h' : Reads p cs d' rest') : d = d' ∧ rest = rest' := by
  -- The first character tells the forms of a value apart, and what follows an item or a field whether there is more.
  induction h generalizing d' rest' with
  | null | yes | no =>
      cases h' with
      | number hn => exact absurd hn (not_isNumeral_cons (by decide))
      | _ => exact ⟨rfl, rfl⟩
  | number hn =>
      obtain ⟨rfl, rfl⟩ := h'.of_numeral hn
      exact ⟨rfl, rfl⟩
  | text h =>
      cases h' with
      | number hn => exact absurd hn (not_isNumeral_cons (by decide))
      | text h' =>
          obtain ⟨rfl, rfl⟩ := h.unique h'
          exact ⟨rfl, rfl⟩
  | noItems h =>
      cases h' with
      | number hn => exact absurd hn (not_isNumeral_cons (by decide))
      | noItems h' => exact ⟨rfl, (List.cons.inj (h.symm.trans h')).2⟩
      | list h' => exact absurd h' (not_reads_items_of_skip h)
  | list h ih =>
      cases h' with
      | number hn => exact absurd hn (not_isNumeral_cons (by decide))
      | noItems h' => exact absurd h (not_reads_items_of_skip h')
      | list h' => exact ih h'
  | noFields h =>
      cases h' with
      | number hn => exact absurd hn (not_isNumeral_cons (by decide))
      | noFields h' => exact ⟨rfl, (List.cons.inj (h.symm.trans h')).2⟩
      | table h' => exact absurd h' (not_reads_fields_of_skip h)
  | table h ih =>
      cases h' with
      | number hn => exact absurd hn (not_isNumeral_cons (by decide))
      | noFields h' => exact absurd h (not_reads_fields_of_skip h')
      | table h' => exact ih h'
  | lastItem h hend ih =>
      cases h' with
      | lastItem h' hend' =>
          obtain ⟨rfl, rfl⟩ := ih h'
          exact ⟨rfl, (List.cons.inj (hend.symm.trans hend')).2⟩
      | item h' hmore' =>
          obtain ⟨rfl, rfl⟩ := ih h'
          cases hend.symm.trans hmore'
  | item h hmore hrest ih ihrest =>
      cases h' with
      | lastItem h' hend' =>
          obtain ⟨rfl, rfl⟩ := ih h'
          cases hmore.symm.trans hend'
      | item h' hmore' hrest' =>
          obtain ⟨rfl, rfl⟩ := ih h'
          cases hmore.symm.trans hmore'
          obtain ⟨hds, rfl⟩ := ihrest hrest'
          cases hds
          exact ⟨rfl, rfl⟩
  | lastField hname h hend ih =>
      cases h' with
      | lastField hname' h' hend' =>
          obtain ⟨rfl, rfl⟩ := hname.unique hname'
          obtain ⟨rfl, rfl⟩ := ih h'
          exact ⟨rfl, (List.cons.inj (hend.symm.trans hend')).2⟩
      | field hname' h' hmore' =>
          obtain ⟨rfl, rfl⟩ := hname.unique hname'
          obtain ⟨rfl, rfl⟩ := ih h'
          cases hend.symm.trans hmore'
  | field hname h hmore hrest ih ihrest =>
      cases h' with
      | lastField hname' h' hend' =>
          obtain ⟨rfl, rfl⟩ := hname.unique hname'
          obtain ⟨rfl, rfl⟩ := ih h'
          cases hmore.symm.trans hend'
      | field hname' h' hmore' hrest' =>
          obtain ⟨rfl, rfl⟩ := hname.unique hname'
          obtain ⟨rfl, rfl⟩ := ih h'
          cases hmore.symm.trans hmore'
          obtain ⟨hfields, rfl⟩ := ihrest hrest'
          cases hfields
          exact ⟨rfl, rfl⟩

/-- The text as a whole is a value, with spaces around it. -/
def Says (cs : List Char) (d : Data) : Prop := ∃ rest, Reads .value (skip cs) d rest ∧ skip rest = []

theorem Says.unique (h : Says cs d) (h' : Says cs d') : d = d' := by
  obtain ⟨rest, hr, -⟩ := h
  obtain ⟨rest', hr', -⟩ := h'
  exact (hr.unique hr').1

def IsObject (cs : List Char) : Prop := ∃ fields, Says cs (.table fields)

theorem IsObject.exists_skip_eq (h : IsObject cs) : ∃ more, skip cs = '{' :: more ∧ more ≠ [] := by
  obtain ⟨fields, rest, hr, -⟩ := h
  generalize skip cs = x at hr
  generalize hd : Data.table fields = d at hr
  cases hr with
  | noFields h => exact ⟨_, rfl, by rintro rfl; cases h⟩
  | table h =>
      refine ⟨_, rfl, ?_⟩
      rintro rfl
      cases h with
      | lastField hname => obtain ⟨_, _, hopen, -⟩ := hname; cases hopen
      | field hname => obtain ⟨_, _, hopen, -⟩ := hname; cases hopen
  | list h => cases h <;> cases hd
  | _ => cases hd

theorem hexValue?_hexDigit : ∀ n < 16, hexValue? (Data.hexDigit n) = some n := by decide

theorem spelled_escape (c : Char) : Spelled (Data.escape c) c := by
  unfold Data.escape
  split_ifs with hquote hslash hb ht hn hf hr hcontrol
  · subst hquote
    exact .escape rfl
  · subst hslash
    exact .escape rfl
  · subst hb
    exact .escape rfl
  · subst ht
    exact .escape rfl
  · subst hn
    exact .escape rfl
  · subst hf
    exact .escape rfl
  · subst hr
    exact .escape rfl
  · have hunit : unit? ['0', '0', Data.hexDigit (c.toNat / 16), Data.hexDigit (c.toNat % 16)] = some c.toNat := by
      have hzero : hexValue? '0' = some 0 := rfl
      simp only [unit?, hzero, hexValue?_hexDigit _ (by omega : c.toNat / 16 < 16),
        hexValue?_hexDigit _ (by omega : c.toNat % 16 < 16), Option.bind_eq_bind, Option.bind_some]
      exact congrArg some (by omega)
    have hspelled := Spelled.unit hunit (.inl (by omega))
    rwa [Char.ofNat_toNat] at hspelled
  · exact .plain hquote hslash (by omega)

theorem letters_escape (cs rest : List Char) : Letters (cs.flatMap Data.escape ++ '"' :: rest) cs rest := by
  induction cs with
  | nil => exact .close rest
  | cons c cs ih =>
      rw [List.flatMap_cons, List.append_assoc]
      exact .letter (spelled_escape c) ih

theorem quoted_append (s : String) (rest : List Char) :
    Data.quoted s ++ rest = '"' :: (s.toList.flatMap Data.escape ++ '"' :: rest) := by
  simp [Data.quoted]

theorem label_quoted (name : String) (rest : List Char) : Label (Data.quoted name ++ ':' :: rest) name.toList rest := by
  refine ⟨_, _, ?_, letters_escape name.toList (':' :: rest), skip_cons_of_not rfl rest⟩
  rw [quoted_append]
  exact skip_cons_of_not rfl _

theorem reads_quoted (s : String) (rest : List Char) : Reads .value (Data.quoted s ++ rest) (.text s) rest := by
  have hreads := Reads.text (letters_escape s.toList rest)
  rwa [String.ofList_toList, ← quoted_append] at hreads

theorem Reads.skip_eq (h : Reads .value cs d rest) : skip cs = cs := by
  cases h with
  | number hn =>
      cases cs with
      | nil => rfl
      | cons c cs =>
          have hc : isNumeralChar c = true := by
            by_contra hnot
            exact not_isNumeral_cons (Bool.eq_false_iff.2 hnot) hn
          refine skip_cons_of_not (Bool.eq_false_iff.2 fun hspace => ?_) cs
          simp only [isSpace, Bool.or_eq_true, beq_iff_eq] at hspace
          rcases hspace with ((rfl | rfl) | rfl) | rfl <;> cases hc
  | _ => exact skip_cons_of_not (by decide) _

inductive IsJson : Data → Prop
  | null : IsJson .null
  | flag (b : Bool) : IsJson (.flag b)
  | number {numeral : String} (h : IsNumeral numeral.toList) : IsJson (.number numeral)
  | text (s : String) : IsJson (.text s)
  | list {items : List Data} (h : ∀ d ∈ items, IsJson d) : IsJson (.list items)
  | table {fields : List (String × Data)} (h : ∀ f ∈ fields, IsJson f.2) : IsJson (.table fields)

/-- Where the text behind it does not go on with a numeral, the data are read back. -/
def IsReadBack (d : Data) : Prop :=
  ∀ rest : List Char, (∀ c ∈ rest.head?, isNumeralChar c = false) → Reads .value (d.compactChars ++ rest) d rest

theorem IsReadBack.before (h : IsReadBack d) (hc : isNumeralChar c = false) (rest : List Char) :
    Reads .value (skip (d.compactChars ++ c :: rest)) d (c :: rest) := by
  have hreads := h (c :: rest) (by simpa using hc)
  rwa [hreads.skip_eq]

theorem reads_compactItems {items : List Data} (hd : IsReadBack d) (hitems : ∀ d ∈ items, IsReadBack d)
    (rest : List Char) :
    Reads .items (d.compactChars ++ (Data.compactItems items ++ ']' :: rest)) (.list (d :: items)) rest := by
  induction items generalizing d with
  | nil =>
      rw [Data.compactItems, List.nil_append]
      exact .lastItem (hd.before rfl rest) (skip_cons_of_not rfl rest)
  | cons d' items ih =>
      obtain ⟨hd', hitems⟩ := List.forall_mem_cons.1 hitems
      rw [Data.compactItems, List.cons_append, List.cons_append, List.append_assoc]
      exact .item (hd.before rfl _) (skip_cons_of_not rfl _) (ih hd' hitems)

theorem reads_compactFields (name : String) {fields : List (String × Data)} (hd : IsReadBack d)
    (hfields : ∀ f ∈ fields, IsReadBack f.2) (rest : List Char) :
    Reads .fields (Data.quoted name ++ ':' :: (d.compactChars ++ (Data.compactFields fields ++ '}' :: rest)))
      (.table ((name, d) :: fields)) rest := by
  induction fields generalizing name d with
  | nil =>
      have hlast := Reads.lastField (label_quoted name _) (hd.before rfl rest) (skip_cons_of_not rfl rest)
      rwa [String.ofList_toList] at hlast
  | cons f fields ih =>
      obtain ⟨hf, hfields⟩ := List.forall_mem_cons.1 hfields
      have hrest := ih f.1 hf hfields
      have hfield := Reads.field (label_quoted name _) (hd.before rfl _) (skip_cons_of_not rfl _) hrest
      rw [String.ofList_toList] at hfield
      simpa [Data.compactFields] using hfield

theorem IsJson.isReadBack (h : IsJson d) : IsReadBack d := by
  induction h with
  | null => exact fun rest _ => .null rest
  | flag b =>
      intro rest _
      cases b
      · exact .no rest
      · exact .yes rest
  | @number numeral h =>
      intro rest hrest
      -- The numeral ends where the text behind it begins.
      have hnot : ∀ c ∈ rest.head?, ¬ isNumeralChar c = true := fun c hc => by simp [hrest c hc]
      have hall : ∀ c ∈ numeral.toList, isNumeralChar c = true := fun c hc => h.isNumeralChar hc
      have htake : (numeral.toList ++ rest).takeWhile isNumeralChar = numeral.toList := by
        rw [List.takeWhile_append_of_pos hall]
        cases rest <;> simp_all
      have hdrop : (numeral.toList ++ rest).dropWhile isNumeralChar = rest := by
        rw [List.dropWhile_append_of_pos hall]
        cases rest <;> simp_all
      have hreads := Reads.number (htake ▸ h)
      rwa [htake, hdrop, String.ofList_toList] at hreads
  | text s => exact fun rest _ => reads_quoted s rest
  | @list items h ih =>
      intro rest _
      cases items with
      | nil => exact .noItems (skip_cons_of_not rfl rest)
      | cons d items =>
          obtain ⟨hd, hitems⟩ := List.forall_mem_cons.1 ih
          have hreads := Reads.list (reads_compactItems hd hitems rest)
          simpa [Data.compactChars] using hreads
  | @table fields h ih =>
      intro rest _
      cases fields with
      | nil => exact .noFields (skip_cons_of_not rfl rest)
      | cons f fields =>
          obtain ⟨hf, hfields⟩ := List.forall_mem_cons.1 ih
          have hreads := Reads.table (reads_compactFields f.1 hf hfields rest)
          simpa [Data.compactChars] using hreads

theorem says_compact_iff (h : IsJson d) : Says d.compact.toList d' ↔ d' = d := by
  have hsays : Says d.compact.toList d := by
    have hreads := h.isReadBack [] (by simp)
    rw [List.append_nil] at hreads
    refine ⟨[], ?_, rfl⟩
    rwa [Data.compact, String.toList_ofList, hreads.skip_eq]
  constructor
  · exact fun h' => h'.unique hsays
  · rintro rfl
    exact hsays

def texts (fields : List (String × String)) : Data := .table (fields.map fun f => (f.1, .text f.2))

theorem isJson_texts (fields : List (String × String)) : IsJson (texts fields) := by
  refine .table fun f hf => ?_
  obtain ⟨g, -, rfl⟩ := List.mem_map.1 hf
  exact .text g.2

theorem isObject_texts (fields : List (String × String)) : IsObject (texts fields).compact.toList :=
  ⟨_, (says_compact_iff (isJson_texts fields)).2 rfl⟩

def IsPlain (cs : List Char) : Prop := ∀ c ∈ cs, 0x20 ≤ c.toNat

theorem isPlain_append : IsPlain (cs ++ cs') ↔ IsPlain cs ∧ IsPlain cs' := List.forall_mem_append

theorem isPlain_cons : IsPlain (c :: cs) ↔ 0x20 ≤ c.toNat ∧ IsPlain cs := List.forall_mem_cons

theorem isPlain_nil : IsPlain [] := nofun

theorem IsPlain.lines_append (h : IsPlain cs) (more : List Char) :
    Text.lines (cs ++ '\n' :: more) = cs :: Text.lines more :=
  Text.lines_append_newline (fun hm => absurd (h _ hm) (by decide)) (fun hm => absurd (h _ hm) (by decide)) more

theorem isPlain_escape (c : Char) : IsPlain (Data.escape c) := by
  -- What is a control character is written in letters and digits.
  have hdigit : ∀ n < 16, 0x20 ≤ (Data.hexDigit n).toNat := by decide
  have hpair : ∀ e : Char, 0x20 ≤ e.toNat → IsPlain ['\\', e] := fun e he =>
    isPlain_cons.2 ⟨by decide, isPlain_cons.2 ⟨he, isPlain_nil⟩⟩
  unfold Data.escape
  split_ifs with hquote hslash hb ht hn hf hr hcontrol
  · exact hpair _ (by decide)
  · exact hpair _ (by decide)
  · exact hpair _ (by decide)
  · exact hpair _ (by decide)
  · exact hpair _ (by decide)
  · exact hpair _ (by decide)
  · exact hpair _ (by decide)
  · have hhigh := hdigit (c.toNat / 16) (by omega)
    have hlow := hdigit (c.toNat % 16) (by omega)
    simp [IsPlain, hhigh, hlow]
  · exact isPlain_cons.2 ⟨by omega, isPlain_nil⟩

theorem isPlain_quoted (s : String) : IsPlain (Data.quoted s) := by
  rw [Data.quoted, List.cons_append, isPlain_cons, isPlain_append]
  refine ⟨by decide, fun c hc => ?_, isPlain_cons.2 ⟨by decide, isPlain_nil⟩⟩
  obtain ⟨c', -, hc⟩ := List.mem_flatMap.1 hc
  exact isPlain_escape c' c hc

theorem IsNumeral.isPlain (h : IsNumeral cs) : IsPlain cs := by
  intro c hc
  have hchar := h.isNumeralChar hc
  simp only [Json.isNumeralChar, Bool.or_eq_true, Char.isDigit, Bool.and_eq_true, decide_eq_true_eq, List.mem_cons,
    List.not_mem_nil, or_false] at hchar
  rcases hchar with ⟨hlow, -⟩ | rfl | rfl | rfl | rfl | rfl
  · have hle : (48 : UInt32).toNat ≤ c.val.toNat := UInt32.le_iff_toNat_le.1 hlow
    have hval : c.toNat = c.val.toNat := rfl
    have h48 : (48 : UInt32).toNat = 48 := rfl
    omega
  all_goals decide

theorem isPlain_compactItems {items : List Data} (h : ∀ d ∈ items, IsPlain d.compactChars) :
    IsPlain (Data.compactItems items) := by
  induction items with
  | nil => exact isPlain_nil
  | cons d items ih =>
      obtain ⟨hd, hitems⟩ := List.forall_mem_cons.1 h
      rw [Data.compactItems, List.cons_append, isPlain_cons, isPlain_append]
      exact ⟨by decide, hd, ih hitems⟩

theorem isPlain_compactFields {fields : List (String × Data)} (h : ∀ f ∈ fields, IsPlain f.2.compactChars) :
    IsPlain (Data.compactFields fields) := by
  induction fields with
  | nil => exact isPlain_nil
  | cons f fields ih =>
      obtain ⟨hf, hfields⟩ := List.forall_mem_cons.1 h
      simp only [Data.compactFields, List.cons_append, List.append_assoc, isPlain_cons, isPlain_append]
      exact ⟨by decide, isPlain_quoted f.1, by decide, hf, ih hfields⟩

theorem IsJson.isPlain (h : IsJson d) : IsPlain d.compactChars := by
  induction h with
  | null => simp [Data.compactChars, IsPlain]
  | flag b => cases b <;> simp [Data.compactChars, IsPlain]
  | number h => exact h.isPlain
  | text s => exact isPlain_quoted s
  | @list items h ih =>
      cases items with
      | nil => simp [Data.compactChars, IsPlain]
      | cons d items =>
          obtain ⟨hd, hitems⟩ := List.forall_mem_cons.1 ih
          simp only [Data.compactChars, List.cons_append, List.append_assoc, isPlain_cons, isPlain_append]
          exact ⟨by decide, hd, isPlain_compactItems hitems, by decide, isPlain_nil⟩
  | @table fields h ih =>
      cases fields with
      | nil => simp [Data.compactChars, IsPlain]
      | cons f fields =>
          obtain ⟨hf, hfields⟩ := List.forall_mem_cons.1 ih
          simp only [Data.compactChars, List.cons_append, List.append_assoc, isPlain_cons, isPlain_append]
          exact ⟨by decide, isPlain_quoted f.1, by decide, hf, isPlain_compactFields hfields, by decide, isPlain_nil⟩

theorem lines_compact (h : IsJson d) : Text.lines (d.compact ++ "\n").toList = [d.compact.toList] := by
  rw [String.toList_append, Data.compact, String.toList_ofList]
  exact h.isPlain.lines_append []

def spreadLine (f : String × String) : List Char :=
  ' ' :: ' ' :: (Data.quoted f.1 ++ ':' :: ' ' :: Data.quoted f.2)

def spreadLines : List (String × String) → List (List Char)
  | [] => []
  | [f] => [spreadLine f]
  | f :: g :: fields => (spreadLine f ++ [',']) :: spreadLines (g :: fields)

theorem toList_spread (fields : List (String × String)) :
    (Data.spread fields).toList =
      '{' :: '\n' :: (List.intercalate [',', '\n'] (fields.map spreadLine) ++ ['\n', '}']) := by
  simp [Data.spread, String.toList_intercalate, Function.comp_def]
  rfl

theorem label_spreadLine (f : String × String) (more : List Char) :
    Label ('\n' :: (spreadLine f ++ more)) f.1.toList (' ' :: (Data.quoted f.2 ++ more)) := by
  obtain ⟨letters, after, hopen, hletters, hcolon⟩ := label_quoted f.1 (' ' :: (Data.quoted f.2 ++ more))
  have hspaces : skip ('\n' :: (spreadLine f ++ more)) =
      skip (Data.quoted f.1 ++ ':' :: ' ' :: (Data.quoted f.2 ++ more)) := by
    simp [spreadLine, skip, isSpace]
  exact ⟨letters, after, hspaces.trans hopen, hletters, hcolon⟩

theorem reads_spreadLine (f : String × String) (more : List Char) :
    Reads .value (skip (' ' :: (Data.quoted f.2 ++ more))) (.text f.2) more := by
  have hreads := reads_quoted f.2 more
  have hspace : skip (' ' :: (Data.quoted f.2 ++ more)) = skip (Data.quoted f.2 ++ more) := by
    simp [skip, isSpace]
  rwa [hspace, hreads.skip_eq]

theorem reads_intercalate (f : String × String) (fields : List (String × String)) (rest : List Char) :
    Reads .fields ('\n' :: (List.intercalate [',', '\n'] ((f :: fields).map spreadLine) ++ '\n' :: '}' :: rest))
      (texts (f :: fields)) rest := by
  induction fields generalizing f with
  | nil =>
      have hend : skip ('\n' :: '}' :: rest) = '}' :: rest := rfl
      have hlast := Reads.lastField (label_spreadLine f _) (reads_spreadLine f _) hend
      rw [String.ofList_toList] at hlast
      simpa [texts] using hlast
  | cons g fields ih =>
      have hfield := Reads.field (label_spreadLine f _) (reads_spreadLine f _) (skip_cons_of_not rfl _) (ih g)
      rw [String.ofList_toList] at hfield
      simpa [texts, List.intercalate_cons_cons] using hfield

theorem says_spread (f : String × String) (fields : List (String × String)) :
    Says (Data.spread (f :: fields)).toList (texts (f :: fields)) := by
  refine ⟨[], ?_, rfl⟩
  rw [toList_spread]
  exact .table (reads_intercalate f fields [])

theorem isPlain_spreadLine (f : String × String) : IsPlain (spreadLine f) := by
  simp only [spreadLine, isPlain_cons, isPlain_append]
  exact ⟨by decide, by decide, isPlain_quoted f.1, by decide, by decide, isPlain_quoted f.2⟩

theorem lines_intercalate (f : String × String) (fields : List (String × String)) (rest : List Char) :
    Text.lines (List.intercalate [',', '\n'] ((f :: fields).map spreadLine) ++ '\n' :: rest) =
      spreadLines (f :: fields) ++ Text.lines rest := by
  induction fields generalizing f with
  | nil =>
      have hline := (isPlain_spreadLine f).lines_append rest
      simpa [spreadLines] using hline
  | cons g fields ih =>
      have hcomma : IsPlain (spreadLine f ++ [',']) :=
        isPlain_append.2 ⟨isPlain_spreadLine f, isPlain_cons.2 ⟨by decide, isPlain_nil⟩⟩
      have hline := hcomma.lines_append (List.intercalate [',', '\n'] ((g :: fields).map spreadLine) ++ '\n' :: rest)
      rw [ih g] at hline
      simpa [spreadLines, List.intercalate_cons_cons] using hline

theorem lines_spread (f : String × String) (fields : List (String × String)) :
    Text.lines (Data.spread (f :: fields) ++ "\n").toList = ['{'] :: (spreadLines (f :: fields) ++ [['}']]) := by
  have hopen : IsPlain ['{'] := isPlain_cons.2 ⟨by decide, isPlain_nil⟩
  have hlines := lines_intercalate f fields ['}', '\n']
  rw [String.toList_append, toList_spread, List.cons_append, List.cons_append, List.append_assoc]
  exact (hopen.lines_append _).trans (congrArg _ hlines)

theorem not_isObject_of_mem_lines_spread {line : List Char} {f : String × String} {fields : List (String × String)}
    (h : line ∈ Text.lines (Data.spread (f :: fields) ++ "\n").toList) : ¬ IsObject line := by
  have hname : ∀ f more, ¬ IsObject (spreadLine f ++ more) := by
    intro f more hobject
    obtain ⟨more', hopen, -⟩ := hobject.exists_skip_eq
    have hquote : skip (spreadLine f ++ more) =
        '"' :: (Data.quoted f.1 ++ ':' :: ' ' :: (Data.quoted f.2 ++ more)).tail := by
      simp [spreadLine, skip, isSpace, Data.quoted]
    cases hquote.symm.trans hopen
  have hlines : ∀ (f : String × String) (fields : List (String × String)), ∀ line ∈ spreadLines (f :: fields),
      ¬ IsObject line := by
    intro f fields
    induction fields generalizing f with
    | nil => simpa [spreadLines] using hname f []
    | cons g fields ih => simpa [spreadLines] using ⟨hname f [','], ih g⟩
  rw [lines_spread, List.mem_cons, List.mem_append, List.mem_singleton] at h
  intro hobject
  -- Nothing is left behind the brace of the first line, and the other lines open with none.
  rcases h with rfl | h | rfl
  · obtain ⟨more, hopen, hne⟩ := hobject.exists_skip_eq
    exact hne (List.cons.inj hopen).2.symm
  · exact hlines f fields line h hobject
  · obtain ⟨more, hopen, -⟩ := hobject.exists_skip_eq
    cases hopen

end CMakeHelm.Json
