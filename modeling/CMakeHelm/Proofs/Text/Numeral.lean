import CMakeHelm.Text.Numeral
import CMakeHelm.Text.Blank

namespace CMakeHelm.Text

variable {c : Char} {cs : List Char} {bound n : Nat} {i : Int}

theorem digit?_of_isDigit (h : c.isDigit) : digit? c = some (c.toNat - '0'.toNat) := by
  have hrange : '0' ≤ c ∧ c ≤ '9' := by
    simpa [Char.isDigit, Char.le_def] using h
  rw [digit?, if_pos hrange]

theorem digits?_of_isDigit (h : ∀ c ∈ cs, c.isDigit) (n : Nat) : digits? n cs = some (Nat.ofDigitChars 10 cs n) := by
  induction cs generalizing n with
  | nil => rfl
  | cons c cs ih =>
      rw [digits?, digit?_of_isDigit (h c List.mem_cons_self), Option.bind_some,
        ih fun d hd => h d (List.mem_cons_of_mem c hd), Nat.ofDigitChars_cons]

theorem isDigit_of_mem_repr (h : c ∈ (Nat.repr n).toList) : c.isDigit := by
  rw [Nat.toList_repr] at h
  exact Nat.isDigit_of_mem_toDigits (by decide) (by decide) h

theorem natural?_repr (n : Nat) : natural? (Nat.repr n).toList = some n := by
  have hdigits := digits?_of_isDigit (fun c hc => isDigit_of_mem_repr (n := n) hc) 0
  rw [Nat.toList_repr] at hdigits ⊢
  rw [Nat.ofDigitChars_toDigits (by decide) (by decide)] at hdigits
  cases h : Nat.toDigits 10 n with
  | nil => exact absurd h Nat.toDigits_ne_nil
  | cons c cs => rw [natural?, ← h, hdigits]; simp

theorem exists_repr_eq_cons (n : Nat) : ∃ c cs, (Nat.repr n).toList = c :: cs ∧ c.isDigit := by
  cases h : (Nat.repr n).toList with
  | nil => exact absurd (Nat.toList_repr ▸ h) Nat.toDigits_ne_nil
  | cons c cs => exact ⟨c, cs, rfl, isDigit_of_mem_repr (n := n) (h ▸ List.mem_cons_self)⟩

theorem unsigned?_repr (h : n < bound) : unsigned? bound (Nat.repr n).toList = some n := by
  obtain ⟨c, cs, hcs, hc⟩ := exists_repr_eq_cons n
  have hplus : (Nat.repr n).toList.head? ≠ some '+' := by
    rw [hcs]
    rintro ⟨⟩
    revert hc
    decide
  rw [unsigned?, if_neg hplus, natural?_repr]
  simp [h]

theorem signed?_repr (hlow : -(bound : Int) ≤ i) (hhigh : i < bound) : signed? bound (Int.repr i).toList = some i := by
  cases i with
  | ofNat n =>
      have hread : unsigned? bound (Nat.repr n).toList = some n := unsigned?_repr (by simpa using hhigh)
      obtain ⟨c, cs, hcs, hc⟩ := exists_repr_eq_cons n
      have hminus : c ≠ '-' := by
        rintro rfl
        revert hc
        decide
      rw [Int.repr, hcs, signed?, ← hcs, hread]
      · rfl
      · rintro rest ⟨⟩
        exact hminus rfl
  | negSucc n =>
      have hn : n.succ ≤ bound := by omega
      have hcs : (Int.repr (Int.negSucc n)).toList = '-' :: (Nat.repr n.succ).toList := by
        rw [Int.repr, String.toList_append]
        rfl
      rw [hcs, signed?, natural?_repr, Option.bind_some, if_pos hn]
      rfl

theorem isDigit_or_eq_of_mem_repr (h : c ∈ (Int.repr i).toList) : c.isDigit ∨ c = '-' := by
  cases i with
  | ofNat n => exact .inl (isDigit_of_mem_repr h)
  | negSucc n =>
      rw [Int.repr, String.toList_append] at h
      rcases List.mem_append.1 h with h | h
      · exact .inr (List.mem_singleton.1 h)
      · exact .inl (isDigit_of_mem_repr h)

theorem toNat_of_isDigit (h : c.isDigit) : 48 ≤ c.toNat ∧ c.toNat ≤ 57 := by
  simpa [Char.isDigit, UInt32.le_iff_toNat_le] using h

theorem isBlank_of_isDigit (h : c.isDigit) : isBlank c = false := by
  have hrange := toNat_of_isDigit h
  simp only [isBlank]
  grind

theorem isDigit_of_digit? {d : Nat} (h : digit? c = some d) : c.isDigit := by
  rw [digit?] at h
  split at h
  next hc => simpa [Char.isDigit, Char.le_def] using hc
  next => simp at h

theorem isDigit_of_mem_digits? {m : Nat} (h : digits? n cs = some m) (hc : c ∈ cs) : c.isDigit := by
  induction cs generalizing n with
  | nil => simp at hc
  | cons d cs ih =>
      rw [digits?, Option.bind_eq_some_iff] at h
      obtain ⟨k, hk, hrest⟩ := h
      rcases List.mem_cons.1 hc with rfl | hc
      · exact isDigit_of_digit? hk
      · exact ih hrest hc

theorem isDigit_of_mem_natural? (h : natural? cs = some n) (hc : c ∈ cs) : c.isDigit := by
  cases cs with
  | nil => simp at hc
  | cons d cs => exact isDigit_of_mem_digits? (by simpa [natural?] using h) hc

theorem isDigit_or_eq_of_mem_unsigned? (h : unsigned? bound cs = some n) (hc : c ∈ cs) : c.isDigit ∨ c = '+' := by
  rw [unsigned?, Option.filter_eq_some_iff] at h
  split at h
  next hplus =>
    cases cs with
    | nil => simp at hc
    | cons d cs =>
        obtain rfl : d = '+' := by simpa using hplus
        rcases List.mem_cons.1 hc with rfl | hc
        · exact .inr rfl
        · exact .inl (isDigit_of_mem_natural? h.1 hc)
  next => exact .inl (isDigit_of_mem_natural? h.1 hc)

theorem isDigit_or_eq_of_mem_signed? (h : signed? bound cs = some i) (hc : c ∈ cs) :
    c.isDigit ∨ c = '+' ∨ c = '-' := by
  unfold signed? at h
  split at h
  · obtain ⟨n, hn, -⟩ := Option.bind_eq_some_iff.1 h
    rcases List.mem_cons.1 hc with rfl | hc
    · exact .inr (.inr rfl)
    · exact .inl (isDigit_of_mem_natural? hn hc)
  · obtain ⟨n, hn, -⟩ := Option.map_eq_some_iff.1 h
    exact (isDigit_or_eq_of_mem_unsigned? hn hc).imp_right .inl

end CMakeHelm.Text
