import CMakeHelm.Proofs.Text.Pieces

namespace CMakeHelm.Text

variable {cs ds gap word : List Char} {c : Char}

theorem dropBlank_append (h : ∀ c ∈ gap, isBlank c) (cs : List Char) : dropBlank (gap ++ cs) = dropBlank cs :=
  List.dropWhile_append_of_pos h

theorem dropBlank_cons_of_not (h : isBlank c = false) (cs : List Char) : dropBlank (c :: cs) = c :: cs :=
  List.dropWhile_cons_of_neg (by simp [h])

theorem words_append_cons (hc : isBlank c = true) (cs ds : List Char) :
    words (cs ++ c :: ds) = words cs ++ words ds := by
  rw [words, split_append_cons hc, List.filter_append, words, words]

theorem words_blanks_append (h : ∀ c ∈ gap, isBlank c) (cs : List Char) : words (gap ++ cs) = words cs := by
  induction gap with
  | nil => rfl
  | cons c gap ih =>
      rw [List.forall_mem_cons] at h
      calc words (c :: gap ++ cs) = words [] ++ words (gap ++ cs) := words_append_cons h.1 [] (gap ++ cs)
        _ = words (gap ++ cs) := rfl
        _ = words cs := ih h.2

theorem words_blanks (h : ∀ c ∈ gap, isBlank c) : words gap = [] := by
  have hnil := words_blanks_append h []
  rwa [List.append_nil] at hnil

theorem words_singleton (hne : word ≠ []) (h : ∀ c ∈ word, isBlank c = false) : words word = [word] := by
  rw [words, split_of_forall_not h]
  exact List.filter_eq_self.2 (by simpa using hne)

theorem words_word_append (hne : word ≠ []) (h : ∀ c ∈ word, isBlank c = false) (hcs : ∀ c ∈ cs.head?, isBlank c) :
    words (word ++ cs) = word :: words cs := by
  cases cs with
  | nil => rw [List.append_nil, words_singleton hne h, words_blanks (by simp)]
  | cons c cs =>
      have hc : isBlank c = true := hcs c rfl
      have hcut : words (c :: cs) = words cs := words_append_cons hc [] cs
      rw [words_append_cons hc, words_singleton hne h, hcut, List.singleton_append]

end CMakeHelm.Text
