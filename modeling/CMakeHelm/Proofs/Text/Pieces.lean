import CMakeHelm.Text.Blank
import Mathlib.Data.List.Induction
import Mathlib.Data.List.TakeWhile

namespace CMakeHelm.Text

variable {α : Type} {sep : α → Bool} {mark before after cs more : List Char}

theorem split_eq_splitOnP (cs : List α) : split sep cs = cs.splitOnP sep := by
  induction cs with
  | nil => rfl
  | cons c cs ih => rw [split, List.splitOnP_cons_eq_if_modifyHead, ih]

theorem split_append_cons {c : α} (hc : sep c = true) (cs ds : List α) :
    split sep (cs ++ c :: ds) = split sep cs ++ split sep ds := by
  simp only [split_eq_splitOnP, List.splitOnP_append_cons _ _ hc]

theorem split_of_forall_not {cs : List α} (h : ∀ c ∈ cs, sep c = false) : split sep cs = [cs] := by
  rw [split_eq_splitOnP, List.splitOnP_eq_singleton h]

theorem not_sep_of_mem_split {cs piece : List α} (h : piece ∈ split sep cs) {c : α} (hc : c ∈ piece) :
    sep c = false := by
  induction cs generalizing piece with
  | nil =>
      obtain rfl : piece = [] := by simpa [split] using h
      simp at hc
  | cons d cs ih =>
      rw [split] at h
      by_cases hd : sep d = true
      · rw [if_pos hd, List.mem_cons] at h
        rcases h with rfl | h
        · simp at hc
        · exact ih h hc
      · rw [if_neg hd] at h
        cases hs : split sep cs with
        | nil => exact absurd hs (split_ne_nil sep cs)
        | cons first rest =>
            rw [hs, List.modifyHead_cons, List.mem_cons] at h
            rcases h with rfl | h
            · rcases List.mem_cons.1 hc with rfl | hc
              · simpa using hd
              · exact ih (hs ▸ List.mem_cons_self) hc
            · exact ih (hs ▸ List.mem_cons_of_mem first h) hc

theorem infix_join_of_mem {c : Char} {pieces : List (List Char)} {piece : List Char} (h : piece ∈ pieces) :
    piece <:+: join c pieces := by
  induction pieces with
  | nil => simp at h
  | cons p ps ih =>
      cases ps with
      | nil =>
          obtain rfl : piece = p := List.mem_singleton.1 h
          exact List.infix_rfl
      | cons q qs =>
          rw [join]
          rcases List.mem_cons.1 h with rfl | h
          · exact (List.prefix_append ..).isInfix
          · exact (ih h).trans ((List.suffix_cons ..).trans (List.suffix_append ..)).isInfix

theorem infix_of_mem_split {c : Char} {piece : List Char} (h : piece ∈ split (· == c) cs) : piece <:+: cs :=
  join_split c cs ▸ infix_join_of_mem h

theorem strip?_eq_none_iff : strip? mark cs = none ↔ ¬ mark <+: cs := by
  rw [Option.eq_none_iff_forall_ne_some]
  constructor
  · rintro h ⟨rest, rfl⟩
    exact h rest (strip?_eq_some_iff.2 rfl)
  · intro h rest hrest
    exact h ⟨rest, (strip?_eq_some_iff.1 hrest).symm⟩

theorem cut?_of_prefix (rest : List Char) : cut? mark (mark ++ rest) = some ([], rest) := by
  have hstrip : strip? mark (mark ++ rest) = some rest := strip?_eq_some_iff.2 rfl
  cases h : mark ++ rest with
  | nil => rw [cut?, ← h, hstrip, Option.map_some]
  | cons c cs => rw [cut?, ← h, hstrip]

theorem cut?_cons_of_unmarked {c : Char} (h : ¬ mark <+: c :: cs) :
    cut? mark (c :: cs) = (cut? mark cs).map fun (before, rest) => (c :: before, rest) := by
  rw [cut?, strip?_eq_none_iff.2 h]

theorem eq_of_cut? (h : cut? mark cs = some (before, after)) : cs = before ++ mark ++ after := by
  induction cs generalizing before with
  | nil =>
      rw [cut?, Option.map_eq_some_iff] at h
      obtain ⟨rest, hrest, he⟩ := h
      cases he
      exact strip?_eq_some_iff.1 hrest
  | cons c cs ih =>
      by_cases hp : mark <+: c :: cs
      · obtain ⟨rest, hrest⟩ := hp
        rw [← hrest, cut?_of_prefix] at h
        cases h
        exact hrest.symm
      · rw [cut?_cons_of_unmarked hp, Option.map_eq_some_iff] at h
        obtain ⟨⟨before', after'⟩, hcut, he⟩ := h
        cases he
        rw [ih hcut, List.cons_append, List.cons_append]

theorem cut?_eq_none_iff : cut? mark cs = none ↔ ¬ mark <:+: cs := by
  induction cs with
  | nil => simp [cut?, strip?_eq_none_iff]
  | cons c cs ih =>
      rw [List.infix_cons_iff, not_or]
      by_cases hp : mark <+: c :: cs
      · obtain ⟨rest, hrest⟩ := hp
        simp [← hrest, cut?_of_prefix]
      · rw [cut?_cons_of_unmarked hp, Option.map_eq_none_iff, ih]
        simp [hp]

theorem cut?_append (h : cut? mark cs = some (before, after)) (more : List Char) :
    cut? mark (cs ++ more) = some (before, after ++ more) := by
  induction cs generalizing before with
  | nil =>
      obtain ⟨rfl, rfl, rfl⟩ : before = [] ∧ mark = [] ∧ after = [] := by simpa using (eq_of_cut? h).symm
      exact cut?_of_prefix more
  | cons c cs ih =>
      by_cases hp : mark <+: c :: cs
      · obtain ⟨rest, hrest⟩ := hp
        rw [← hrest, cut?_of_prefix] at h
        cases h
        rw [← hrest, List.append_assoc, cut?_of_prefix]
      · rw [cut?_cons_of_unmarked hp, Option.map_eq_some_iff] at h
        obtain ⟨⟨before', after'⟩, hcut, he⟩ := h
        cases he
        have hlength : mark.length ≤ (c :: cs).length := by
          have hcs := congrArg List.length (eq_of_cut? hcut)
          simp only [List.length_append] at hcs
          simp only [List.length_cons]
          omega
        have hp' : ¬ mark <+: c :: (cs ++ more) := by
          intro hpre
          exact hp (List.prefix_of_prefix_length_le hpre (List.prefix_append (c :: cs) more) hlength)
        rw [List.cons_append, cut?_cons_of_unmarked hp', ih hcut]
        rfl

theorem cut?_append_mark {m : Char} {ms : List Char} (hm : m ∉ ms) (h : ¬ m :: ms <:+: cs) (more : List Char) :
    cut? (m :: ms) (cs ++ (m :: ms ++ more)) = some (cs, more) := by
  induction cs with
  | nil => exact cut?_of_prefix more
  | cons c cs ih =>
      rw [List.infix_cons_iff, not_or] at h
      have hp : ¬ m :: ms <+: c :: (cs ++ (m :: ms ++ more)) := by
        intro hpre
        rcases List.prefix_or_prefix_of_prefix hpre (List.prefix_append (c :: cs) _) with hshort | hlong
        · exact h.1 hshort
        · -- The mark behind the text would begin within this one.
          obtain ⟨rest, hrest⟩ := hlong
          obtain ⟨rfl, rfl⟩ := List.cons.inj hrest
          obtain ⟨more', hmore⟩ := hpre
          cases rest with
          | nil => simp at h
          | cons r rest =>
              have hr : r :: (rest ++ more') = c :: (cs ++ r :: rest ++ more) := by simpa using hmore
              exact hm (by simp [(List.cons.inj hr).1])
      rw [List.cons_append, cut?_cons_of_unmarked hp, ih h.2]
      rfl

theorem infix_append_cons {m : Char} (hm : m ∉ mark) (h : mark <:+: before ++ m :: after) :
    mark <:+: before ∨ mark <:+: after := by
  have hnone {part : List Char} (hpart : part <+: m :: after) (hsub : part ⊆ mark) : part = [] := by
    cases part with
    | nil => rfl
    | cons c part =>
        obtain ⟨rfl, -⟩ := List.cons_prefix_cons.1 hpart
        exact absurd (hsub List.mem_cons_self) hm
  rcases List.infix_append_iff.1 h with h | h | ⟨front, part, rfl, hfront, hpart⟩
  · exact .inl h
  · rcases List.infix_cons_iff.1 h with h | h
    · rw [hnone h (List.Subset.refl mark)]
      exact .inl List.nil_infix
    · exact .inr h
  · rw [hnone hpart (List.subset_append_right front part), List.append_nil]
    exact .inl hfront.isInfix

theorem replace_of_not_infix {old : List Char} (h : ¬ old <:+: cs) (new : List Char) : replace old new cs = cs := by
  have hgo (n : Nat) : replace.go old new n cs = cs := by
    induction cs generalizing n with
    | nil => cases n <;> rfl
    | cons c cs ih =>
        rw [List.infix_cons_iff, not_or] at h
        cases n with
        | zero => rfl
        | succ n => rw [replace.go, strip?_eq_none_iff.2 h.1, ih h.2]
  rw [replace, hgo, ite_self]

theorem replace_singleton (c : Char) (new cs : List Char) :
    replace [c] new cs = cs.flatMap fun d => if d = c then new else [d] := by
  rw [replace, if_neg (List.cons_ne_nil c [])]
  induction cs with
  | nil => rfl
  | cons d cs ih =>
      rw [List.length_cons, replace.go, strip?, List.flatMap_cons]
      by_cases h : d = c
      · simp [h, strip?, ih]
      · simp [h, Ne.symm h, ih]

theorem dropEnd_isPrefix (p : Char → Bool) (cs : List Char) : dropEnd p cs <+: cs := by
  rw [dropEnd, ← List.reverse_suffix, List.reverse_reverse]
  exact List.dropWhile_suffix p

theorem dropEnd_append_singleton {p : Char → Bool} {c : Char} (h : p c = false) (cs : List Char) :
    dropEnd p (cs ++ [c]) = cs ++ [c] := by
  rw [dropEnd, List.reverse_append, List.reverse_singleton, List.singleton_append,
    List.dropWhile_cons_of_neg (by simp [h])]
  simp

theorem trim_of_forall_not_blank (h : ∀ c ∈ cs, isBlank c = false) : trim cs = cs := by
  have hfront : dropBlank cs = cs := by
    cases cs with
    | nil => rfl
    | cons c cs => exact List.dropWhile_cons_of_neg (by simp [h c List.mem_cons_self])
  rw [trim, hfront]
  induction cs using List.reverseRecOn with
  | nil => rfl
  | append_singleton ds d => exact dropEnd_append_singleton (h d (by simp)) ds

theorem mem_dropWhile_of_not {p : Char → Bool} {c : Char} (hc : c ∈ cs) (hp : p c = false) : c ∈ cs.dropWhile p := by
  rw [← List.takeWhile_append_dropWhile (p := p) (l := cs), List.mem_append] at hc
  rcases hc with hc | hc
  · exact absurd (List.mem_takeWhile_imp hc) (by simp [hp])
  · exact hc

theorem mem_trim {c : Char} (hc : c ∈ cs) (hblank : isBlank c = false) : c ∈ trim cs := by
  rw [trim, dropEnd, List.mem_reverse]
  exact mem_dropWhile_of_not (List.mem_reverse.2 (mem_dropWhile_of_not hc hblank)) hblank

end CMakeHelm.Text
