import CMakeHelm.Proofs.Path

namespace CMakeHelm

theorem Text.join_concat (sep : Char) {ps : List (List Char)} (h : ps ≠ []) (p : List Char) :
    Text.join sep (ps ++ [p]) = Text.join sep ps ++ sep :: p := by
  induction ps with
  | nil => exact absurd rfl h
  | cons q qs ih =>
      cases qs with
      | nil => rfl
      | cons r rs =>
          rw [List.cons_append, List.cons_append, join, join, ← List.cons_append, ih (List.cons_ne_nil r rs),
            List.append_assoc, List.cons_append]

namespace Path

def joinAll (p : Path) (cs : List Component) : Path := cs.foldl (fun p c => p.join ⟨c.chars⟩) p

/-- Exactly two leading slashes are kept apart from one. -/
inductive IsRoot : Path → Prop
  | one : IsRoot ⟨['/']⟩
  | two : IsRoot ⟨['/', '/']⟩

/-- Behind the root the components are one slash apart, and one slash may stand at the end. -/
def IsPlain (p : Path) : Prop :=
  ∃ start cs, IsRoot start ∧ (∀ c ∈ cs, c.IsInner) ∧ (p = start.joinAll cs ∨ p = (start.joinAll cs).join empty)

variable {p w start : Path} {c : Component} {cs ds : List Component}

theorem Component.IsInner.chars_ne_nil (h : c.IsInner) : c.chars ≠ [] := by
  intro he
  have hc := h.1
  rw [he] at hc
  cases hc

theorem IsRoot.endsInSlash (h : IsRoot start) : start.endsInSlash = true := by cases h <;> decide

theorem IsRoot.isAbsolute (h : IsRoot start) : start.isAbsolute = true := by cases h <;> decide

theorem IsRoot.inner (h : IsRoot start) : start.inner = [] := by cases h <;> decide

theorem endsInSlash_join_inner (h : c.IsInner) (p : Path) : (p.join ⟨c.chars⟩).endsInSlash = false := by
  have hlast (front : List Char) : (front ++ c.chars).getLast? ≠ some '/' := by
    intro he
    rw [List.getLast?_append, List.getLast?_eq_some_getLast h.chars_ne_nil, Option.some_or] at he
    exact h.2 (Option.some.inj he ▸ List.getLast_mem h.chars_ne_nil)
  rw [join, isAbsolute_eq_of_isInner h, if_neg Bool.false_ne_true, endsInSlash, decide_eq_false_iff_not]
  split
  · exact hlast p.chars
  · simpa using hlast (p.chars ++ ['/'])

theorem inner_joinAll (hc : ∀ c ∈ cs, c.IsInner) (p : Path) : (p.joinAll cs).inner = p.inner ++ cs :=
  (foldl_join_inner hc p).1

theorem isAbsolute_joinAll (hc : ∀ c ∈ cs, c.IsInner) (p : Path) : (p.joinAll cs).isAbsolute = p.isAbsolute :=
  (foldl_join_inner hc p).2

theorem chars_joinAll (hs : IsRoot start) (hc : ∀ c ∈ cs, c.IsInner) :
    (start.joinAll cs).chars = start.chars ++ Text.join '/' (cs.map Component.chars) ∧
      (start.joinAll cs).endsInSlash = cs.isEmpty := by
  induction cs using List.reverseRecOn with
  | nil => exact ⟨(List.append_nil _).symm, hs.endsInSlash⟩
  | append_singleton cs c ih =>
      obtain ⟨hchars, hends⟩ := ih fun d hd => hc d (List.mem_append_left _ hd)
      have hlast : c.IsInner := hc c (by simp)
      have hstep : start.joinAll (cs ++ [c]) = (start.joinAll cs).join ⟨c.chars⟩ := by simp [joinAll]
      rw [hstep, endsInSlash_join_inner hlast, List.map_append, List.map_singleton]
      refine ⟨?_, by simp⟩
      rw [join, isAbsolute_eq_of_isInner hlast, if_neg Bool.false_ne_true, hends]
      cases cs with
      | nil => simp [joinAll, Text.join]
      | cons d ds =>
          have hne : (d :: ds).map Component.chars ≠ [] := List.cons_ne_nil _ _
          have hfilled : (start.joinAll (d :: ds)).chars ≠ [] := by
            rw [hchars]
            cases hs <;> simp
          rw [if_neg (by simpa using hfilled), hchars, Text.join_concat '/' hne, List.append_assoc]

theorem exists_join_eq_cons (hc : ∀ d ∈ c :: cs, d.IsInner) :
    ∃ d ds, Text.join '/' ((c :: cs).map Component.chars) = d :: ds ∧ d ≠ '/' := by
  have hfirst := hc c List.mem_cons_self
  obtain ⟨d, ds, hd⟩ := List.exists_cons_of_ne_nil hfirst.chars_ne_nil
  have hne : d ≠ '/' := fun he => hfirst.2 (hd ▸ he ▸ List.mem_cons_self)
  cases cs with
  | nil => exact ⟨d, ds, hd, hne⟩
  | cons e es => exact ⟨d, _, by rw [List.map_cons, List.map_cons, Text.join, hd, List.cons_append], hne⟩

theorem join_empty (p : Path) :
    p.join empty = if p.chars = [] ∨ p.endsInSlash then p else ⟨p.chars ++ ['/']⟩ := by
  rw [join, if_neg (by decide)]
  split
  · exact congrArg Path.mk (List.append_nil _)
  · rfl

theorem endsInSlash_join_empty (hp : p.chars ≠ []) : (p.join empty).endsInSlash = true := by
  rw [join_empty]
  split
  · next h => exact h.resolve_left hp
  · simp [endsInSlash]

theorem exists_chars_of_plain (hs : IsRoot start) (hc : ∀ c ∈ cs, c.IsInner)
    (h : p = start.joinAll cs ∨ p = (start.joinAll cs).join empty) :
    ∃ rest : List Char, p.chars = start.chars ++ rest ∧ rest.head? ≠ some '/' := by
  obtain ⟨hchars, hends⟩ := chars_joinAll hs hc
  cases cs with
  | nil =>
      have hp : p = start := by
        rcases h with rfl | rfl
        · rfl
        · cases hs <;> rfl
      exact ⟨[], by simp [hp], by simp⟩
  | cons c cs =>
      obtain ⟨d, ds, hjoin, hne⟩ := exists_join_eq_cons hc
      rw [hjoin] at hchars
      rcases h with rfl | rfl
      · exact ⟨_, hchars, by simpa using hne⟩
      · refine ⟨d :: ds ++ ['/'], ?_, by simpa using hne⟩
        rw [join_empty, if_neg (by simp [hchars, hends]), hchars, List.append_assoc]

def origin (p w : Path) : Path :=
  if !p.isAbsolute then w
  else if p.chars.take 2 = ['/', '/'] ∧ (p.chars.drop 2).head? ≠ some '/' then ⟨['/', '/']⟩
  else ⟨['/']⟩

theorem origin_eq (hs : IsRoot start) {rest : List Char} (hchars : p.chars = start.chars ++ rest)
    (hrest : rest.head? ≠ some '/') (w : Path) : p.origin w = start := by
  have hp : p.isAbsolute = true := by
    rw [isAbsolute, hchars]
    cases hs <;> rfl
  rw [origin, hp, hchars]
  cases hs with
  | one => cases rest <;> simp_all
  | two => simp_all

theorem isRoot_origin (hp : p.isAbsolute = true) (w : Path) : IsRoot (p.origin w) := by
  rw [origin, hp]
  simp only [Bool.not_true, Bool.false_eq_true, if_false]
  split
  · exact .two
  · exact .one

theorem absolute_eq (hp : p.chars ≠ []) (w : Path) :
    p.absolute w =
      if p.endsInSlash then ((p.origin w).joinAll p.inner).join empty else (p.origin w).joinAll p.inner := by
  simp only [absolute, absolute?, hp, if_false, Option.getD_some, names_eq]
  rfl

theorem isAbsolute_absolute (hp : p.chars ≠ []) (hw : w.isAbsolute = true) : (p.absolute w).isAbsolute = true := by
  have horigin : (p.origin w).isAbsolute = true := by
    cases ha : p.isAbsolute with
    | true => exact (isRoot_origin ha w).isAbsolute
    | false => simpa [origin, ha] using hw
  have hinner : ∀ c ∈ p.inner, c.IsInner := fun c => isInner_of_mem_inner
  rw [absolute_eq hp]
  split
  · rw [isAbsolute_join, isAbsolute_joinAll hinner, horigin, Bool.or_true]
  · rw [isAbsolute_joinAll hinner, horigin]

theorem IsPlain.absolute (h : p.IsPlain) (w : Path) : p.absolute w = p := by
  obtain ⟨start, cs, hs, hc, h⟩ := h
  obtain ⟨rest, hchars, hrest⟩ := exists_chars_of_plain hs hc h
  have hne : p.chars ≠ [] := by
    rw [hchars]
    cases hs <;> simp
  have hi : (start.joinAll cs).inner = cs := by rw [inner_joinAll hc, hs.inner, List.nil_append]
  obtain ⟨hplain, hends⟩ := chars_joinAll hs hc
  rw [absolute_eq hne, origin_eq hs hchars hrest]
  rcases h with rfl | rfl
  · rw [hi, hends]
    cases cs with
    | nil => cases hs <;> rfl
    | cons c cs => rfl
  · have hfilled : (start.joinAll cs).chars ≠ [] := by
      rw [hplain]
      cases hs <;> simp
    have hinner : ((start.joinAll cs).join empty).inner = cs := by
      rw [inner_join, if_neg (by decide), hi]
      exact List.append_nil cs
    rw [hinner, endsInSlash_join_empty hfilled, if_pos rfl]

theorem isPlain_absolute (hs : IsRoot start) (hd : ∀ c ∈ ds, c.IsInner) (hp : p.chars ≠ []) :
    (p.absolute (start.joinAll ds)).IsPlain := by
  have hinner : ∀ c ∈ p.inner, c.IsInner := fun c => isInner_of_mem_inner
  obtain ⟨root, cs, hroot, hc, hjoin⟩ : ∃ root cs, IsRoot root ∧ (∀ c ∈ cs, c.IsInner) ∧
      (p.origin (start.joinAll ds)).joinAll p.inner = root.joinAll cs := by
    cases ha : p.isAbsolute with
    | true => exact ⟨_, _, isRoot_origin ha _, hinner, rfl⟩
    | false =>
        refine ⟨start, ds ++ p.inner, hs, ?_, ?_⟩
        · intro c hc
          exact (List.mem_append.1 hc).elim (hd c) (hinner c)
        · rw [origin, ha]
          exact (List.foldl_append ..).symm
  refine ⟨root, cs, hroot, hc, ?_⟩
  rw [absolute_eq hp, hjoin]
  split
  · exact .inr rfl
  · exact .inl rfl

/-- However a path is written, it is seen as the same one when it is looked at again, from anywhere. -/
theorem absolute_absolute (hs : IsRoot start) (hd : ∀ c ∈ ds, c.IsInner) (p w : Path) :
    (p.absolute (start.joinAll ds)).absolute w = p.absolute (start.joinAll ds) := by
  by_cases hp : p.chars = []
  · simp [absolute, absolute?, hp]
  · exact (isPlain_absolute hs hd hp).absolute w

end Path

end CMakeHelm
