import CMakeHelm.Proofs.Path.Absolute
import Mathlib.Logic.Relation

namespace CMakeHelm.Path

/-- Components cancel in one place. -/
inductive Cancels : List Component → List Component → Prop
  | here (before after : List Component) : Cancels (before ++ .here :: after) (before ++ after)
  | back (before : List Component) (piece : List Char) (after : List Component) :
      Cancels (before ++ .name piece :: .up :: after) (before ++ after)
  | top (before after : List Component) : Cancels (before ++ .root :: .up :: after) (before ++ .root :: after)

/-- Components cancel in any number of places, one after the other. -/
abbrev CancelsTo : List Component → List Component → Prop := Relation.ReflTransGen Cancels

variable {p q : Path} {c : Component} {cs ds : List Component}

theorem components_eq_of_isInner (h : c.IsInner) : components ⟨c.chars⟩ = [c] := by
  have hdot : c.chars ≠ ['.'] := by
    intro he
    have hc := h.1
    rw [he] at hc
    cases hc
  rw [components, split_of_isInner h]
  simp [isAbsolute_eq_of_isInner h, hdot, h.1]

theorem components_join (hp : p.chars ≠ []) (hq : q.isAbsolute = false) :
    (p.join q).components = p.components ++ q.inner := by
  have habsolute : (p.join q).isAbsolute = p.isAbsolute := by rw [isAbsolute_join, hq, Bool.false_or]
  -- A slash at the end of `p` leaves an empty piece behind it, which the pieces of `q` replace.
  obtain ⟨front, last, hne, hsplit, hlast, hjoin⟩ : ∃ front last : List (List Char), front ≠ [] ∧
      Text.split (· == '/') p.chars = front ++ last ∧ last.filterMap component? = [] ∧
        Text.split (· == '/') (p.join q).chars = front ++ Text.split (· == '/') q.chars := by
    rw [join, hq, if_neg Bool.false_ne_true]
    split
    · next hend =>
      obtain ⟨ds, hds⟩ := List.getLast?_eq_some_iff.1 (of_decide_eq_true (hend.resolve_left hp))
      refine ⟨Text.split (· == '/') ds, [[]], Text.split_ne_nil _ _, ?_, rfl, ?_⟩
      · rw [hds, Text.split_append_cons rfl]
        rfl
      · rw [hds, List.append_assoc, List.singleton_append, Text.split_append_cons rfl]
    · exact ⟨_, [], Text.split_ne_nil _ _, (List.append_nil _).symm, rfl, Text.split_append_cons rfl _ _⟩
  obtain ⟨first, rest, rfl⟩ := List.exists_cons_of_ne_nil hne
  simp [components, hsplit, hjoin, habsolute, hlast, inner]

theorem components_join_inner (h : c.IsInner) (p : Path) : (p.join ⟨c.chars⟩).components = p.components ++ [c] := by
  by_cases hp : p.chars = []
  · obtain rfl : p = empty := congrArg Path.mk hp
    have hjoin : empty.join ⟨c.chars⟩ = ⟨c.chars⟩ := by simp [join, empty]
    rw [hjoin, components_eq_of_isInner h]
    rfl
  · rw [components_join hp (isAbsolute_eq_of_isInner h), inner_eq_of_isInner h]

theorem components_joinAll (hc : ∀ c ∈ cs, c.IsInner) (p : Path) : (p.joinAll cs).components = p.components ++ cs := by
  induction cs generalizing p with
  | nil => exact (List.append_nil _).symm
  | cons c cs ih =>
      have hstep : p.joinAll (c :: cs) = (p.join ⟨c.chars⟩).joinAll cs := rfl
      rw [hstep, ih (fun d hd => hc d (List.mem_cons_of_mem c hd)), components_join_inner (hc c List.mem_cons_self),
        List.append_assoc, List.singleton_append]

theorem components_normalize (p : Path) : p.normalize.components = p.stack.reverse := by
  obtain ⟨cs, hinner, hs⟩ := exists_reverse_stack_eq p
  rw [hs, ← (ofComponents_base p).1, normalize_eq_foldl hs]
  exact components_joinAll hinner _

theorem foldl_resolve_raised (hc : ∀ c ∈ cs, c.IsInner) (pieces : List (List Char)) (ups : Nat) :
    ∃ (kept : List (List Char)) (more : Nat),
      cs.foldl resolve (pieces.map .name ++ List.replicate ups .up) = kept.map .name ++ List.replicate more .up := by
  induction cs generalizing pieces ups with
  | nil => exact ⟨pieces, ups, rfl⟩
  | cons c cs ih =>
      have hcs : ∀ d ∈ cs, d.IsInner := fun d hd => hc d (List.mem_cons_of_mem c hd)
      rcases (hc c List.mem_cons_self).cases with rfl | ⟨piece, rfl⟩
      · cases pieces with
        | nil =>
            have hraised : resolve (List.replicate ups .up) .up = List.replicate (ups + 1) .up := by cases ups <;> rfl
            simpa only [List.foldl_cons, List.map_nil, List.nil_append, hraised] using ih hcs [] (ups + 1)
        | cons piece pieces => exact ih hcs pieces ups
      · rw [List.foldl_cons, resolve_name]
        exact ih hcs (piece :: pieces) ups

theorem exists_components_normalize (p : Path) :
    ∃ (ups : Nat) (names : List (List Char)),
      p.normalize.components = (if p.isAbsolute then [.root] else List.replicate ups .up) ++ names.map .name := by
  rw [components_normalize]
  cases hp : p.isAbsolute with
  | true =>
      obtain ⟨names, hs⟩ := exists_stack_of_isAbsolute hp
      exact ⟨0, names.reverse, by simp [hs]⟩
  | false =>
      obtain ⟨names, ups, hs⟩ := foldl_resolve_raised (fun c => isInner_of_mem_inner (p := p)) [] 0
      have hstack : p.stack = names.map .name ++ List.replicate ups .up := by
        rw [stack_eq, base, hp]
        exact hs
      exact ⟨ups, names.reverse, by simp [hstack]⟩

theorem Cancels.append_right (h : Cancels cs ds) (more : List Component) : Cancels (cs ++ more) (ds ++ more) := by
  cases h with
  | here before after => simpa using Cancels.here before (after ++ more)
  | back before piece after => simpa using Cancels.back before piece (after ++ more)
  | top before after => simpa using Cancels.top before (after ++ more)

theorem Cancels.length_lt (h : Cancels cs ds) : ds.length < cs.length := by
  cases h <;> simp +arith

theorem Cancels.foldl_resolve_eq (h : Cancels cs ds) (st : List Component) :
    cs.foldl resolve st = ds.foldl resolve st := by
  cases h with
  | here before after => simp [resolve]
  | back before piece after => simp [resolve]
  | top before after => simp [resolve]

theorem CancelsTo.foldl_resolve_eq (h : CancelsTo cs ds) (st : List Component) :
    cs.foldl resolve st = ds.foldl resolve st := by
  induction h with
  | refl => rfl
  | tail _ hstep ih => exact ih.trans (hstep.foldl_resolve_eq st)

theorem cancelsTo_resolve (st : List Component) (c : Component) :
    CancelsTo (st.reverse ++ [c]) (resolve st c).reverse := by
  unfold resolve
  split
  · simpa using Relation.ReflTransGen.single (Cancels.here st.reverse [])
  · next piece st => simpa using Relation.ReflTransGen.single (Cancels.back st.reverse piece [])
  · next st => simpa using Relation.ReflTransGen.single (Cancels.top st.reverse [])
  · rw [List.reverse_cons]

theorem cancelsTo_foldl_resolve (cs : List Component) : CancelsTo cs (cs.foldl resolve []).reverse := by
  induction cs using List.reverseRecOn with
  | nil => exact .refl
  | append_singleton cs c ih =>
      have hfront : CancelsTo (cs ++ [c]) ((cs.foldl resolve []).reverse ++ [c]) :=
        ih.lift (· ++ [c]) fun _ _ h => h.append_right [c]
      rw [List.foldl_append]
      exact hfront.trans (cancelsTo_resolve _ c)

theorem length_foldl_resolve_le (cs st : List Component) : (cs.foldl resolve st).length ≤ st.length + cs.length := by
  induction cs generalizing st with
  | nil => exact Nat.le_refl _
  | cons c cs ih =>
      have hstep : (resolve st c).length ≤ st.length + 1 := by
        unfold resolve
        split <;> simp +arith
      have hrest := ih (resolve st c)
      rw [List.foldl_cons, List.length_cons]
      omega

theorem not_cancels_normalize (p : Path) (ds : List Component) : ¬ Cancels p.normalize.components ds := by
  intro h
  -- What is left resolves to as many components as before, and so cannot be fewer.
  have hstack : p.normalize.components.foldl resolve [] = p.stack := stack_normalize
  have hshort := length_foldl_resolve_le ds []
  rw [← h.foldl_resolve_eq, hstack] at hshort
  have hlong := h.length_lt
  rw [components_normalize, List.length_reverse] at hlong
  simp only [List.length_nil] at hshort
  omega

theorem eq_components_normalize_iff (p : Path) (cs : List Component) :
    cs = p.normalize.components ↔ CancelsTo p.components cs ∧ ∀ ds, ¬ Cancels cs ds := by
  constructor
  · rintro rfl
    refine ⟨?_, not_cancels_normalize p⟩
    rw [components_normalize]
    exact cancelsTo_foldl_resolve p.components
  · rintro ⟨h, hstuck⟩
    rw [components_normalize, stack, h.foldl_resolve_eq]
    rcases (cancelsTo_foldl_resolve cs).cases_head with hsame | ⟨ds, hstep, -⟩
    · exact hsame
    · exact absurd hstep (hstuck ds)

theorem normalize_join (p q : Path) : (p.join q).normalize = (p.normalize.join q.normalize).normalize := by
  apply normalize_eq_of_stack_eq
  rw [stack_join_normalize, stack_join_congr stack_normalize]

example :
    ((ofString "a/./b").join (ofString "../../../c/")).normalize = ofString "../c" ∧
      ((ofString "/a").join (ofString "../../c")).normalize = ofString "/c" := by
  decide +kernel

end CMakeHelm.Path
