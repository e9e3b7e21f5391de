import CMakeHelm.Path
import CMakeHelm.Proofs.Text.Octets
import CMakeHelm.Proofs.Text.Pieces
import Mathlib.Data.List.Induction

namespace CMakeHelm

namespace Path

/-- The component stands between slashes. -/
def Component.IsInner (c : Component) : Prop := component? c.chars = some c ∧ '/' ∉ c.chars

/-- The components of a path that stand between slashes. -/
def inner (p : Path) : List Component := (Text.split (· == '/') p.chars).filterMap component?

def base (p : Path) : List Component := if p.isAbsolute then [.root] else []

/-- The components of a path as they resolve, the last one first. -/
def stack (p : Path) : List Component := p.components.foldl resolve []

def IsText (p : Path) : Prop := ∃ s, p = ofString s

variable {p q r : Path} {c : Component} {cs : List Component} {st : List Component}

theorem toText_ofText (cs : List Char) : (ofText cs).toText = cs := Text.textOf_octets cs

theorem toString_ofString (s : String) : (ofString s).toString = s := by
  rw [toString, ofString, toText_ofText, String.ofList_toList]

theorem toString?_ofString (s : String) : (ofString s).toString? = some s := by
  rw [toString?, ofString, ofText, Text.text?_octets, Option.map_some, String.ofList_toList]

theorem IsText.ofString_toString (h : p.IsText) : ofString p.toString = p := by
  obtain ⟨s, rfl⟩ := h
  rw [toString_ofString]

theorem isText_join (hp : p.IsText) (hq : q.IsText) : (p.join q).IsText := by
  obtain ⟨s, rfl⟩ := hp
  obtain ⟨t, rfl⟩ := hq
  have hslash (cs : List Char) : Text.octets ('/' :: cs) = '/' :: Text.octets cs :=
    Text.octets_cons_of_lt (by decide) cs
  unfold join
  split
  · exact ⟨t, rfl⟩
  split
  · refine ⟨s ++ t, ?_⟩
    simp only [ofString, ofText, String.toList_append, Text.octets_append]
  · refine ⟨s ++ "/" ++ t, ?_⟩
    simp [ofString, ofText, String.toList_append, Text.octets_append, hslash]

theorem component?_eq_none {piece : List Char} : component? piece = none ↔ piece = [] ∨ piece = ['.'] := by
  unfold component?
  split <;> simp_all

theorem component?_eq_name {piece : List Char} (hskip : ¬(piece = [] ∨ piece = ['.'])) (hup : piece ≠ ['.', '.']) :
    component? piece = some (.name piece) := by
  unfold component?
  split <;> simp_all

theorem chars_of_component? {piece : List Char} (h : component? piece = some c) : c.chars = piece := by
  unfold component? at h
  split at h
  · simp at h
  · simp at h
  · cases h
    rfl
  · cases h
    rfl

theorem isInner_of_mem_inner (h : c ∈ p.inner) : c.IsInner := by
  obtain ⟨piece, hm, hc⟩ := List.mem_filterMap.1 h
  have hchars := chars_of_component? hc
  refine ⟨hchars.symm ▸ hc, ?_⟩
  rw [hchars]
  intro hs
  simpa using Text.not_sep_of_mem_split hm hs

theorem Component.IsInner.cases (h : c.IsInner) : c = .up ∨ ∃ piece, c = .name piece := by
  cases c with
  | root => exact absurd h.1 (by decide)
  | here => exact absurd h.1 (by decide)
  | up => exact .inl rfl
  | name piece => exact .inr ⟨piece, rfl⟩

theorem split_of_isInner (h : c.IsInner) : Text.split (· == '/') c.chars = [c.chars] := by
  apply Text.split_of_forall_not
  intro d hd
  have hne : d ≠ '/' := fun he => h.2 (he ▸ hd)
  simpa using hne

theorem inner_eq_of_isInner (h : c.IsInner) : inner ⟨c.chars⟩ = [c] := by
  simp [inner, split_of_isInner h, h.1]

theorem isAbsolute_eq_of_isInner (h : c.IsInner) : isAbsolute ⟨c.chars⟩ = false := by
  simp only [isAbsolute, decide_eq_false_iff_not]
  intro hs
  exact h.2 (List.mem_of_head? hs)

theorem isAbsolute_join : (p.join q).isAbsolute = (q.isAbsolute || p.isAbsolute) := by
  unfold join
  split
  · next hq => simp [hq]
  · next hq =>
    cases hp : p.chars with
    | nil => simp [isAbsolute, hp]
    | cons d ds => split <;> simp_all [isAbsolute]

theorem inner_join : (p.join q).inner = if q.isAbsolute then q.inner else p.inner ++ q.inner := by
  unfold join
  split
  · rfl
  · split
    · next hq hp =>
      rcases hp with hp | hp
      · simp [inner, hp, Text.split, component?]
      · obtain ⟨ds, hds⟩ := List.getLast?_eq_some_iff.1 (of_decide_eq_true hp)
        have hsplit := @Text.split_append_cons Char (· == '/') '/' rfl ds
        simp only [inner, hds, List.append_assoc, List.singleton_append, hsplit]
        simp [Text.split, component?]
    · simp [inner, @Text.split_append_cons Char (· == '/') '/' rfl]

theorem join_of_isAbsolute (hq : q.isAbsolute = true) (p : Path) : p.join q = q := if_pos hq

theorem not_infix_join {mark : List Char} (hm : '/' ∉ mark) (hp : ¬ mark <:+: p.chars) (hq : ¬ mark <:+: q.chars) :
    ¬ mark <:+: (p.join q).chars := by
  unfold join
  split
  · exact hq
  split
  · next hstart =>
    rcases hstart with hempty | hslash
    · rw [hempty]
      exact hq
    · obtain ⟨front, hfront⟩ := List.getLast?_eq_some_iff.1 (of_decide_eq_true hslash)
      have hshorter : ¬ mark <:+: front := fun h => hp (hfront ▸ h.trans (List.prefix_append front ['/']).isInfix)
      rw [hfront, List.append_assoc, List.singleton_append]
      exact fun h => (Text.infix_append_cons hm h).elim hshorter hq
  · exact fun h => (Text.infix_append_cons hm h).elim hp hq

theorem components_of_isAbsolute (hp : p.isAbsolute = true) : p.components = .root :: p.inner := by
  unfold components inner
  cases hs : Text.split (· == '/') p.chars with
  | nil => exact absurd hs (Text.split_ne_nil _ _)
  | cons first rest =>
      have hfirst : first = [] := by
        cases hchars : p.chars with
        | nil => simp [isAbsolute, hchars] at hp
        | cons d ds =>
            obtain rfl : d = '/' := by simpa [isAbsolute, hchars] using hp
            rw [hchars, Text.split, beq_self_eq_true, if_pos rfl] at hs
            exact (List.cons.inj hs).1.symm
      have hskip : component? first = none := hfirst ▸ rfl
      simp [hp, hskip]

theorem same_of_inner_eq (hp : p.isAbsolute = true) (hq : q.isAbsolute = true) (h : p.inner = q.inner) :
    p.same q = true := by
  rw [same, components_of_isAbsolute hp, components_of_isAbsolute hq, h]
  exact decide_eq_true rfl

theorem stack_eq : p.stack = p.inner.foldl resolve p.base := by
  unfold stack base
  cases hp : p.isAbsolute with
  | true => simp [components_of_isAbsolute hp, resolve]
  | false =>
      unfold components inner
      cases hs : Text.split (· == '/') p.chars with
      | nil => exact absurd hs (Text.split_ne_nil _ _)
      | cons first rest =>
          by_cases hfirst : first = ['.']
          · simp [hp, hfirst, component?, resolve]
          · cases hc : component? first <;> simp [hp, hfirst, hc]

theorem stack_join : (p.join q).stack = if q.isAbsolute then q.stack else q.inner.foldl resolve p.stack := by
  rw [stack_eq, inner_join, base, isAbsolute_join]
  cases hq : q.isAbsolute with
  | true => simp [stack_eq, base, hq]
  | false => simp [stack_eq, base, List.foldl_append]

theorem stack_join_congr (h : p.stack = q.stack) (r : Path) : (p.join r).stack = (q.join r).stack := by
  rw [stack_join, stack_join, h]

theorem stack_join_empty (p : Path) : (p.join empty).stack = p.stack := by
  rw [stack_join]
  rfl

theorem resolve_name (st : List Component) (piece : List Char) : resolve st (.name piece) = .name piece :: st := by
  cases st with
  | nil => rfl
  | cons d st => cases d <;> rfl

theorem mem_resolve {d : Component} (h : d ∈ resolve st c) : d ∈ st ∨ d = c := by
  unfold resolve at h
  split at h
  · exact .inl h
  · exact .inl (List.mem_cons_of_mem _ h)
  · exact .inl h
  · exact (List.mem_cons.1 h).symm

theorem mem_foldl_resolve {d : Component} (h : d ∈ cs.foldl resolve st) : d ∈ st ∨ d ∈ cs := by
  induction cs generalizing st with
  | nil => exact .inl h
  | cons c cs ih =>
      rcases ih h with hd | hd
      · rcases mem_resolve hd with hd | rfl
        · exact .inl hd
        · exact .inr List.mem_cons_self
      · exact .inr (List.mem_cons_of_mem c hd)

theorem foldl_resolve_reverse (hc : ∀ c ∈ cs, c.IsInner) (st : List Component) :
    (cs.foldl resolve []).reverse.foldl resolve st = cs.foldl resolve st := by
  induction cs using List.reverseRecOn with
  | nil => rfl
  | append_singleton cs c ih =>
      have hcs : ∀ d ∈ cs, d.IsInner := fun d hd => hc d (List.mem_append_left _ hd)
      rw [List.foldl_append, List.foldl_append, ← ih hcs]
      simp only [List.foldl_cons, List.foldl_nil]
      rcases (hc c (by simp)).cases with rfl | ⟨piece, rfl⟩
      · cases hk : cs.foldl resolve [] with
        | nil => rfl
        | cons d kept =>
            have hd : d ∈ cs := (mem_foldl_resolve (hk ▸ List.mem_cons_self)).resolve_left (by simp)
            rcases (hcs d hd).cases with rfl | ⟨piece, rfl⟩
            · simp [resolve, List.foldl_append]
            · simp [resolve, List.foldl_append]
      · simp [resolve_name, List.foldl_append]

theorem foldl_join_inner (hc : ∀ c ∈ cs, c.IsInner) (p : Path) :
    (cs.foldl (fun p c => p.join ⟨c.chars⟩) p).inner = p.inner ++ cs ∧
      (cs.foldl (fun p c => p.join ⟨c.chars⟩) p).isAbsolute = p.isAbsolute := by
  induction cs generalizing p with
  | nil => simp
  | cons c cs ih =>
      have hfirst := hc c List.mem_cons_self
      obtain ⟨hi, ha⟩ := ih (fun d hd => hc d (List.mem_cons_of_mem c hd)) (p.join ⟨c.chars⟩)
      rw [List.foldl_cons, hi, ha, inner_join, isAbsolute_join, isAbsolute_eq_of_isInner hfirst,
        inner_eq_of_isInner hfirst]
      simp

theorem foldl_resolve_rooted (hc : ∀ c ∈ cs, c.IsInner) (pieces : List (List Char)) :
    ∃ kept : List (List Char), cs.foldl resolve (pieces.map .name ++ [.root]) = kept.map .name ++ [.root] := by
  induction cs generalizing pieces with
  | nil => exact ⟨pieces, rfl⟩
  | cons c cs ih =>
      have hcs : ∀ d ∈ cs, d.IsInner := fun d hd => hc d (List.mem_cons_of_mem c hd)
      rcases (hc c List.mem_cons_self).cases with rfl | ⟨piece, rfl⟩
      · cases pieces with
        | nil => exact ih hcs []
        | cons piece pieces => exact ih hcs pieces
      · rw [List.foldl_cons, resolve_name]
        exact ih hcs (piece :: pieces)

theorem exists_stack_of_isAbsolute (hp : p.isAbsolute = true) :
    ∃ pieces : List (List Char), p.stack = pieces.map .name ++ [.root] := by
  rw [stack_eq, base, if_pos hp]
  exact foldl_resolve_rooted (fun c => isInner_of_mem_inner) []

theorem isInner_of_mem_stack (h : c ∈ p.stack) (hne : c ≠ .root) : c.IsInner := by
  rw [stack_eq] at h
  rcases mem_foldl_resolve h with h | h
  · unfold base at h
    split at h
    · exact absurd (List.mem_singleton.1 h) hne
    · simp at h
  · exact isInner_of_mem_inner h

theorem exists_reverse_stack_eq (p : Path) :
    ∃ cs : List Component, (∀ c ∈ cs, c.IsInner) ∧ p.stack.reverse = p.base ++ cs := by
  cases hp : p.isAbsolute with
  | true =>
      obtain ⟨pieces, hs⟩ := exists_stack_of_isAbsolute hp
      refine ⟨(pieces.map .name).reverse, fun c hc => ?_, by simp [hs, base, hp]⟩
      have hmem : c ∈ pieces.map Component.name := List.mem_reverse.1 hc
      refine isInner_of_mem_stack (hs ▸ List.mem_append_left _ hmem) ?_
      obtain ⟨piece, -, rfl⟩ := List.mem_map.1 hmem
      simp
  | false =>
      refine ⟨p.stack.reverse, fun c hc => ?_, by simp [base, hp]⟩
      rw [List.mem_reverse, stack_eq, base, hp] at hc
      exact isInner_of_mem_inner ((mem_foldl_resolve hc).resolve_left (by simp))

theorem normalize_eq_foldl (hs : p.stack.reverse = p.base ++ cs) :
    p.normalize = cs.foldl (fun q c => q.join ⟨c.chars⟩) (ofComponents p.base) := by
  rw [normalize, ofComponents, show p.components.foldl resolve [] = p.stack from rfl, hs, List.foldl_append]
  rfl

theorem ofComponents_base (p : Path) :
    (ofComponents p.base).components = p.base ∧ (ofComponents p.base).inner = [] ∧
      (ofComponents p.base).isAbsolute = p.isAbsolute := by
  rw [base]
  cases p.isAbsolute <;> decide

theorem normalize_inner : p.normalize.inner.reverse ++ p.base = p.stack ∧
    p.normalize.isAbsolute = p.isAbsolute := by
  obtain ⟨cs, hinner, hs⟩ := exists_reverse_stack_eq p
  obtain ⟨-, hbaseInner, hbaseAbsolute⟩ := ofComponents_base p
  obtain ⟨hi, ha⟩ := foldl_join_inner hinner (ofComponents p.base)
  have hbase : p.base.reverse = p.base := by
    rw [base]
    split <;> rfl
  rw [normalize_eq_foldl hs, hi, ha, hbaseInner, List.nil_append]
  refine ⟨?_, hbaseAbsolute⟩
  rw [← hbase, ← List.reverse_append, ← hs, List.reverse_reverse]

theorem isAbsolute_normalize : p.normalize.isAbsolute = p.isAbsolute := normalize_inner.2

theorem inner_normalize_of_relative (hp : p.isAbsolute = false) : p.normalize.inner = p.stack.reverse := by
  have h := (normalize_inner (p := p)).1
  rw [base, hp] at h
  simpa using congrArg List.reverse h

theorem exists_inner_normalize_of_isAbsolute (hp : p.isAbsolute = true) :
    ∃ pieces : List (List Char), p.normalize.inner = pieces.map .name := by
  obtain ⟨pieces, hs⟩ := exists_stack_of_isAbsolute hp
  have h := (normalize_inner (p := p)).1
  rw [hs, base, if_pos hp] at h
  refine ⟨pieces.reverse, ?_⟩
  rw [List.map_reverse, ← List.append_cancel_right h, List.reverse_reverse]

theorem foldl_resolve_normalize (hp : p.isAbsolute = false) (st : List Component) :
    p.normalize.inner.foldl resolve st = p.inner.foldl resolve st := by
  rw [inner_normalize_of_relative hp, stack_eq, base, hp]
  exact foldl_resolve_reverse (fun c => isInner_of_mem_inner) st

theorem foldl_resolve_names (pieces : List (List Char)) (st : List Component) :
    (pieces.map .name).foldl resolve st = (pieces.map .name).reverse ++ st := by
  induction pieces generalizing st with
  | nil => rfl
  | cons piece pieces ih => simp [resolve_name, ih]

theorem stack_normalize : p.normalize.stack = p.stack := by
  cases hp : p.isAbsolute with
  | true =>
      obtain ⟨pieces, hi⟩ := exists_inner_normalize_of_isAbsolute hp
      rw [← (normalize_inner (p := p)).1, stack_eq, base, base, isAbsolute_normalize, hi, hp]
      exact foldl_resolve_names pieces _
  | false =>
      rw [stack_eq, foldl_resolve_normalize hp, stack_eq, base, base, isAbsolute_normalize]

theorem normalize_eq_of_stack_eq (h : p.stack = q.stack) : p.normalize = q.normalize :=
  congrArg (fun st : List Component => ofComponents st.reverse) h

theorem normalize_normalize : p.normalize.normalize = p.normalize := normalize_eq_of_stack_eq stack_normalize

theorem same_iff_eq (hp : p.normalize = p) (hq : q.normalize = q) : p.same q = true ↔ p = q := by
  constructor
  · intro h
    have hc : p.components = q.components := of_decide_eq_true h
    rw [← hp, ← hq, normalize_eq_of_stack_eq (congrArg (List.foldl resolve []) hc)]
  · rintro rfl
    exact decide_eq_true rfl

/-- Normalising a path that is joined on changes nothing. -/
theorem stack_join_normalize : (p.join q.normalize).stack = (p.join q).stack := by
  rw [stack_join, stack_join, isAbsolute_normalize, stack_normalize]
  cases hq : q.isAbsolute with
  | true => rfl
  | false => exact foldl_resolve_normalize hq _

theorem stack_join_join : (p.join (q.join r)).stack = ((p.join q).join r).stack := by
  rw [stack_join, stack_join, stack_join, stack_join, isAbsolute_join, inner_join]
  cases hr : r.isAbsolute <;> cases hq : q.isAbsolute <;> simp [List.foldl_append]

theorem dropWhile_filter_of_isInner (hc : ∀ c ∈ cs, c.IsInner) :
    (cs.filter (· ≠ .root)).dropWhile (· == .here) = cs := by
  have hne (c : Component) (hm : c ∈ cs) : c ≠ .root ∧ c ≠ .here := by
    rcases (hc c hm).cases with rfl | ⟨piece, rfl⟩ <;> simp
  rw [List.filter_eq_self.2 fun c hm => decide_eq_true (hne c hm).1]
  cases cs with
  | nil => rfl
  | cons c cs => exact List.dropWhile_cons_of_neg (by simpa using (hne c List.mem_cons_self).2)

theorem names_eq (p : Path) : (p.components.filter (· ≠ .root)).dropWhile (· == .here) = p.inner := by
  have hinner : ∀ c ∈ p.inner, c.IsInner := fun c => isInner_of_mem_inner
  cases hp : p.isAbsolute with
  | true =>
      rw [components_of_isAbsolute hp, List.filter_cons_of_neg (by simp), dropWhile_filter_of_isInner hinner]
  | false =>
      unfold components
      unfold inner at hinner ⊢
      cases hs : Text.split (· == '/') p.chars with
      | nil => exact absurd hs (Text.split_ne_nil _ _)
      | cons first rest =>
          rw [hs] at hinner
          by_cases hfirst : first = ['.']
          · have hskip : component? first = none := component?_eq_none.2 (.inr hfirst)
            rw [List.filterMap_cons_none hskip] at hinner ⊢
            simpa [hp, hfirst] using dropWhile_filter_of_isInner hinner
          · have hsame : (component? first).toList ++ rest.filterMap component? = (first :: rest).filterMap component? := by
              cases hc : component? first <;> simp [hc]
            simp only [hp, Bool.false_eq_true, if_false, hfirst, hsame]
            exact dropWhile_filter_of_isInner hinner

theorem foldl_join_rooted (hp : p.isAbsolute = true) (ha : q.isAbsolute = true) (hi : q.inner = []) :
    (p.inner.foldl (fun q c => q.join ⟨c.chars⟩) q).isAbsolute = true ∧
      (p.inner.foldl (fun q c => q.join ⟨c.chars⟩) q).stack = p.stack := by
  obtain ⟨hqi, hqa⟩ := foldl_join_inner (fun c => isInner_of_mem_inner) q
  refine ⟨hqa.trans ha, ?_⟩
  rw [stack_eq, stack_eq, base, base, hqi, hqa, ha, hi, hp, List.nil_append]

theorem join_empty_rooted (hp : p.isAbsolute = true) :
    (p.join empty).isAbsolute = true ∧ (p.join empty).stack = p.stack :=
  ⟨by rw [isAbsolute_join, hp, Bool.or_true], stack_join_empty p⟩

theorem absolute_of_isAbsolute (hp : p.isAbsolute = true) (workDir : Path) :
    (p.absolute workDir).isAbsolute = true ∧ (p.absolute workDir).stack = p.stack := by
  have hne : p.chars ≠ [] := by
    intro he
    simp [isAbsolute, he] at hp
  -- Two leading slashes are kept where there are exactly two; either way nothing stands before the names.
  obtain ⟨start, hs, ha, hi⟩ : ∃ start : Path,
      (if p.chars.take 2 = ['/', '/'] ∧ (p.chars.drop 2).head? ≠ some '/' then ⟨['/', '/']⟩ else ⟨['/']⟩) = start ∧
        start.isAbsolute = true ∧ start.inner = [] := by
    refine ⟨_, rfl, ?_, ?_⟩
    · split <;> rfl
    · split <;> decide
  have hq := foldl_join_rooted hp ha hi
  simp only [absolute, absolute?, hne, if_false, Option.getD_some, names_eq, hp, Bool.not_true,
    Bool.false_eq_true, hs]
  split
  · rw [← hq.2]
    exact join_empty_rooted hq.1
  · exact hq

end Path

end CMakeHelm
