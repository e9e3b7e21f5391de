import CMakeHelm.Proofs.Sh.Words
import CMakeHelm.Sh.Eval

namespace CMakeHelm.Sh

open Grammar Parameter Run

variable {m m' : Machine} {n : Nat} {text w : Octets} {p : Part}

namespace Run

theorem bind_ok {α β : Type} {x : Run α} {f : α → Run β} {a : α} (h : x m = (.ok a, m')) : (x >>= f) m = f a m' := by
  simp [bind, ExceptT.bind, ExceptT.mk, ExceptT.bindCont, StateT.bind, h]

theorem pure_eq {α : Type} (a : α) (m : Machine) : (pure a : Run α) m = (.ok a, m) := rfl

theorem map_ok {α β : Type} {x : Run α} {a : α} (f : α → β) (h : x m = (.ok a, m')) :
    (f <$> x) m = (.ok (f a), m') := by
  rw [map_eq_pure_bind, bind_ok h]
  rfl

theorem forIn_collect {α β : Type} {f : α → List β → Run (ForInStep (List β))} {g : α → List β} {xs : List α}
    (h : ∀ x ∈ xs, ∀ all, f x all m = (.ok (.yield (all ++ g x)), m)) (all : List β) :
    (forIn xs all f : Run (List β)) m = (.ok (all ++ xs.flatMap g), m) := by
  induction xs generalizing all with
  | nil => simp [pure_eq]
  | cons x xs ih =>
      rw [List.forIn_cons, bind_ok (h x List.mem_cons_self all)]
      simp [ih fun y hy => h y (List.mem_cons_of_mem x hy)]

end Run

theorem foldl_step_chars (ifs : Octets) (quoted : Bool) (cs : Octets) (field : List Glyph) :
    (cs.map (Atom.char · quoted false)).foldl (Splitting.step ifs) { current := some field } =
      { current := some ((cs.map (Glyph.mk · quoted)).reverse ++ field) } := by
  induction cs generalizing field with
  | nil => rfl
  | cons c cs ih =>
      have hstep : Splitting.step ifs { current := some field } (.char c quoted false) =
          { current := some (⟨c, quoted⟩ :: field) } := by
        simp [Splitting.step, Splitting.add]
      rw [List.map_cons, List.foldl_cons, hstep, ih]
      simp

theorem splitFields_plain (ifs : Octets) (hw : w ≠ []) :
    splitFields ifs (Atom.plain w) = [w.map (Glyph.mk · false)] := by
  cases w with
  | nil => exact absurd rfl hw
  | cons c cs =>
      have hstep : Splitting.step ifs {} (.char c false false) = { current := some [⟨c, false⟩] } := by
        simp [Splitting.step, Splitting.add]
      rw [splitFields, Atom.plain, List.map_cons, List.foldl_cons, hstep, foldl_step_chars]
      simp [Splitting.finish]

theorem splitFields_quoted (ifs : Octets) (w : Octets) :
    splitFields ifs (Atom.quoted w) = [w.map (Glyph.mk · true)] := by
  have hmark : Splitting.step ifs {} .mark = { current := some [] } := rfl
  rw [splitFields, Atom.quoted, List.foldl_cons, hmark, foldl_step_chars]
  simp [Splitting.finish]

theorem literal_map_mk (quoted : Bool) (w : Octets) : literal (w.map (Glyph.mk · quoted)) = w := by
  simp [literal, Function.comp_def]

theorem isPattern_quoted (rules : PatternRules) (w : Octets) : isPattern rules (w.map (Glyph.mk · true)) = false := by
  induction w with
  | nil => rfl
  | cons c cs ih => simp [isPattern, ih]

theorem isPattern_inert (rules : PatternRules) (h : ∀ c ∈ w, isInert c) :
    isPattern rules (w.map (Glyph.mk · false)) = false := by
  induction w with
  | nil => rfl
  | cons c cs ih =>
      have hc := h c List.mem_cons_self
      have hnext : cs.head? ≠ some '(' := by
        intro hhead
        have hparen := h '(' (List.mem_cons_of_mem c (List.mem_of_head? hhead))
        simp [isInert, Parse.isMeta] at hparen
      rw [List.map_cons, isPattern, ih fun d hd => h d (List.mem_cons_of_mem c hd)]
      simp only [isInert, Bool.and_eq_true, decide_eq_true_eq, List.mem_cons, List.not_mem_nil, or_false, not_or] at hc
      simp [hc, hnext]

theorem word_of_part {atoms : List Atom} (htilde : tildes false [p] m = (.ok [p], m))
    (hpart : Eval.part (n + 1) p m = (.ok atoms, m)) : Eval.word (n + 2) false [p] m = (.ok atoms, m) := by
  have hparts : List.mapM (Eval.part (n + 1)) [p] m = (.ok [atoms], m) := by
    rw [List.mapM_cons]
    exact (bind_ok hpart).trans rfl
  rw [Eval.word, bind_ok htilde, bind_ok hparts, pure_eq]
  simp

theorem word_spelled (h : Spells text p w) (n : Nat) (m : Machine) :
    ∃ atoms quoted, Eval.word (n + 2) false [p] m = (.ok atoms, m) ∧
      (∀ ifs, splitFields ifs atoms = [w.map (Glyph.mk · quoted)]) ∧
      ∀ rules, isPattern rules (w.map (Glyph.mk · quoted)) = false := by
  cases h with
  | bare hne hinert hhead =>
      have htilde : tildes false [.plain text] m = (.ok [.plain text], m) := by
        have hnone : atTilde false true text m = (.ok ([], text), m) := by
          unfold atTilde
          split
          next rest => simp at hhead
          next => rfl
        rw [tildes]
        exact (bind_ok hnone).trans rfl
      exact ⟨Atom.plain text, false, word_of_part htilde (by rw [Eval.part]; rfl), fun ifs => splitFields_plain ifs hne,
        fun rules => isPattern_inert rules hinert⟩
  | quoted =>
      exact ⟨Atom.quoted w, true, word_of_part rfl (by rw [Eval.part]; rfl), fun ifs => splitFields_quoted ifs w,
        fun rules => isPattern_quoted rules w⟩

theorem fields_spelled (words : List Spelling) (n : Nat) (hbraces : 'B' ∉ m.shell.options) :
    Eval.fields (n + 3) (words.map ([·.part])) m = (.ok (words.map (·.word)), m) := by
  have hoption : hasOption 'B' m = (.ok false, m) := by
    have hvalue : hasOption 'B' m = (.ok (decide ('B' ∈ m.shell.options)), m) := rfl
    rw [hvalue, decide_eq_false hbraces]
  rw [Eval.fields, bind_ok hoption, if_neg Bool.false_ne_true, List.forIn_map]
  refine (bind_ok (forIn_collect (g := fun a => [a.word]) ?_ [])).trans ?_
  · intro a ha all
    obtain ⟨atoms, quoted, hword, hsplit, hpattern⟩ := word_spelled a.spells n m
    obtain ⟨ifs, hseparators⟩ : ∃ ifs, separators m = (.ok ifs, m) := ⟨_, rfl⟩
    obtain ⟨literally, hliteral⟩ : ∃ literally, hasOption 'f' m = (.ok literally, m) := ⟨_, rfl⟩
    refine (bind_ok hseparators).trans ((bind_ok hword).trans ?_)
    rw [hsplit]
    refine (bind_ok hliteral).trans ?_
    cases literally with
    | true => simp [literal_map_mk, pure_eq]
    | false =>
        obtain ⟨fs, hfiles⟩ : ∃ fs, files m = (.ok fs, m) := ⟨_, rfl⟩
        obtain ⟨rules, hrules⟩ : ∃ rules, nameRules m = (.ok rules, m) := ⟨_, rfl⟩
        obtain ⟨fails, hfails⟩ : ∃ fails, hasSwitch "failglob" m = (.ok fails, m) := ⟨_, rfl⟩
        have hnames : fileNames fs rules (a.word.map (Glyph.mk · quoted)) = [a.word] := by
          rw [fileNames, hpattern, if_neg Bool.false_ne_true, literal_map_mk]
        refine (bind_ok hfiles).trans ((bind_ok hrules).trans ?_)
        refine (bind_ok (forIn_collect (g := fun _ => [a.word]) ?_ all)).trans rfl
        intro gs hgs all
        rw [List.mem_singleton.1 hgs, hnames]
        refine (bind_ok hfails).trans ?_
        rw [if_neg (by simp [hpattern])]
        rfl
  · rw [pure_eq, List.map_eq_flatMap, List.nil_append]

theorem arguments_spelled (program : Spelling) (args : List Spelling) (n : Nat) (hposix : m.shell.dialect = .posix)
    (hbraces : 'B' ∉ m.shell.options) (hname : String.ofList program.word ∉ ["export", "readonly", "local"]) :
    Eval.arguments (n + 4) ([program.part] :: args.map ([·.part])) m =
      (.ok ((program :: args).map fun a => .text a.word), m) := by
  have hshell : shell m = (.ok m.shell, m) := rfl
  have hfields := fields_spelled (program :: args) n hbraces
  rw [Eval.arguments, bind_ok hshell]
  simp only []
  rw [if_neg]
  · exact (map_ok _ hfields).trans (by rw [List.map_map]; rfl)
  · rintro ⟨-, hbash | hdefines⟩
    · rw [hposix] at hbash
      cases hbash
    · obtain ⟨text, part, word, hspells⟩ := program
      cases hspells with
      | bare => exact hname (by simpa using hdefines)
      | quoted => simp at hdefines

end CMakeHelm.Sh
