import CMakeHelm.Proofs.Statement.Grammar
import CMakeHelm.Proofs.Text.Lines

namespace CMakeHelm.Statement

open Text

variable {k : Cut} {line cs : List Char} {c : Char}

theorem Cut.Proper.concat (hk : k.Proper) (hc : isBlank c = true) (hne : c ≠ '\n') :
    ∃ k' : Cut, k'.Proper ∧ k'.chars = k.chars ++ [c] ∧ k'.name = k.name ∧ k'.body = k.body := by
  rcases hk.tail with htail | ⟨comment, htail, hline⟩
  · refine ⟨{ k with ending := k.ending ++ [c] }, { hk with ending := ?_ }, by simp [Cut.chars, htail], rfl, rfl⟩
    exact List.forall_mem_append.2 ⟨hk.ending, List.forall_mem_singleton.2 hc⟩
  · refine ⟨{ k with tail := k.tail ++ [c] }, { hk with tail := .inr ⟨comment ++ [c], by simp [htail], ?_⟩ },
      by simp [Cut.chars], rfl, rfl⟩
    simpa [hline] using hne.symm

theorem Cut.Proper.of_concat (hk : k.Proper) (hc : isBlank c = true) (h : k.chars = line ++ [c]) :
    ∃ k' : Cut, k'.Proper ∧ k'.chars = line ∧ k'.name = k.name ∧ k'.body = k.body := by
  have hlast (front : List Char) (d : Char) (hchars : k.chars = front ++ [d]) : front = line ∧ d = c :=
    (List.append_inj' (hchars.symm.trans h) rfl).imp_right List.singleton_inj.1
  rcases hk.tail with htail | ⟨comment, htail, hline⟩
  · rcases List.eq_nil_or_concat k.ending with hending | ⟨ending, d, hending⟩
    · obtain ⟨-, rfl⟩ := hlast (k.indent ++ (k.name ++ (k.opening ++ '(' :: k.body))) ')' (by
        simp [Cut.chars, htail, hending])
      exact absurd hc (by decide)
    · obtain ⟨hfront, -⟩ := hlast (k.indent ++ (k.name ++ (k.opening ++ '(' :: (k.body ++ ')' :: ending)))) d (by
        simp [Cut.chars, htail, hending])
      refine ⟨{ k with ending }, { hk with ending := fun d hd => hk.ending d ?_ }, ?_, rfl, rfl⟩
      · simp [hending, hd]
      · simpa [Cut.chars, htail] using hfront
  · rcases List.eq_nil_or_concat comment with hcomment | ⟨text, d, hcomment⟩
    · obtain ⟨-, rfl⟩ := hlast (k.indent ++ (k.name ++ (k.opening ++ '(' :: (k.body ++ ')' :: k.ending)))) '#' (by
        simp [Cut.chars, htail, hcomment])
      exact absurd hc (by decide)
    · obtain ⟨hfront, -⟩ := hlast
        (k.indent ++ (k.name ++ (k.opening ++ '(' :: (k.body ++ ')' :: (k.ending ++ '#' :: text))))) d (by
          simp [Cut.chars, htail, hcomment])
      refine ⟨{ k with tail := '#' :: text }, { hk with tail := .inr ⟨text, rfl, fun hm => hline ?_⟩ }, hfront, rfl, rfl⟩
      simp [hcomment, hm]

theorem parseChars?_concat (hc : isBlank c = true) (hne : c ≠ '\n') (line : List Char) :
    parseChars? (line ++ [c]) = parseChars? line := by
  apply Option.ext
  intro s
  rw [parseChars?_eq_some_iff, parseChars?_eq_some_iff]
  constructor
  · rintro ⟨k, hk, hchars, rfl⟩
    obtain ⟨k', hk', hchars', hname, hbody⟩ := hk.of_concat hc hchars
    exact ⟨k', hk', hchars', by rw [hname, hbody]⟩
  · rintro ⟨k, hk, rfl, rfl⟩
    obtain ⟨k', hk', hchars', hname, hbody⟩ := hk.concat hc hne
    exact ⟨k', hk', hchars', by rw [hname, hbody]⟩

theorem chomp_eq_or (line : List Char) : chomp line = line ∨ line = chomp line ++ ['\r'] := by
  fun_induction chomp line with
  | case1 => exact .inl rfl
  | case2 => exact .inr rfl
  | case3 c cs _ ih => exact ih.imp (congrArg (c :: ·)) (congrArg (c :: ·))

theorem parseChars?_chomp (line : List Char) : parseChars? (chomp line) = parseChars? line := by
  rcases chomp_eq_or line with h | h
  · rw [h]
  · have hconcat := parseChars?_concat (c := '\r') (by decide) (by decide) (chomp line)
    rw [← hconcat, ← h]

theorem filterMap_linesOfPieces (pieces : List (List Char)) :
    (linesOfPieces pieces).filterMap parseChars? = pieces.filterMap parseChars? := by
  fun_induction linesOfPieces pieces with
  | case1 => rfl
  | case2 => rfl
  | case3 last h => rfl
  | case4 piece q qs ih => rw [List.filterMap_cons, List.filterMap_cons, parseChars?_chomp, ih]

/-- The statements of a text, from its pieces between line feeds as they are. -/
def held (cs : List Char) : List Statement := (split (· == '\n') cs).filterMap parseChars?

theorem scan_eq_held (text : String) : scan text = held text.toList := filterMap_linesOfPieces _

theorem held_append_newline (cs ds : List Char) : held (cs ++ '\n' :: ds) = held cs ++ held ds := by
  rw [held, split_newline, List.filterMap_append, held, held]

theorem held_of_not_mem (h : '\n' ∉ cs) : held cs = (parseChars? cs).toList := by
  have hnot : ∀ c ∈ cs, (c == '\n') = false := fun c hc => beq_false_of_ne fun he => h (he ▸ hc)
  rw [held, split_of_forall_not hnot]
  cases h : parseChars? cs <;> simp [h]

theorem held_concat_return (cs : List Char) : held (cs ++ ['\r']) = held cs := by
  by_cases h : '\n' ∈ cs
  · obtain ⟨front, rest, hcut⟩ := List.append_of_mem h
    have hshorter : rest.length < cs.length := by
      rw [hcut, List.length_append, List.length_cons]
      omega
    rw [hcut, List.append_assoc, List.cons_append, held_append_newline, held_append_newline, held_concat_return rest]
  · rw [held_of_not_mem h, held_of_not_mem (by simpa using h), parseChars?_concat (by decide) (by decide)]
termination_by cs.length

theorem held_replace_newline (front cs : List Char) :
    held (front ++ replace ['\n'] ['\r', '\n'] cs) = held (front ++ cs) := by
  rw [replace_singleton]
  induction cs generalizing front with
  | nil => rfl
  | cons c cs ih =>
      rw [List.flatMap_cons]
      by_cases hc : c = '\n'
      · have hih := ih []
        rw [List.nil_append, List.nil_append] at hih
        rw [if_pos hc, hc, List.cons_append, List.append_cons, List.singleton_append, held_append_newline, hih,
          held_concat_return, held_append_newline]
      · rw [if_neg hc, List.singleton_append, List.append_cons, ih, ← List.append_cons]

/-- A text is scanned piece by piece between its line feeds, each piece on its own, so what stands before a line feed is
scanned as if nothing stood behind it and the other way round. It does not matter for the statements whether lines end
with a line feed or with a carriage return and a line feed, or whether the last line is ended, in one way or the other
or with the carriage return alone. -/
theorem scan_is_line_local :
    (∀ text, scan text = (split (· == '\n') text.toList).filterMap parseChars?) ∧
      (∀ a b, scan (a ++ "\n" ++ b) = scan a ++ scan b) ∧
      (∀ text, scan (String.ofList (replace ['\n'] ['\r', '\n'] text.toList)) = scan text) ∧
      ∀ text, scan (text ++ "\n") = scan text ∧ scan (text ++ "\r\n") = scan text ∧ scan (text ++ "\r") = scan text := by
  have hnewline (cs : List Char) : held (cs ++ ['\n']) = held cs := by
    have hnil : held [] = [] := rfl
    rw [held_append_newline, hnil, List.append_nil]
  refine ⟨scan_eq_held, fun a b => ?_, fun text => ?_, fun text => ⟨?_, ?_, ?_⟩⟩
  · simpa [scan_eq_held] using held_append_newline a.toList b.toList
  · simpa [scan_eq_held] using held_replace_newline [] text.toList
  · simpa [scan_eq_held] using hnewline text.toList
  · have hreturn := hnewline (text.toList ++ ['\r'])
    rw [held_concat_return] at hreturn
    simpa [scan_eq_held] using hreturn
  · simpa [scan_eq_held] using held_concat_return text.toList

example : scan "a(b) # c\r\n\rd()\r" = [⟨"a", ["b"]⟩, ⟨"d", []⟩] := by decide +kernel

end CMakeHelm.Statement
