import CMakeHelm.Proofs.Sh.Words

namespace CMakeHelm.Sh.Grammar

open Parse

variable {r : Reader} {c d : Char} {cs more : Octets} {n : Nat}

theorem redirects?_eq_none (hr : r.IsPlain) (h : ∀ c ∈ (r.rest.dropWhile Char.isDigit).head?, c ≠ '<' ∧ c ≠ '>') :
    redirects? r = .ok (none, r) := by
  rw [redirects?, bind_ok (rest_eq r), bind_ok (dialect_eq hr), drop_length_takeWhile]
  cases hafter : r.rest.dropWhile Char.isDigit with
  | nil => simp [isProcessPipe, pure_eq]
  | cons c cs =>
      have hc := h c (by simp [hafter])
      simp [isProcessPipe, hc, pure_eq]

theorem mem_or_eq_of_mem_head?_dropWhile {p : Char → Bool} {w : Octets} (hd : p d = false)
    (hc : c ∈ ((w ++ d :: more).dropWhile p).head?) : c ∈ w ∨ c = d := by
  rw [dropWhile_append_cons hd] at hc
  cases hafter : w.dropWhile p with
  | nil =>
      rw [hafter] at hc
      exact .inr (Option.some.inj hc).symm
  | cons b bs =>
      rw [hafter] at hc
      have hb : b ∈ w := (List.dropWhile_sublist p).subset (hafter ▸ List.mem_cons_self)
      exact .inl (Option.some.inj hc ▸ hb)

theorem Spells.redirects?_eq {text : Octets} {p : Part} {w : Octets} (h : Spells text p w) (hr : r.IsPlain)
    (hrest : r.rest = text ++ d :: more) (hd : d = ' ' ∨ d = '\n') : redirects? r = .ok (none, r) := by
  refine redirects?_eq_none hr fun c hc => ?_
  rw [hrest] at hc
  cases h with
  | bare hne hinert hhead =>
      have hdigit : d.isDigit = false := by rcases hd with rfl | rfl <;> rfl
      rcases mem_or_eq_of_mem_head?_dropWhile hdigit hc with hmem | rfl
      · have hinert := hinert c hmem
        constructor <;> rintro rfl <;> simp [isInert, isMeta] at hinert
      · rcases hd with rfl | rfl <;> decide
  | quoted =>
      rw [List.append_assoc, List.cons_append, List.dropWhile_cons_of_neg (by decide)] at hc
      cases hc
      decide

def operandText (args : List Spelling) : Octets := args.flatMap fun a => ' ' :: a.text

theorem operandText_cons (a : Spelling) (args : List Spelling) :
    operandText (a :: args) = ' ' :: (a.text ++ operandText args) := by
  rw [operandText, List.flatMap_cons, List.cons_append, operandText]

theorem exists_operandText_eq_cons (args : List Spelling) (more : Octets) :
    ∃ d rest, operandText args ++ '\n' :: more = d :: rest ∧ (d = ' ' ∨ d = '\n') := by
  cases args with
  | nil => exact ⟨'\n', more, rfl, .inr rfl⟩
  | cons a args => exact ⟨' ', _, by rw [operandText_cons]; rfl, .inl rfl⟩

theorem simple_operands {args : List Spelling} {first : Word} {words : List Word} (hr : r.IsPlain)
    (hrest : r.rest = operandText args ++ '\n' :: more) (line : Nat) (hn : 2 * (operandText args).length + 5 ≤ n) :
    simple n line [] (first :: words) [] r =
      .ok (.simple line [] (first :: words ++ args.map ([·.part])) [], r.advance (operandText args).length) := by
  induction args generalizing r n words with
  | nil =>
      obtain ⟨n, rfl⟩ := Nat.exists_eq_add_of_le' (m := 1) (by omega : 1 ≤ n)
      have hredirects : redirects? r = .ok (none, r) :=
        redirects?_eq_none hr (by rw [hrest]; rintro c ⟨⟩; decide)
      have hrest : r.rest = '\n' :: more := hrest
      rw [simple, bind_ok (space_of_isSolid hrest (by decide)), bind_ok hredirects]
      simp only [List.isEmpty_cons]
      rw [bind_ok (dialect_eq hr), bind_ok (peek_eq hrest), bind_ok (rest_eq r),
        if_pos (by simp [isProcessPipe, isMeta]), if_neg (by decide)]
      simp [operandText, pure_eq]
  | cons a args ih =>
      obtain ⟨n, rfl⟩ := Nat.exists_eq_add_of_le' (m := 1) (by omega : 1 ≤ n)
      rw [operandText_cons] at hrest hn ⊢
      simp only [List.length_cons, List.length_append] at hn
      obtain ⟨d, rest, hd, hdelimiter⟩ := exists_operandText_eq_cons args more
      obtain ⟨c, cs, htext, hsolid, hmeta⟩ := a.spells.exists_eq_cons
      rw [List.cons_append, List.append_assoc, hd] at hrest
      have hword : (r.advance 1).rest = a.text ++ d :: rest := by simp [hrest]
      have hhead : (r.advance 1).rest = c :: (cs ++ d :: rest) := by rw [hword, htext, List.cons_append]
      have hread := a.spells.parts_eq (n := n) (hr.advance 1) hword hdelimiter (by omega)
      have hblank : r.rest = ' ' :: c :: (cs ++ d :: rest) := by rw [hrest, htext, List.cons_append]
      have hlater : simple n line [] (first :: (words ++ [[a.part]])) [] (r.advance (1 + a.text.length)) = _ :=
        ih (hr.advance _) (by simp [hrest, hd, Nat.add_comm 1]) (by omega)
      rw [simple, bind_ok (space_of_blank hblank hsolid),
        bind_ok (a.spells.redirects?_eq (hr.advance 1) hword hdelimiter)]
      simp only []
      rw [bind_ok (dialect_eq (hr.advance 1)), bind_ok (peek_eq hhead), bind_ok (rest_eq _), if_neg (by simp [hmeta]),
        bind_ok (rest_eq _), if_neg (by simp), bind_ok (unaliasFurther_eq (hr.advance 1)), bind_ok (rest_eq _),
        List.length_cons, List.length_append]
      have hoperand : (parts n .operator >>= fun w => simple n line [] (first :: (words ++ [w])) []) (r.advance 1) =
          .ok (.simple line [] (first :: (words ++ [a.part] :: args.map ([·.part]))) [],
            r.advance (a.text.length + (operandText args).length + 1)) := by
        have hlength : 1 + a.text.length + (operandText args).length =
            a.text.length + (operandText args).length + 1 := by omega
        rw [bind_ok hread, Reader.advance_advance, hlater, Reader.advance_advance, hlength]
        simp
      -- Behind the first word an assignment is a word like any other.
      cases target? .posix (r.advance 1).rest with
      | none => exact hoperand
      | some t => exact hoperand

/-- A text that begins a simple command: it is neither a word with a meaning of its own nor an assignment. -/
def beginsCommand (text : Octets) : Bool :=
  String.ofList (nextWord text) ∉ reservedWords .posix && (target? .posix text).isNone

theorem target?_eq_none_iff :
    target? .posix cs = none ↔
      isName (cs.takeWhile isNameChar) → (cs.dropWhile isNameChar).head? ≠ some '=' := by
  simp only [target?, drop_length_takeWhile]
  cases hname : isName (cs.takeWhile isNameChar) with
  | false => simp
  | true =>
      cases hafter : cs.dropWhile isNameChar with
      | nil => simp
      | cons c cs => by_cases hc : c = '=' <;> simp [hc]

theorem target?_append (h : target? .posix cs = none) (hd : d = ' ' ∨ d = '\n') :
    target? .posix (cs ++ d :: more) = none := by
  rw [target?_eq_none_iff] at h ⊢
  have hchar : isNameChar d = false := by rcases hd with rfl | rfl <;> rfl
  rw [takeWhile_append_cons hchar, dropWhile_append_cons hchar]
  intro hname
  cases hafter : cs.dropWhile isNameChar with
  | nil => rcases hd with rfl | rfl <;> simp
  | cons c rest => simpa [hafter] using h hname

variable {program : Spelling} {args : List Spelling}

def lineText (program : Spelling) (args : List Spelling) : Octets := program.text ++ operandText args

theorem simple_line (hr : r.IsPlain) (hrest : r.rest = lineText program args ++ '\n' :: more)
    (hprogram : beginsCommand program.text) (line : Nat) (hn : 2 * (lineText program args).length + 6 ≤ n) :
    simple n line [] [] [] r =
      .ok (.simple line [] ([program.part] :: args.map ([·.part])) [], r.advance (lineText program args).length) := by
  obtain ⟨n, rfl⟩ := Nat.exists_eq_add_of_le' (m := 1) (by omega : 1 ≤ n)
  obtain ⟨d, rest, hd, hdelimiter⟩ := exists_operandText_eq_cons args more
  obtain ⟨c, cs, htext, hsolid, hmeta⟩ := program.spells.exists_eq_cons
  rw [lineText, List.length_append] at hn ⊢
  have hword : r.rest = program.text ++ d :: rest := by rw [hrest, lineText, List.append_assoc, hd]
  have hhead : r.rest = c :: (cs ++ d :: rest) := by rw [hword, htext, List.cons_append]
  rw [beginsCommand, Bool.and_eq_true, Option.isNone_iff_eq_none] at hprogram
  have htarget : target? .posix r.rest = none := hword ▸ target?_append hprogram.2 hdelimiter
  have hread := program.spells.parts_eq (n := n) hr hword hdelimiter (by omega)
  have hoperands : (r.advance program.text.length).rest = operandText args ++ '\n' :: more := by
    simp [hrest, lineText]
  have hlater : simple n line [] [[program.part]] [] (r.advance program.text.length) = _ :=
    simple_operands (hr.advance _) hoperands line (by omega)
  rw [simple, bind_ok (space_of_isSolid hhead hsolid), bind_ok (program.spells.redirects?_eq hr hword hdelimiter)]
  simp only []
  rw [bind_ok (dialect_eq hr), bind_ok (peek_eq hhead), bind_ok (rest_eq _), if_neg (by simp [hmeta]),
    bind_ok (rest_eq _), htarget, if_pos ⟨rfl, rfl⟩, if_neg (by decide), bind_ok hread, hlater]
  simp

theorem keyword?_eq_none (hr : r.IsPlain) (hc : c ∈ r.rest) (hmeta : isMeta c)
    (h : String.ofList (nextWord r.rest) ∉ reservedWords .posix) : keyword? r = .ok (none, r) := by
  obtain ⟨d, cs, hrest, hd⟩ := exists_eq_nextWord_append hc hmeta
  have hword : ∀ b ∈ nextWord r.rest, isMeta b = false := by
    intro b hb
    simpa using List.all_eq_true.1 List.all_takeWhile b hb
  rw [keyword?_eq _ hr hrest hword hd, if_neg h]

/-- Behind the first word of a command line there is no parenthesis, as there is behind the name of a function. A quoted
word is no name, whatever follows its first blank. -/
theorem not_function (program : Spelling) (args : List Spelling) (more : Octets) (cs : Octets)
    (hcs : cs = lineText program args ++ '\n' :: more) :
    (dropSpace (cs.drop (nextWord cs).length)).head? ≠ some '(' ∨
      (isName (nextWord cs) = false ∧ '"' ∈ nextWord cs) := by
  obtain ⟨text, part, word, hspells⟩ := program
  cases hspells with
  | bare hne hinert hhead =>
      left
      have hplain : ∀ b ∈ text, (!isMeta b) = true := by
        intro b hb
        have hb := hinert b hb
        simp_all [isInert]
      have hafter : cs.drop (nextWord cs).length = operandText args ++ '\n' :: more := by
        obtain ⟨d, rest, hd, hdelimiter⟩ := exists_operandText_eq_cons args more
        rw [nextWord, drop_length_takeWhile, hcs, lineText, List.append_assoc, List.dropWhile_append_of_pos hplain, hd]
        exact List.dropWhile_cons_of_neg (by rcases hdelimiter with rfl | rfl <;> decide)
      rw [hafter]
      cases args with
      | nil =>
          rw [operandText, List.flatMap_nil, List.nil_append, dropSpace_of_isSolid (by decide)]
          simp
      | cons a args =>
          obtain ⟨c, rest, htext, hsolid, hmeta⟩ := a.spells.exists_eq_cons
          rw [operandText_cons, htext, List.cons_append, List.cons_append, List.cons_append, dropSpace_of_blank hsolid]
          rintro ⟨⟩
          simp [isMeta] at hmeta
  | quoted =>
      right
      have hnext : ∃ rest, nextWord cs = '"' :: rest := by
        rw [hcs]
        exact ⟨_, List.takeWhile_cons_of_pos (by decide)⟩
      obtain ⟨rest, hnext⟩ := hnext
      rw [hnext]
      exact ⟨rfl, List.mem_cons_self⟩

def lineCommand (line : Nat) (program : Spelling) (args : List Spelling) : Command :=
  .simple line [] ([program.part] :: args.map ([·.part])) []

theorem exists_lineText_eq_cons (program : Spelling) (args : List Spelling) (more : Octets) :
    ∃ c cs, lineText program args ++ more = c :: cs ∧ isSolid c ∧ c ≠ '(' ∧ c ≠ '\n' := by
  obtain ⟨c, cs, htext, hsolid, hmeta⟩ := program.spells.exists_eq_cons
  refine ⟨c, cs ++ operandText args ++ more, by rw [lineText, htext]; rfl, hsolid, ?_, ?_⟩ <;>
    rintro rfl <;> simp [isMeta] at hmeta

theorem nextWord_lineText (program : Spelling) (args : List Spelling) (more : Octets) :
    nextWord (lineText program args ++ '\n' :: more) = nextWord program.text := by
  obtain ⟨d, rest, hd, hdelimiter⟩ := exists_operandText_eq_cons args more
  rw [lineText, List.append_assoc, hd]
  exact takeWhile_append_cons (by rcases hdelimiter with rfl | rfl <;> decide) _ _

theorem command_line (hr : r.IsPlain) (hrest : r.rest = lineText program args ++ '\n' :: more)
    (hprogram : beginsCommand program.text) (hn : 2 * (lineText program args).length + 7 ≤ n) :
    command n r = .ok (lineCommand r.line program args, r.advance (lineText program args).length) := by
  obtain ⟨n, rfl⟩ := Nat.exists_eq_add_of_le' (m := 1) (by omega : 1 ≤ n)
  obtain ⟨c, cs, hcons, hsolid, hparen, -⟩ := exists_lineText_eq_cons program args ('\n' :: more)
  have hhead : r.rest = c :: cs := hrest.trans hcons
  have hreserved : String.ofList (nextWord r.rest) ∉ reservedWords .posix := by
    rw [hrest, nextWord_lineText]
    rw [beginsCommand, Bool.and_eq_true] at hprogram
    simpa using hprogram.1
  have hkeyword := keyword?_eq_none (c := '\n') hr (by simp [hrest]) (by decide) hreserved
  have hsimple := simple_line hr hrest hprogram r.line (n := n) (by omega)
  have hfunction := not_function program args more r.rest hrest
  rw [command, bind_ok (space_of_isSolid hhead hsolid), bind_ok (dialect_eq hr), bind_ok (a := r.line) (s := r) rfl,
    bind_ok (rest_eq r), hhead]
  simp only [List.cons.injEq, hparen, false_and, imp_self, implies_true, reduceCtorEq, List.mem_cons, not_or,
    Bool.decide_and, decide_not, List.all_eq_true, Bool.and_eq_true, Bool.not_eq_eq_eq_not, Bool.not_true,
    decide_eq_false_iff_not, true_and]
  rw [bind_ok (unalias_eq hr 100), bind_ok hkeyword]
  simp only [nextWord] at hfunction ⊢
  -- What is left are the two ways to recognise the definition of a function.
  rw [bind_ok (rest_eq r), if_neg, if_neg]
  · exact hsimple
  · rintro ⟨-, hafter, hall⟩
    rcases hfunction with hfunction | ⟨-, hquote⟩
    · exact hfunction hafter
    · exact (hall _ hquote).2.1 rfl
  · rintro ⟨hname, -, hafter⟩
    rcases hfunction with hfunction | ⟨hnot, -⟩
    · exact hfunction hafter
    · exact absurd hname (by rw [hnot]; decide)

section Line

variable {s : Reader} {c : Command} {b : Char}

theorem pipeline_of_command (hr : r.IsPlain) (hs : s.IsPlain) (hhead : r.rest = b :: cs) (hb : isSolid b)
    (hword : nextWord r.rest ≠ ['!']) (hcommand : command n r = .ok (c, s)) (hrest : s.rest = '\n' :: more) :
    pipeline (n + 2) r = .ok (c, s) := by
  have hpipes : pipes (n + 1) r = .ok ([c], s) := by
    rw [pipes, bind_ok hcommand, bind_ok (space_of_isSolid hrest (by decide)), bind_ok (dialect_eq hs),
      bind_ok (rest_eq s), hrest]
    rfl
  have hbare : bareWord r = .ok (nextWord r.rest, r) := rfl
  rw [pipeline, bind_ok (space_of_isSolid hhead hb), bind_ok (unalias_eq hr 100), bind_ok hbare, if_neg hword,
    bind_ok (isBash_eq hr), if_neg (by simp), bind_ok hpipes]
  rfl

theorem andOr_of_newline (c : Command) (hrest : s.rest = '\n' :: more) : andOr (n + 1) c s = .ok (c, s) := by
  have hand : startsWith "&&" s = .ok (false, s) := by rw [startsWith_eq, hrest]; rfl
  have hor : startsWith "||" s = .ok (false, s) := by rw [startsWith_eq, hrest]; rfl
  rw [andOr, bind_ok (space_of_isSolid hrest (by decide)), bind_ok hand, if_neg Bool.false_ne_true, bind_ok hor,
    if_neg Bool.false_ne_true, pure_eq]

theorem unit_of_command (hr : r.IsPlain) (hs : s.IsPlain) (hhead : r.rest = b :: cs) (hb : isSolid b) (hline : b ≠ '\n')
    (hword : nextWord r.rest ≠ ['!']) (hcommand : command (20 * r.rest.length + 197) r = .ok (c, s))
    (hrest : s.rest = '\n' :: more) : Grammar.unit r = .ok ([c], s.advance 1) := by
  have hpipeline := pipeline_of_command hr hs hhead hb hword hcommand hrest
  have hlineOfCommands : lineOfCommands (20 * r.rest.length + 200) [] r = .ok ([c], s.advance 1) := by
    rw [lineOfCommands, bind_ok (rest_eq r), bind_ok hpipeline, bind_ok (andOr_of_newline c hrest),
      bind_ok (space_of_isSolid hrest (by decide)), bind_ok (rest_eq s), hrest]
    exact bind_ok (skip_eq 1 s)
  rw [Grammar.unit, bind_ok (newlines_of_isSolid hhead hb hline), bind_ok (rest_eq r), if_neg (by simp [hhead])]
  exact hlineOfCommands

theorem unit_of_trouble {t : Trouble} (hhead : r.rest = b :: cs) (hb : isSolid b) (hline : b ≠ '\n')
    (htrouble : (pipeline (20 * r.rest.length + 199) r).map (fun _ => ()) = .error t) : Grammar.unit r = .error t := by
  have hpipeline : pipeline (20 * r.rest.length + 199) r = .error t := by
    cases hread : pipeline (20 * r.rest.length + 199) r with
    | error u =>
        rw [hread] at htrouble
        exact congrArg _ (Except.error.inj htrouble)
    | ok a =>
        rw [hread] at htrouble
        cases htrouble
  have hlineOfCommands : lineOfCommands (20 * r.rest.length + 200) [] r = .error t := by
    rw [lineOfCommands, bind_ok (rest_eq r), bind_error hpipeline]
  rw [Grammar.unit, bind_ok (newlines_of_isSolid hhead hb hline), bind_ok (rest_eq r), if_neg (by simp [hhead])]
  exact hlineOfCommands

end Line

theorem nextWord_ne_bang (hprogram : beginsCommand program.text) (args : List Spelling) (more : Octets) :
    nextWord (lineText program args ++ '\n' :: more) ≠ ['!'] := by
  rw [nextWord_lineText]
  intro h
  rw [beginsCommand, h] at hprogram
  simp [reservedWords] at hprogram

theorem unit_line (hr : r.IsPlain) (hrest : r.rest = lineText program args ++ '\n' :: more)
    (hprogram : beginsCommand program.text) :
    Grammar.unit r =
      .ok ([lineCommand r.line program args], r.advance ((lineText program args).length + 1)) := by
  obtain ⟨c, cs, hcons, hsolid, -, hnewline⟩ := exists_lineText_eq_cons program args ('\n' :: more)
  have hlength : (lineText program args).length ≤ r.rest.length := by simp [hrest]
  have hcommand := command_line hr hrest hprogram (n := 20 * r.rest.length + 197) (by omega)
  have hend : (r.advance (lineText program args).length).rest = '\n' :: more := by simp [hrest]
  rw [unit_of_command hr (hr.advance _) (hrest.trans hcons) hsolid hnewline
    (hrest ▸ nextWord_ne_bang hprogram args more) hcommand hend, Reader.advance_advance]

/-- What is typed around a command line. -/
def bracedText (program : Spelling) (args : List Spelling) : Octets :=
  "\x7b ".toList ++ lineText program args ++ "\n\x7d </dev/null".toList

def bracedCommand (line : Nat) (program : Spelling) (args : List Spelling) : Command :=
  .redirected (lineCommand line program args) [.mk none .read [.plain "/dev/null".toList]]

theorem list_line (hr : r.IsPlain) (hrest : r.rest = ' ' :: lineText program args ++ '\n' :: '\x7d' :: ' ' :: more)
    (hprogram : beginsCommand program.text) (hn : 2 * (lineText program args).length + 10 ≤ n) :
    list n r = .ok ([lineCommand (r.advance 1).line program args], r.advance ((lineText program args).length + 2)) := by
  obtain ⟨n, rfl⟩ := Nat.exists_eq_add_of_le' (m := 3) (by omega : 3 ≤ n)
  obtain ⟨c, cs, hcons, hsolid, -, hnewline⟩ :=
    exists_lineText_eq_cons program args ('\n' :: '\x7d' :: ' ' :: more)
  -- Behind the line stand the newline that ends it and the brace that ends the list.
  have hfirst : (r.advance 1).rest = lineText program args ++ '\n' :: '\x7d' :: ' ' :: more := by simp [hrest]
  have hsecond : (r.advance (1 + (lineText program args).length)).rest = '\n' :: '\x7d' :: ' ' :: more := by
    simp [hrest, Nat.add_comm 1]
  have hthird : (r.advance (1 + (lineText program args).length + 1)).rest = '\x7d' :: ' ' :: more := by
    simp [hrest, Nat.add_comm 1]
  have hcommand := command_line (hr.advance 1) hfirst hprogram (n := n) (by omega)
  have hpipeline := pipeline_of_command (hr.advance 1) ((hr.advance 1).advance _) (hfirst.trans hcons) hsolid
    (hfirst ▸ nextWord_ne_bang hprogram args _) hcommand (by rw [Reader.advance_advance, hsecond])
  rw [Reader.advance_advance] at hpipeline
  have hblank : r.rest = ' ' :: c :: cs := by rw [hrest, List.cons_append, hcons]
  rw [list, bind_ok (newlines_of_blank hblank hsolid hnewline),
    bind_ok (rest_eq _), bind_ok hpipeline, bind_ok (andOr_of_newline _ hsecond),
    bind_ok (space_of_isSolid hsecond (by decide)), bind_ok (isBash_eq (hr.advance _)), bind_ok (rest_eq _), hsecond]
  have hbrace : keyword? (r.advance (1 + (lineText program args).length + 1)) =
      .ok (some "\x7d", r.advance (1 + (lineText program args).length + 1)) :=
    keyword?_eq ['\x7d'] (hr.advance _) hthird (by simp [isMeta, isSpace]) (by decide)
  have hmore : Grammar.more (n + 2) [lineCommand (r.advance 1).line program args]
      (r.advance (1 + (lineText program args).length)) =
      .ok ([lineCommand (r.advance 1).line program args], r.advance ((lineText program args).length + 2)) := by
    rw [Grammar.more, bind_ok (newlines_of_newline hsecond (by decide) (by decide)), Reader.advance_advance,
      bind_ok (isBash_eq (hr.advance _)), bind_ok (rest_eq _), hthird]
    refine (bind_ok hbrace).trans ?_
    have hlength : 1 + (lineText program args).length + 1 = (lineText program args).length + 2 := by omega
    simp only [bind_pure_comp]
    rw [if_pos (by decide), pure_eq, hlength]
  exact hmore

theorem redirections_devNull (hr : r.IsPlain) (hrest : r.rest = " </dev/null".toList ++ '\n' :: more) :
    redirections (n + 25) r = .ok ([.mk none .read [.plain "/dev/null".toList]], r.advance 11) := by
  have hblank : r.rest = ' ' :: '<' :: ("/dev/null".toList ++ '\n' :: more) := hrest
  have hsign : (r.advance 1).rest = '<' :: '/' :: ("dev/null".toList ++ '\n' :: more) := by
    rw [Reader.advance_rest, hrest]
    rfl
  have htarget : (r.advance 2).rest = '/' :: ("dev/null".toList ++ '\n' :: more) := by
    rw [Reader.advance_rest, hrest]
    rfl
  have hend : (r.advance 11).rest = '\n' :: more := by rw [Reader.advance_rest, hrest]; rfl
  have hredirects : redirects? (r.advance 1) = .ok (some none, r.advance 1) := by
    rw [redirects?, bind_ok (rest_eq _), bind_ok (dialect_eq (hr.advance 1)), hsign]
    rfl
  have hdigits : Parse.takeWhile Char.isDigit (r.advance 1) = .ok ([], r.advance 1) := by
    rw [Parse.takeWhile, bind_ok (rest_eq _), hsign]
    exact (bind_ok (skip_eq 0 _)).trans (by rw [Reader.advance_zero]; rfl)
  have hspells : Spells "/dev/null".toList (.plain "/dev/null".toList) "/dev/null".toList :=
    .bare (by decide) (by simp [isInert, isMeta, isSpace]) (by decide)
  have hname : parts (n + 23) .operator (r.advance 2) = .ok ([.plain "/dev/null".toList], r.advance 11) :=
    (hspells.parts_eq (hr.advance 2) htarget (.inr rfl) (by simp)).trans
      (by rw [Reader.advance_advance]; rfl)
  have hredirection : redirection (n + 24) none (r.advance 1) =
      .ok (.mk none .read [.plain "/dev/null".toList], r.advance 11) := by
    rw [redirection, bind_ok (dialect_eq (hr.advance 1)), bind_ok hdigits, bind_ok (rest_eq _), hsign]
    simp only [List.cons.injEq, Char.reduceEq, false_and, imp_self, implies_true, bind_pure_comp, map_bind]
    rw [bind_ok (skip_eq 1 _), Reader.advance_advance, bind_ok (space_of_isSolid htarget (by decide)), bind_ok hname]
    rfl
  have hlater : redirections (n + 24) (r.advance 11) = .ok ([], r.advance 11) := by
    have hnone : redirects? (r.advance 11) = .ok (none, r.advance 11) :=
      redirects?_eq_none (hr.advance 11) (by rw [hend]; rintro c ⟨⟩; decide)
    rw [redirections, bind_ok (space_of_isSolid hend (by decide)), bind_ok hnone]
    rfl
  rw [redirections, bind_ok (space_of_blank hblank (by decide)), bind_ok hredirects]
  exact (bind_ok hredirection).trans (bind_ok hlater)

theorem command_braced (hr : r.IsPlain) (hrest : r.rest = bracedText program args ++ '\n' :: more)
    (hprogram : beginsCommand program.text) (hn : 2 * (lineText program args).length + 40 ≤ n) :
    command n r = .ok (bracedCommand r.line program args, r.advance (bracedText program args).length) := by
  obtain ⟨n, rfl⟩ := Nat.exists_eq_add_of_le' (m := 27) (by omega : 27 ≤ n)
  have hopen : r.rest = '\x7b' :: ' ' :: (lineText program args ++ '\n' :: '\x7d' :: ' ' ::
      ("</dev/null".toList ++ '\n' :: more)) := by
    simp [hrest, bracedText]
  have hbody : (r.advance 1).rest = ' ' :: lineText program args ++ '\n' :: '\x7d' :: ' ' ::
      ("</dev/null".toList ++ '\n' :: more) := by
    rw [Reader.advance_rest, hopen]
    rfl
  have hclose : (r.advance ((lineText program args).length + 3)).rest =
      '\x7d' :: ' ' :: ("</dev/null".toList ++ '\n' :: more) := by
    simp [hopen]
  have hredirection : (r.advance ((lineText program args).length + 4)).rest = " </dev/null".toList ++ '\n' :: more := by
    simp [hopen]
  have hline : (r.advance 2).line = r.line := by simp [Reader.advance, hopen]
  have hkeyword : keyword? r = .ok (some "\x7b", r) :=
    keyword?_eq ['\x7b'] hr hopen (by simp [isMeta, isSpace]) (by decide)
  have hcloser : keyword? (r.advance ((lineText program args).length + 3)) =
      .ok (some "\x7d", r.advance ((lineText program args).length + 3)) :=
    keyword?_eq ['\x7d'] (hr.advance _) hclose (by simp [isMeta, isSpace]) (by decide)
  have hlist : list (n + 26) (r.advance 1) =
      .ok ([lineCommand r.line program args], r.advance ((lineText program args).length + 3)) := by
    have hlength : 1 + ((lineText program args).length + 2) = (lineText program args).length + 3 := by omega
    rw [list_line (hr.advance 1) hbody hprogram (by omega), Reader.advance_advance, Reader.advance_advance, hline,
      hlength]
  have hexpect : expectWord "\x7d" (r.advance ((lineText program args).length + 3)) =
      .ok ((), r.advance ((lineText program args).length + 4)) := by
    rw [expectWord, bind_ok hcloser, if_pos rfl, skip_eq, Reader.advance_advance]
    rfl
  have hcompound : compound (n + 26) (lineCommand r.line program args)
      (r.advance ((lineText program args).length + 4)) =
      .ok (bracedCommand r.line program args, r.advance (bracedText program args).length) := by
    have hlength : (lineText program args).length + 4 + 11 = (bracedText program args).length := by
      simp [bracedText]
    rw [compound, bind_ok (redirections_devNull (hr.advance _) hredirection), Reader.advance_advance, hlength]
    rfl
  rw [command, bind_ok (space_of_isSolid hopen (by decide)), bind_ok (dialect_eq hr),
    bind_ok (a := r.line) (s := r) rfl, bind_ok (rest_eq r), hopen]
  simp only [List.cons.injEq, Char.reduceEq, false_and, imp_self, implies_true]
  rw [bind_ok (unalias_eq hr 100), bind_ok hkeyword]
  exact (bind_ok (skip_eq 1 r)).trans ((bind_ok (awaiting_ok _ hlist)).trans ((bind_ok hexpect).trans hcompound))

theorem unit_braced (hr : r.IsPlain) (hrest : r.rest = bracedText program args ++ '\n' :: more)
    (hprogram : beginsCommand program.text) :
    Grammar.unit r = .ok ([bracedCommand r.line program args], r.advance ((bracedText program args).length + 1)) := by
  have hopen : ∃ cs, r.rest = '\x7b' :: ' ' :: cs := by
    rw [hrest, bracedText, List.append_assoc, List.append_assoc]
    exact ⟨_, rfl⟩
  obtain ⟨cs, hopen⟩ := hopen
  have hlength : (lineText program args).length ≤ r.rest.length := by
    simp only [hrest, bracedText, List.length_append]
    omega
  have hcommand := command_braced hr hrest hprogram (n := 20 * r.rest.length + 197) (by omega)
  have hend : (r.advance (bracedText program args).length).rest = '\n' :: more := by simp [hrest]
  have hword : nextWord r.rest = ['\x7b'] := by rw [hopen]; rfl
  rw [unit_of_command hr (hr.advance _) hopen (by decide) (by decide) (by rw [hword]; decide) hcommand hend,
    Reader.advance_advance]

end CMakeHelm.Sh.Grammar
