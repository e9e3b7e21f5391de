import CMakeHelm.CommandLine
import CMakeHelm.Proofs.Session.Stream
import CMakeHelm.Proofs.Sh.Commands
import CMakeHelm.Proofs.Sh.Fields
import CMakeHelm.Sh.Invocation

namespace CMakeHelm

namespace Sh

open Text

structure Shell.IsPlain (s : Shell) : Prop where
  dialect : s.dialect = .posix
  aliases : s.aliases = []
  braces : 'B' ∉ s.options

theorem Shell.IsPlain.reader {s : Shell} (h : s.IsPlain) (text : Octets) (line : Nat) (isWhole : Bool) :
    (s.reader text line isWhole).IsPlain :=
  ⟨h.dialect, by rw [Shell.reader, h.aliases, ite_self], rfl, rfl⟩

def Grammar.ReadsAs (r : Reader) (c : Command) (rest : Octets) : Prop :=
  ∃ after, Grammar.unit r = .ok ([c], after) ∧ after.rest = rest

end Sh

namespace CommandLine

open Sh Grammar Text Session

/-- Whether a shell reads a word off what is written for it. -/
def isReadBack (word : String) : Bool :=
  if word.toList = [] ∨ word.toList.any isBlank then isQuotable (octetsOf word)
  else (octetsOf word).all isInert && (octetsOf word).head? ∉ [some '#', some '~']

theorem octets_escape (word : List Char) :
    octets (word.flatMap fun c => if c = '"' then ['\\', '"'] else [c]) = escapeQuotes (octets word) := by
  induction word with
  | nil => rfl
  | cons c cs ih =>
      have hcons : octets (c :: cs) = octets [c] ++ octets cs := octets_append [c] cs
      have hchar : octets (if c = '"' then ['\\', '"'] else [c]) = escapeQuotes (octets [c]) := by
        by_cases hc : c = '"'
        · subst hc
          decide
        · have hnot : '"' ∉ octets [c] := fun h => hc (List.mem_singleton.1 (mem_of_mem_octets (by decide) h)).symm
          rw [if_neg hc, escapeQuotes_of_not_mem hnot]
      rw [List.flatMap_cons, octets_append, ih, hcons, escapeQuotes_append, hchar]

theorem octets_quoteChars (word : List Char) :
    octets (quoteChars word) =
      if word = [] ∨ word.any isBlank then '"' :: escapeQuotes (octets word) ++ ['"'] else octets word := by
  rw [quoteChars]
  split
  · rw [List.cons_append, octets_cons_of_lt (by decide), octets_append, octets_escape]
    rfl
  · rfl

theorem exists_spelling {word : String} (h : isReadBack word) :
    ∃ s : Spelling, s.text = octets (quoteChars word.toList) ∧ s.word = octetsOf word := by
  rw [octets_quoteChars]
  rw [isReadBack] at h
  split at h
  next hquote =>
    rw [if_pos hquote]
    exact ⟨⟨_, _, _, .quoted h⟩, rfl, rfl⟩
  next hbare =>
    rw [if_neg hbare]
    have hne : octetsOf word ≠ [] := octets_ne_nil fun hnil => hbare (.inl hnil)
    rw [Bool.and_eq_true, List.all_eq_true, decide_eq_true_eq] at h
    exact ⟨⟨_, _, _, .bare hne h.1 h.2⟩, rfl, rfl⟩

theorem exists_spellings {words : List String} (h : ∀ w ∈ words, isReadBack w) :
    ∃ l : List Spelling, l.map Spelling.text = words.map (fun w => octets (quoteChars w.toList)) ∧
      l.map Spelling.word = words.map octetsOf := by
  induction words with
  | nil => exact ⟨[], rfl, rfl⟩
  | cons w ws ih =>
      obtain ⟨s, htext, hword⟩ := exists_spelling (h w List.mem_cons_self)
      obtain ⟨l, htexts, hwords⟩ := ih fun v hv => h v (List.mem_cons_of_mem w hv)
      exact ⟨s :: l, by simp [htext, htexts], by simp [hword, hwords]⟩

theorem octets_join (p : List Char) (ps : List (List Char)) :
    octets (join ' ' (p :: ps)) = octets p ++ ps.flatMap fun q => ' ' :: octets q := by
  induction ps generalizing p with
  | nil => simp [join]
  | cons q qs ih => rw [join, octets_append, octets_cons_of_lt (by decide), ih, List.flatMap_cons, List.cons_append]

structure IsReadBack (c : CommandLine) : Prop where
  words : ∀ w ∈ c.words, isReadBack w
  program : beginsCommand (octetsOf (quote c.program))
  operands : String.ofList (octetsOf c.program) ∉ ["export", "readonly", "local"]

theorem IsReadBack.exists_lineText {c : CommandLine} (h : c.IsReadBack) :
    ∃ (program : Spelling) (args : List Spelling),
      lineText program args = octetsOf c.render ∧ beginsCommand program.text ∧
        program.word = octetsOf c.program ∧ args.map Spelling.word = c.args.map octetsOf := by
  obtain ⟨program, htext, hword⟩ := exists_spelling (h.words c.program List.mem_cons_self)
  obtain ⟨args, htexts, hwords⟩ := exists_spellings fun w hw => h.words w (List.mem_cons_of_mem c.program hw)
  refine ⟨program, args, ?_, ?_, hword, hwords⟩
  · have hoperands : operandText args = (c.args.map fun w => quoteChars w.toList).flatMap fun q => ' ' :: octets q := by
      rw [operandText, List.flatMap_map, ← List.flatMap_map (f := Spelling.text) (g := (' ' :: ·)), htexts,
        List.flatMap_map]
    rw [lineText, htext, hoperands, octetsOf, render, String.toList_ofList, CommandLine.words, List.map_cons,
      octets_join]
  · have hbegins := h.program
    rw [quote, octetsOf, String.toList_ofList, ← htext] at hbegins
    exact hbegins

/-- What is typed to tell the end of a command. -/
def reportText (execution : Nat) : Octets := octetsOf ("printf '" ++ Marker.endFormat execution ++ "' \"$?\"\n")

theorem octetsOf_typed {program : Spelling} {args : List Spelling} {command : String}
    (h : lineText program args = octetsOf command) (execution : Nat) :
    octetsOf (Marker.typed execution command) = bracedText program args ++ '\n' :: reportText execution := by
  have hopen : octets "\x7b ".toList = "\x7b ".toList := octets_of_forall_lt (by simp)
  have hclose : octets "\n\x7d </dev/null\nprintf '".toList = "\n\x7d </dev/null".toList ++ '\n' :: "printf '".toList :=
    octets_of_forall_lt (by simp)
  have hreport : octets "printf '".toList = "printf '".toList := octets_of_forall_lt (by simp)
  rw [octetsOf] at h
  simp only [Marker.typed_eq, octetsOf, reportText, bracedText, String.toList_append, octets_append, hopen, hclose,
    hreport, h, List.append_assoc, List.cons_append]

/-- A command line that comes back is read as one command, whose words are the program and its arguments as they were
given. Between what is typed around it, it leaves alone what tells its end. -/
theorem render_is_read_back {c : CommandLine} (hc : c.IsReadBack) {m : Machine} (hm : m.shell.IsPlain)
    (execution line n : Nat) (isWhole : Bool) (more : Octets) :
    ∃ words : List Word,
      ReadsAs (m.shell.reader (octetsOf c.render ++ '\n' :: more) line isWhole) (.simple line [] words []) more ∧
      ReadsAs (m.shell.reader (octetsOf (Marker.typed execution c.render) ++ more) line isWhole)
        (.redirected (.simple line [] words []) [.mk none .read [.plain "/dev/null".toList]])
        (reportText execution ++ more) ∧
      Eval.arguments (n + 4) words m = (.ok (c.words.map fun w => .text (octetsOf w)), m) := by
  obtain ⟨program, args, htext, hbegins, hprogram, hargs⟩ := hc.exists_lineText
  refine ⟨[program.part] :: args.map ([·.part]), ?_, ?_, ?_⟩
  · exact ⟨_, unit_line (hm.reader _ line isWhole) (by rw [htext]; rfl) hbegins, by simp [htext, Shell.reader]⟩
  · have hrest : (m.shell.reader (octetsOf (Marker.typed execution c.render) ++ more) line isWhole).rest =
        bracedText program args ++ '\n' :: (reportText execution ++ more) := by
      rw [Shell.reader, octetsOf_typed htext, List.append_assoc, List.cons_append]
    exact ⟨_, unit_braced (hm.reader _ line isWhole) hrest hbegins, by simp [hrest]⟩
  · have hwords : (program :: args).map Spelling.word = c.words.map octetsOf := by
      rw [CommandLine.words, List.map_cons, List.map_cons, hprogram, hargs]
    have hoperands := congrArg (List.map Run.Operand.text) hwords
    rw [List.map_map, List.map_map] at hoperands
    exact (arguments_spelled program args n hm.dialect hm.braces (hprogram ▸ hc.operands)).trans
      (congrArg (fun operands => (Except.ok operands, m)) hoperands)

def freshMachine : Machine where
  fs := ⟨[], []⟩
  streams := #[]
  shell := Shell.fresh .posix 1000 0 "sh".toList [] [] [] ['/'] []
  nextPid := 1001

def configureLine : CommandLine := ⟨"cmake", ["-S", "/my \"own\" project", "-B", ""]⟩

theorem configureLine_is_read_back :
    ∃ words : List Word,
      ReadsAs (freshMachine.shell.reader (octetsOf configureLine.render ++ ['\n']) 1 false) (.simple 1 [] words []) [] ∧
      ReadsAs (freshMachine.shell.reader (octetsOf (Marker.typed 7 configureLine.render) ++ []) 1 false)
        (.redirected (.simple 1 [] words []) [.mk none .read [.plain "/dev/null".toList]]) (reportText 7 ++ []) ∧
      Eval.arguments (1 + 4) words freshMachine =
        (.ok (configureLine.words.map fun w => .text (octetsOf w)), freshMachine) :=
  render_is_read_back ⟨by decide, by decide, by decide⟩ ⟨rfl, rfl, by decide⟩ 7 1 1 false []

def slashedLine : CommandLine := ⟨"echo", ["a b\\"]⟩

/-- A backslash at the end of a word between quotes takes the quote behind it along, which leaves the other one open. A
shell waits for the end of the word, and reads what is to tell the end of the command as part of it. -/
theorem slashedLine_leaves_quote_open :
    (∀ w ∈ slashedLine.words, '\x00' ∉ w.toList) ∧ freshMachine.shell.IsPlain ∧
    (¬ ∃ command rest,
      ReadsAs (freshMachine.shell.reader (octetsOf slashedLine.render ++ ['\n']) 1 false) command rest) ∧
    Grammar.unit (freshMachine.shell.reader (octetsOf (Marker.typed 7 slashedLine.render)) 1 false) =
      .error (.incomplete (.quote '"')) := by
  have hrender : slashedLine.render = "echo \"a b\\\"" := by
    rw [render, ← String.toList_inj, String.toList_ofList]
    decide
  have hline : octetsOf slashedLine.render ++ ['\n'] = "echo \"a b\\\"\n".toList := by
    rw [hrender]
    decide
  have htyped : octetsOf (Marker.typed 7 slashedLine.render) =
      "\x7b echo \"a b\\\"\n\x7d </dev/null\nprintf '\\033]633;D;7;%s\\007\\n' \"$?\"\n".toList := by
    rw [hrender]
    decide
  refine ⟨by decide, ⟨rfl, rfl, by decide⟩, ?_, ?_⟩
  · rintro ⟨command, rest, after, hread, -⟩
    have hwaits : Grammar.unit (freshMachine.shell.reader "echo \"a b\\\"\n".toList 1 false) =
        .error (.incomplete (.quote '"')) := unit_of_trouble rfl (by decide) (by decide) (by decide +kernel)
    rw [hline, hwaits] at hread
    cases hread
  · rw [htyped]
    exact unit_of_trouble rfl (by decide) (by decide) (by decide +kernel)

end CommandLine

end CMakeHelm
