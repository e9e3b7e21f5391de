import CMakeHelm.Proofs.Session.Marker
import CMakeHelm.Proofs.Sh.Format
import CMakeHelm.Proofs.Text.Octets

namespace CMakeHelm.Session.Marker

open Text Sh

variable {rules : Format.Rules} {text : List Char} {e : Event} {body : List Char}

def greetingFormat : String := "\\033]633;A\\007\\n"

def endFormat (execution : Nat) : String := "\\033]633;D;" ++ Nat.repr execution ++ ";%s\\007\\n"

def printed (rules : Format.Rules) (format : String) (args : List String) : Bytes :=
  bytesOf (Format.printf rules (octetsOf format) (args.map octetsOf)).out

theorem prints_front {rest : Octets} {p q : Format.Printing} (h : Format.Prints rules rest (p.say front) q) :
    Format.Prints rules ("\\033]633;".toList ++ rest) p q := by
  have hsay : (p.say ['\x1b']).say "]633;".toList = p.say front := by simp [Format.Printing.say, front]
  have hrest : Format.Prints rules ("]633;".toList ++ rest) (p.say ['\x1b']) q := .literal (by simp) (hsay ▸ h)
  have hescape : Format.escape rules ("033]633;".toList ++ rest) = (['\x1b'], "]633;".toList ++ rest) := rfl
  exact .escape hescape (by simp) (ne_of_beq_false rfl) hrest

theorem prints_bell (p : Format.Printing) :
    Format.Prints rules "\\007\\n".toList p ((p.say [bell]).say ['\n']) :=
  .escape rfl (by decide) (by decide) (.escape rfl (by decide) (by decide) .nil)

theorem printed_of_prints {format : String} {args : List String} {out : List Char}
    (h : Format.Prints rules format.toList { args := args.map String.toList } { args := [], out })
    (hformat : ∀ c ∈ format.toList, c.toNat < 0x80) (hargs : ∀ a ∈ args, ∀ c ∈ a.toList, c.toNat < 0x80)
    (hout : ∀ c ∈ out, c.toNat < 0x80) : printed rules format args = encode out := by
  have hoperands : args.map octetsOf = args.map String.toList :=
    List.map_congr_left fun a ha => octets_of_forall_lt (hargs a ha)
  rw [printed, octetsOf, octets_of_forall_lt hformat, hoperands, Format.printf_of_prints h rfl, ← bytesOf_octets,
    octets_of_forall_lt hout]

theorem printed_greeting (rules : Format.Rules) :
    printed rules greetingFormat [] = encode (line .integrated ++ ['\n']) := by
  have hprints : Format.Prints rules greetingFormat.toList { args := [] }
      { args := [], out := line .integrated ++ ['\n'] } :=
    prints_front (.literal (by simp : ∀ c ∈ ['A'], c ≠ '\\' ∧ c ≠ '%') (prints_bell _))
  exact printed_of_prints hprints (by simp [greetingFormat]) (by simp) (by simp [line, front, bell])

theorem printed_end (rules : Format.Rules) (execution : Nat) (code : Int) :
    printed rules (endFormat execution) [Int.repr code] =
      encode (line (.ended execution (some code)) ++ ['\n']) := by
  have hexecution : ∀ c ∈ (Nat.repr execution).toList, (c ≠ '\\' ∧ c ≠ '%') ∧ c.toNat < 0x80 := by
    intro c hc
    have hdigit := toNat_of_isDigit (isDigit_of_mem_repr hc)
    refine ⟨⟨?_, ?_⟩, by omega⟩ <;> rintro rfl <;> exact absurd hdigit (by decide)
  have hcode : ∀ c ∈ (Int.repr code).toList, c.toNat < 0x80 := by
    intro c hc
    rcases isDigit_or_eq_of_mem_repr hc with hc | rfl
    · have hdigit := toNat_of_isDigit hc
      omega
    · decide
  obtain ⟨fields, hfields⟩ : ∃ fields, fields = "D;".toList ++ ((Nat.repr execution).toList ++ [';']) := ⟨_, rfl⟩
  have hplain : ∀ c ∈ fields, (c ≠ '\\' ∧ c ≠ '%') ∧ c.toNat < 0x80 := by
    rw [hfields]
    exact List.forall_mem_append.2 ⟨by simp, List.forall_mem_append.2 ⟨hexecution, by simp⟩⟩
  have hformat : (endFormat execution).toList =
      "\\033]633;".toList ++ (fields ++ ("%s".toList ++ "\\007\\n".toList)) := by
    simp [endFormat, hfields]
  have hline : line (.ended execution (some code)) ++ ['\n'] =
      front ++ (fields ++ ((Int.repr code).toList ++ [bell, '\n'])) := by
    simp [line, hfields]
  have hprints : Format.Prints rules (endFormat execution).toList { args := [(Int.repr code).toList] }
      { args := [], out := line (.ended execution (some code)) ++ ['\n'] } := by
    rw [hformat, hline]
    have hargument : Format.Prints rules ("%s".toList ++ "\\007\\n".toList)
        (({ args := [(Int.repr code).toList] } : Format.Printing).say front |>.say fields) _ :=
      .string rfl (prints_bell _)
    simpa [Format.Printing.say, Format.Printing.next] using
      prints_front (.literal (fun c hc => (hplain c hc).1) hargument)
  refine printed_of_prints hprints ?_ (by simpa using hcode) ?_
  · rw [hformat]
    exact List.forall_mem_append.2 ⟨by simp, List.forall_mem_append.2 ⟨fun c hc => (hplain c hc).2, by simp⟩⟩
  · rw [hline]
    exact List.forall_mem_append.2 ⟨by simp [front], List.forall_mem_append.2 ⟨fun c hc => (hplain c hc).2,
      List.forall_mem_append.2 ⟨hcode, by simp [bell]⟩⟩⟩

/-- The lines of an output as the user is to see them. The last one, which nothing ends, counts if there is
anything on it. -/
def shownLines (output : List Char) : List (List Char) :=
  let pieces := split (· == '\n') output
  pieces.dropLast.map (dropEnd (· == '\r')) ++ pieces.getLast?.toList.filter (· ≠ [])

theorem readLines_join (last : List Char) {pieces : List (List Char)} (hline : ∀ p ∈ pieces, '\n' ∉ p)
    (hmark : ∀ p ∈ pieces, ¬ front <:+: p) (more : List Char) :
    readLines (encode (join '\n' (pieces ++ [last]) ++ more)) =
      (pieces.map fun p => (some (dropEnd (· == '\r') p), none)) ++ readLines (encode (last ++ more)) := by
  induction pieces with
  | nil => rfl
  | cons p ps ih =>
      have hp : ¬ front <:+: dropEnd (· == '\r') p := fun h =>
        hmark p List.mem_cons_self (h.trans (dropEnd_isPrefix ..).isInfix)
      have hjoin : join '\n' (p :: ps ++ [last]) = p ++ '\n' :: join '\n' (ps ++ [last]) := by
        cases ps <;> rfl
      rw [hjoin, List.append_assoc, List.cons_append, readLines_line (hline p List.mem_cons_self),
        readLine_of_unmarked hp, ih (fun q hq => hline q (List.mem_cons_of_mem p hq))
          (fun q hq => hmark q (List.mem_cons_of_mem p hq))]
      rfl

/-- An output and the marker behind it, whether or not the output ends in a line feed. -/
theorem readLines_output {output : List Char} (hmark : ¬ front <:+: output) (hbody : IsBody e body) (more : List Char) :
    ∃ parts, readLines (encode (output ++ (line e ++ '\n' :: more))) = parts ++ readLines (encode more) ∧
      parts.filterMap (·.1) = shownLines output ∧ parts.filterMap (·.2) = [e] := by
  -- The last piece, empty or not, stands on the line of the marker.
  obtain ⟨pieces, last, hsplit⟩ : ∃ pieces last, split (· == '\n') output = pieces ++ [last] :=
    ⟨_, _, (List.dropLast_concat_getLast (split_ne_nil _ output)).symm⟩
  have hmem {p : List Char} (hp : p ∈ pieces ++ [last]) : '\n' ∉ p ∧ ¬ front <:+: p := by
    rw [← hsplit] at hp
    refine ⟨fun hc => absurd (not_sep_of_mem_split hp hc) (by decide), fun h => hmark (h.trans (infix_of_mem_split hp))⟩
  have hlast := hmem (List.mem_append_right pieces List.mem_cons_self)
  have hline : '\n' ∉ last ++ line e := by
    have hfront : '\n' ∉ front := by decide
    have hbell : '\n' ≠ bell := by decide
    simp [hbody.line_eq, hlast.1, hbody.newline_not_mem, hfront, hbell]
  have hjoin := join_split '\n' output
  rw [hsplit] at hjoin
  refine ⟨(pieces.map fun p => (some (dropEnd (· == '\r') p), none)) ++
      [(if last = [] then none else some last, some e)],
    ?_, ?_, ?_⟩
  · rw [← hjoin, readLines_join last (fun p hp => (hmem (List.mem_append_left _ hp)).1)
      (fun p hp => (hmem (List.mem_append_left _ hp)).2), ← List.append_assoc, readLines_line hline,
      dropEnd_append_line last hbody, readLine_append_line hlast.2 hbody]
    simp
  · have hwhole : (pieces.map fun p => (some (dropEnd (· == '\r') p), (none : Option Event))).filterMap (·.1) =
        pieces.map (dropEnd (· == '\r')) := by
      rw [List.filterMap_map]
      exact congrFun List.filterMap_eq_map pieces
    rw [shownLines, hsplit, List.filterMap_append, hwhole]
    by_cases h : last = [] <;> simp [h]
  · simp [List.filterMap_map]

/-- A command that a shell has run to its end. -/
structure Finished where
  execution : UInt64
  code : Int32
  output : List Char
  unmarked : ¬ front <:+: output

def Finished.event (r : Finished) : Event := .ended r.execution.toNat (some r.code.toInt)

/-- What a shell writes when it greets and then runs commands. -/
def stream (rules : Format.Rules) (runs : List Finished) : Bytes :=
  printed rules greetingFormat [] ++ runs.flatMap fun r =>
    encode r.output ++ printed rules (endFormat r.execution.toNat) [Int.repr r.code.toInt]

theorem Finished.isBody (r : Finished) : IsBody r.event (endBody r.execution.toNat r.code.toInt) :=
  isBody_ended r.execution.toNat_lt r.code.le_toInt r.code.toInt_lt

theorem stream_eq (rules : Format.Rules) (runs : List Finished) :
    stream rules runs =
      encode (line .integrated ++ '\n' :: runs.flatMap fun r => r.output ++ (line r.event ++ ['\n'])) := by
  have hruns : (runs.flatMap fun r =>
      encode r.output ++ printed rules (endFormat r.execution.toNat) [Int.repr r.code.toInt]) =
      encode (runs.flatMap fun r => r.output ++ (line r.event ++ ['\n'])) := by
    induction runs with
    | nil => rfl
    | cons r rs ih =>
        rw [List.flatMap_cons, List.flatMap_cons, ih, printed_end, ← encode_append, ← encode_append, Finished.event]
  rw [stream, hruns, printed_greeting, ← encode_append, List.append_assoc, List.singleton_append]

theorem readLines_runs (runs : List Finished) :
    ∃ parts, readLines (encode (runs.flatMap fun r => r.output ++ (line r.event ++ ['\n']))) = parts ∧
      parts.filterMap (·.1) = (runs.flatMap fun r => shownLines r.output) ∧
      parts.filterMap (·.2) = runs.map Finished.event := by
  induction runs with
  | nil => exact ⟨[], rfl, rfl, rfl⟩
  | cons r rs ih =>
      obtain ⟨later, hlater, hlaterShown, hlaterReported⟩ := ih
      obtain ⟨parts, hparts, hshown, hreported⟩ := readLines_output r.unmarked r.isBody
        (rs.flatMap fun r => r.output ++ (line r.event ++ ['\n']))
      refine ⟨parts ++ later, ?_, ?_, ?_⟩
      · rw [List.flatMap_cons, List.append_assoc, List.append_assoc, List.singleton_append, hparts, hlater]
      · rw [List.filterMap_append, hshown, hlaterShown, List.flatMap_cons]
      · rw [List.filterMap_append, hreported, hlaterReported, List.map_cons, List.singleton_append]

theorem typed_eq (execution : Nat) (command : String) :
    typed execution command =
      "\x7b " ++ command ++ "\n\x7d </dev/null\nprintf '" ++ endFormat execution ++ "' \"$?\"\n" := by
  simp [typed, endFormat, ← String.toList_inj]

/-- Everything that commands print reaches the user, line by line and without the markers, and every marker is
reported, whatever the codes are. The formats are those that are typed. -/
theorem stream_is_read_back (rules : Format.Rules) (runs : List Finished) :
    read (stream rules runs) =
      (runs.flatMap fun r => shownLines r.output, .integrated :: runs.map Finished.event ++ [.closed]) ∧
    greeting = "printf '" ++ greetingFormat ++ "'\n" ∧
    ∀ execution command, typed execution command =
      "\x7b " ++ command ++ "\n\x7d </dev/null\nprintf '" ++ endFormat execution ++ "' \"$?\"\n" := by
  refine ⟨?_, rfl, typed_eq⟩
  obtain ⟨parts, hparts, hshown, hreported⟩ := readLines_runs runs
  have hunmarked : ¬ front <:+: ([] : List Char) := by decide
  have hgreeting := readLine_append_line hunmarked isBody_integrated
  rw [List.nil_append, if_pos rfl] at hgreeting
  have hline := dropEnd_append_line [] isBody_integrated
  rw [read_eq, stream_eq, readLines_line (by decide), ← List.nil_append (line .integrated), hline,
    List.nil_append, hgreeting, hparts]
  simp [hshown, hreported]

end CMakeHelm.Session.Marker
