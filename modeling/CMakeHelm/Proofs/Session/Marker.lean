import CMakeHelm.Proofs.Text.Numeral
import CMakeHelm.Proofs.Text.Pieces
import CMakeHelm.Proofs.Text.Utf8
import CMakeHelm.Session.Marker

namespace CMakeHelm.Session.Marker

open Text

variable {text l body before : List Char} {bytes : Bytes} {e : Event} {execution : Nat} {code : Int}

theorem byteLines_append_newline (h : 10 ∉ bytes) (rest : Bytes) :
    byteLines (bytes ++ 10 :: rest) = bytes :: byteLines rest := by
  induction bytes with
  | nil => rw [List.nil_append, byteLines, if_pos rfl]
  | cons b bytes ih =>
      have hb : b ≠ 10 := fun hb => h (hb ▸ List.mem_cons_self)
      rw [List.cons_append, byteLines, if_neg hb, ih fun hmem => h (List.mem_cons_of_mem b hmem)]

def readLines (output : Bytes) : List (Option (List Char) × Option Event) :=
  (byteLines output).map (readLine ∘ decodeLine)

theorem read_eq (output : Bytes) :
    read output = ((readLines output).filterMap (·.1), (readLines output).filterMap (·.2) ++ [.closed]) := rfl

theorem readLines_nil : readLines (encode []) = [] := rfl

theorem readLines_line (h : '\n' ∉ l) (more : List Char) :
    readLines (encode (l ++ '\n' :: more)) = readLine (dropEnd (· == '\r') l) :: readLines (encode more) := by
  have hbytes : (10 : UInt8) ∉ encode l := fun hmem => h (mem_of_mem_encode (by decide) hmem)
  have hnewline : encode ('\n' :: more) = 10 :: encode more := encode_cons ..
  rw [readLines, encode_append, hnewline, byteLines_append_newline hbytes, List.map_cons, Function.comp_apply,
    decodeLine, decodeLossy_encode, readLines]

/-- What stands between the two ends of the marker of an event. -/
structure IsBody (e : Event) (body : List Char) : Prop where
  line_eq : line e = front ++ (body ++ [bell])
  bell_not_mem : bell ∉ body
  newline_not_mem : '\n' ∉ body
  event : event? (split (· == ';') body) = some e

theorem isBody_integrated : IsBody .integrated ['A'] := ⟨rfl, by decide, by decide, rfl⟩

def endBody (execution : Nat) (code : Int) : List Char :=
  'D' :: ';' :: ((Nat.repr execution).toList ++ ';' :: (Int.repr code).toList)

theorem isDigit_or_mem_of_mem_endBody {c : Char} (h : c ∈ endBody execution code) :
    c.isDigit ∨ c ∈ ['D', ';', '-'] := by
  rw [endBody, List.mem_cons, List.mem_cons, List.mem_append, List.mem_cons] at h
  rcases h with rfl | rfl | h | rfl | h
  · exact .inr (by decide)
  · exact .inr (by decide)
  · exact .inl (isDigit_of_mem_repr h)
  · exact .inr (by decide)
  · rcases isDigit_or_eq_of_mem_repr h with h | rfl
    · exact .inl h
    · exact .inr (by decide)

theorem split_fields {number status : List Char} (hnumber : ';' ∉ number) (hstatus : ';' ∉ status) :
    split (· == ';') ('D' :: ';' :: (number ++ ';' :: status)) = [['D'], number, status] := by
  have hsep {cs : List Char} (h : ';' ∉ cs) : split (· == ';') cs = [cs] :=
    split_of_forall_not fun c hc => beq_eq_false_iff_ne.2 (ne_of_mem_of_not_mem hc h)
  calc split (· == ';') (['D'] ++ ';' :: (number ++ ';' :: status))
      = [['D']] ++ ([number] ++ [status]) := by
        rw [split_append_cons rfl, split_append_cons rfl, hsep hnumber, hsep hstatus, hsep (by decide)]
    _ = [['D'], number, status] := rfl

theorem split_endBody (execution : Nat) (code : Int) :
    split (· == ';') (endBody execution code) = [['D'], (Nat.repr execution).toList, (Int.repr code).toList] :=
  split_fields (fun h => absurd (isDigit_of_mem_repr h) (by decide))
    (fun h => absurd (isDigit_or_eq_of_mem_repr h) (by decide))

theorem isBody_ended (he : execution < executionBound) (hlow : -(codeBound : Int) ≤ code) (hhigh : code < codeBound) :
    IsBody (.ended execution (some code)) (endBody execution code) where
  line_eq := by simp [line, endBody]
  bell_not_mem h := absurd (isDigit_or_mem_of_mem_endBody h) (by decide)
  newline_not_mem h := absurd (isDigit_or_mem_of_mem_endBody h) (by decide)
  event := by
    have hcode : ∀ c ∈ (Int.repr code).toList, isBlank c = false := by
      intro c hc
      rcases isDigit_or_eq_of_mem_repr hc with hc | rfl
      · exact isBlank_of_isDigit hc
      · decide
    rw [split_endBody, event?, unsigned?_repr he, Option.map_some, List.head?_cons, Option.bind_some,
      trim_of_forall_not_blank hcode, signed?_repr hlow hhigh]

theorem readLine_of_unmarked (h : ¬ front <:+: text) : readLine text = (some text, none) := by
  rw [readLine, cut?_eq_none_iff.2 h]

theorem readLine_of_cut? (h : cut? front l = some (before, body)) :
    readLine l =
      (if before = [] then none else some before, event? (split (· == ';') (body.takeWhile (· ≠ bell)))) := by
  rw [readLine, h]

theorem cut?_append_line (h : ¬ front <:+: text) (hbody : IsBody e body) :
    cut? front (text ++ line e) = some (text, body ++ [bell]) := by
  rw [hbody.line_eq]
  exact cut?_append_mark (by decide) h _

theorem takeWhile_append_of_bell_not_mem (h : bell ∉ body) (after : List Char) :
    (body ++ after).takeWhile (· ≠ bell) = body ++ after.takeWhile (· ≠ bell) :=
  List.takeWhile_append_of_pos fun _ hc => decide_eq_true (ne_of_mem_of_not_mem hc h)

theorem takeWhile_append_bell (h : bell ∉ body) (after : List Char) :
    (body ++ bell :: after).takeWhile (· ≠ bell) = body := by
  rw [takeWhile_append_of_bell_not_mem h, List.takeWhile_cons_of_neg (by simp), List.append_nil]

theorem readLine_append_line (h : ¬ front <:+: text) (hbody : IsBody e body) :
    readLine (text ++ line e) = (if text = [] then none else some text, some e) := by
  rw [readLine_of_cut? (cut?_append_line h hbody), takeWhile_append_bell hbody.bell_not_mem, hbody.event]

theorem dropEnd_append_line (text : List Char) (hbody : IsBody e body) :
    dropEnd (· == '\r') (text ++ line e) = text ++ line e := by
  rw [hbody.line_eq, ← List.append_assoc, ← List.append_assoc]
  exact dropEnd_append_singleton (by decide) _

theorem event?_eq_ended_iff {fields : List (List Char)} :
    event? fields = some (.ended execution (some code)) ↔
      ∃ number status more, fields = ['D'] :: number :: status :: more ∧
        unsigned? executionBound number = some execution ∧ signed? codeBound (trim status) = some code := by
  constructor
  · intro h
    unfold event? at h
    split at h
    · simp at h
    next number rest =>
      obtain ⟨n, hn, he⟩ := Option.map_eq_some_iff.1 h
      injection he with hexecution hcode
      obtain ⟨status, hhead, hstatus⟩ := Option.bind_eq_some_iff.1 hcode
      obtain ⟨more, rfl⟩ := List.head?_eq_some_iff.1 hhead
      exact ⟨number, status, more, rfl, hexecution ▸ hn, hstatus⟩
    · simp at h
  · rintro ⟨number, status, more, rfl, hnumber, hstatus⟩
    simp [event?, hnumber, hstatus]

/-- A text that says, behind the front of a marker, that an execution has ended with a code. -/
def Says (execution : Nat) (code : Int) (text : List Char) : Prop :=
  ∃ number status c more, text = 'D' :: ';' :: (number ++ ';' :: status) ++ c :: more ∧
    (∀ d ∈ number ++ status, d ≠ bell ∧ d ≠ ';') ∧ (c = bell ∨ c = ';') ∧
    unsigned? executionBound number = some execution ∧ signed? codeBound (trim status) = some code

theorem event?_split_eq_ended_iff (h : bell ∉ body) (after : List Char) :
    event? (split (· == ';') body) = some (.ended execution (some code)) ↔
      Says execution code (body ++ bell :: after) := by
  rw [event?_eq_ended_iff]
  constructor
  · rintro ⟨number, status, more, hfields, hnumber, hstatus⟩
    have hpiece {piece : List Char} (hp : piece ∈ ['D'] :: number :: status :: more) {d : Char} (hd : d ∈ piece) :
        d ≠ bell ∧ d ≠ ';' := by
      rw [← hfields] at hp
      exact ⟨ne_of_mem_of_not_mem ((infix_of_mem_split hp).subset hd) h, by simpa using not_sep_of_mem_split hp hd⟩
    have hchars : ∀ d ∈ number ++ status, d ≠ bell ∧ d ≠ ';' := by
      intro d hd
      rcases List.mem_append.1 hd with hd | hd
      · exact hpiece (by simp) hd
      · exact hpiece (by simp) hd
    have hjoin := join_split ';' body
    rw [hfields] at hjoin
    cases more with
    | nil => exact ⟨number, status, bell, after, by simp [← hjoin, join], hchars, .inl rfl, hnumber, hstatus⟩
    | cons m ms =>
        exact ⟨number, status, ';', join ';' (m :: ms) ++ bell :: after, by simp [← hjoin, join], hchars, .inr rfl,
          hnumber, hstatus⟩
  · rintro ⟨number, status, c, more, htext, hchars, hc, hnumber, hstatus⟩
    have hsplit : split (· == ';') ('D' :: ';' :: (number ++ ';' :: status)) = [['D'], number, status] :=
      split_fields (fun hmem => (hchars _ (List.mem_append_left _ hmem)).2 rfl)
        (fun hmem => (hchars _ (List.mem_append_right _ hmem)).2 rfl)
    have hplain : bell ∉ 'D' :: ';' :: (number ++ ';' :: status) := by
      intro hmem
      simp only [List.mem_cons, List.mem_append] at hmem
      rcases hmem with hmem | hmem | hmem | hmem | hmem
      · exact absurd hmem (by decide)
      · exact absurd hmem (by decide)
      · exact (hchars _ (List.mem_append_left _ hmem)).1 rfl
      · exact absurd hmem (by decide)
      · exact (hchars _ (List.mem_append_right _ hmem)).1 rfl
    have hbody := takeWhile_append_bell h after
    rcases hc with rfl | rfl
    · rw [htext, takeWhile_append_bell hplain] at hbody
      exact ⟨number, status, [], hbody ▸ hsplit, hnumber, hstatus⟩
    · rw [htext, takeWhile_append_of_bell_not_mem hplain, List.takeWhile_cons_of_pos (by decide)] at hbody
      refine ⟨number, status, split (· == ';') (more.takeWhile (· ≠ bell)), ?_, hnumber, hstatus⟩
      rw [← hbody, split_append_cons rfl, hsplit]
      rfl

theorem says_append_escape_iff (rest : List Char) :
    Says execution code (text ++ '\x1b' :: rest) ↔ Says execution code text := by
  constructor
  · rintro ⟨number, status, c, more, htext, hchars, hc, hnumber, hstatus⟩
    have hescape : '\x1b' ∉ 'D' :: ';' :: (number ++ ';' :: status) ++ [c] := by
      intro hmem
      simp only [List.cons_append, List.append_assoc, List.mem_cons, List.mem_append, List.not_mem_nil,
        or_false] at hmem
      rcases hmem with hmem | hmem | hmem | hmem | hmem | hmem
      · exact absurd hmem (by decide)
      · exact absurd hmem (by decide)
      · exact absurd (isDigit_or_eq_of_mem_unsigned? hnumber hmem) (by decide)
      · exact absurd hmem (by decide)
      · exact absurd (isDigit_or_eq_of_mem_signed? hstatus (mem_trim hmem (by decide))) (by decide)
      · rcases hc with rfl | rfl <;> exact absurd hmem (by decide)
    rw [List.append_cons _ c, List.append_eq_append_iff] at htext
    rcases htext with ⟨front', hfront, hrest⟩ | ⟨more', htext, -⟩
    · cases front' with
      | nil =>
          rw [List.append_nil] at hfront
          exact ⟨number, status, c, [], hfront.symm, hchars, hc, hnumber, hstatus⟩
      | cons d front' =>
          rw [List.cons_append, List.cons.injEq] at hrest
          exact absurd (by simp [hfront, ← hrest.1]) hescape
    · exact ⟨number, status, c, more', by simpa using htext, hchars, hc, hnumber, hstatus⟩
  · rintro ⟨number, status, c, more, rfl, hrest⟩
    exact ⟨number, status, c, more ++ '\x1b' :: rest, by simp, hrest⟩

/-- The marker of an execution is read behind every text on its line that holds no marker, complete or cut off. Where
there is one, the first of them is read in its place, and it has to say the same. -/
theorem ended_reported_iff (h : '\n' ∉ text) (execution : UInt64) (code : Int32) :
    .ended execution.toNat (some code.toInt) ∈
        (read (encode (text ++ line (.ended execution.toNat (some code.toInt)) ++ ['\n']))).2 ↔
      ∀ before body, cut? front text = some (before, body) → Says execution.toNat code.toInt body := by
  have hbody := isBody_ended execution.toNat_lt code.le_toInt code.toInt_lt
  have hline : '\n' ∉ text ++ line (.ended execution.toNat (some code.toInt)) := by
    have hfront : '\n' ∉ front := by decide
    have hbell : '\n' ≠ bell := by decide
    simp [hbody.line_eq, h, hbody.newline_not_mem, hfront, hbell]
  rw [read_eq, readLines_line hline, dropEnd_append_line text hbody]
  cases hcut : cut? front text with
  | none =>
      rw [readLine_append_line (cut?_eq_none_iff.1 hcut) hbody]
      simp
  | some found =>
      obtain ⟨before, body⟩ := found
      rw [readLine_of_cut? (cut?_append hcut _)]
      have hbell : bell ∈ body ++ line (.ended execution.toNat (some code.toInt)) := by simp [hbody.line_eq]
      obtain ⟨seg, after, hseg, hnot⟩ := List.eq_append_cons_of_mem hbell
      have hsays : event? (split (· == ';') seg) = some (.ended execution.toNat (some code.toInt)) ↔
          Says execution.toNat code.toInt body := by
        rw [event?_split_eq_ended_iff hnot after, ← hseg]
        exact says_append_escape_iff _
      rw [hseg, takeWhile_append_bell hnot]
      simp [readLines_nil, hsays]

theorem ended_reported_behind_cut_off_front :
    Event.ended 7 (some 2) ∈ (read (encode ("done\x1b]633".toList ++ line (.ended 7 (some 2)) ++ ['\n']))).2 :=
  (ended_reported_iff (by decide) 7 2).2 fun before body h => by
    have hcut : cut? front "done\x1b]633".toList = none := by decide
    cases hcut.symm.trans h

/-- A marker that says that an execution has ended, from end to end. -/
def IsEnd (marker : List Char) : Prop :=
  ∃ body execution code, marker = front ++ (body ++ [bell]) ∧ bell ∉ body ∧
    event? (split (· == ';') body) = some (.ended execution code)

/-- A marker of another kind, as a nested shell prints it before a command line, is read in the place of the one
behind it. -/
theorem ended_lost_behind_other_marker :
    '\n' ∉ front ++ ['B', bell] ∧ (∀ marker, IsEnd marker → ¬ marker <:+: front ++ ['B', bell]) ∧
      Event.ended 7 (some 0) ∉ (read (encode (front ++ ['B', bell] ++ line (.ended 7 (some 0)) ++ ['\n']))).2 := by
  refine ⟨by decide, ?_, ?_⟩
  · rintro marker ⟨body, execution, code, rfl, hbell, he⟩ ⟨before, after, h⟩
    cases before with
    | nil =>
        rw [List.nil_append, List.append_assoc, List.append_cancel_left_eq] at h
        match body with
        | [] => cases h
        | ['B'] => cases he
        | _ :: c :: _ =>
            obtain rfl : c = bell := by simp_all
            simp at hbell
    | cons c before =>
        have htail : before ++ (front ++ (body ++ [bell])) ++ after = front.tail ++ ['B', bell] := (List.cons.inj h).2
        have hescape : '\x1b' ∈ front.tail ++ ['B', bell] := by
          rw [← htail]
          simp [front]
        exact absurd hescape (by decide)
  · have hline : readLine (dropEnd (· == '\r') (front ++ ['B', bell] ++ line (.ended 7 (some 0)))) = (none, none) := by
      decide
    rw [read_eq, readLines_line (by decide), hline]
    simp [readLines_nil]

end CMakeHelm.Session.Marker
