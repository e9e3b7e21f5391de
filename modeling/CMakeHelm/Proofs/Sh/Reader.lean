import CMakeHelm.Sh.Reader

namespace CMakeHelm.Sh

variable {r : Reader} {c : Char} {cs word : Octets}

namespace Reader

/-- The reader behind `n` more characters. -/
def advance (r : Reader) (n : Nat) : Reader :=
  let lines := (r.rest.take n).count '\n'
  { r with
    rest := r.rest.drop n
    line := if lines = 0 then r.line else r.line + lines + r.owed
    owed := if lines = 0 then r.owed else 0 }

@[simp] theorem advance_rest (r : Reader) (n : Nat) : (r.advance n).rest = r.rest.drop n := rfl

@[simp] theorem advance_zero (r : Reader) : r.advance 0 = r := by simp [advance]

@[simp] theorem advance_advance (r : Reader) (m n : Nat) : (r.advance m).advance n = r.advance (m + n) := by
  have hcount : (r.rest.take (m + n)).count '\n' =
      (r.rest.take m).count '\n' + ((r.rest.drop m).take n).count '\n' := by
    rw [List.take_add, List.count_append]
  simp only [advance, hcount, List.drop_drop, Reader.mk.injEq, and_true, true_and]
  grind

/-- It reads for a shell without extensions, and no word of it is an alias. -/
structure IsPlain (r : Reader) : Prop where
  dialect : r.dialect = .posix
  aliases : r.aliases = []
  active : r.active = []
  further : r.further = none

theorem IsPlain.advance (h : r.IsPlain) (n : Nat) : (r.advance n).IsPlain := ⟨h.1, h.2, h.3, h.4⟩

end Reader

namespace Parse

theorem bind_ok {α β : Type} {p : Parse α} {f : α → Parse β} {a : α} {s : Reader} (h : p r = .ok (a, s)) :
    (p >>= f) r = f a s := by
  simp [bind, StateT.bind, h, Except.bind]

theorem bind_error {α β : Type} {p : Parse α} {f : α → Parse β} {t : Trouble} (h : p r = .error t) :
    (p >>= f) r = .error t := by
  simp [bind, StateT.bind, h, Except.bind]

theorem map_ok {α β : Type} {p : Parse α} {a : α} {s : Reader} (f : α → β) (h : p r = .ok (a, s)) :
    (f <$> p) r = .ok (f a, s) := by
  rw [map_eq_pure_bind, bind_ok h]
  rfl

theorem pure_eq {α : Type} (a : α) (r : Reader) : (pure a : Parse α) r = .ok (a, r) := rfl

theorem get_eq (r : Reader) : (get : Parse Reader) r = .ok (r, r) := rfl

theorem awaiting_ok {α : Type} {p : Parse α} {a : α} {s : Reader} (goal : Goal) (h : p r = .ok (a, s)) :
    awaiting goal p r = .ok (a, s) := by
  rw [awaiting, h]

theorem skip_eq (n : Nat) (r : Reader) : skip n r = .ok ((), r.advance n) := by
  rw [skip]
  split
  next h => simp [Reader.advance, h]
  next k h => simp [Reader.advance, h, Nat.add_assoc]

theorem rest_eq (r : Reader) : rest r = .ok (r.rest, r) := rfl

theorem dialect_eq (h : r.IsPlain) : dialect r = .ok (.posix, r) := by rw [dialect, h.dialect]

theorem isBash_eq (h : r.IsPlain) : isBash r = .ok (false, r) := by rw [isBash, h.dialect]; rfl

theorem startsWith_eq (s : String) (r : Reader) : startsWith s r = .ok (s.toList.isPrefixOf r.rest, r) := rfl

theorem peek_eq (h : r.rest = c :: cs) : peek r = .ok (c, r) := by rw [peek, h]

theorem unalias_eq (h : r.IsPlain) (n : Nat) : unalias n r = .ok ((), r) := by
  obtain ⟨rest, line, owed, dialect, isWhole, groups, aliases, active, further⟩ := r
  obtain ⟨rfl, rfl, rfl, rfl⟩ := h
  cases n with
  | zero => rfl
  | succ n => simp [unalias]

theorem unaliasFurther_eq (h : r.IsPlain) : unaliasFurther r = .ok ((), r) := by
  rw [unaliasFurther, h.further]

/-- A character that neither is passed over as a blank nor begins what is. -/
def isSolid (c : Char) : Bool := !isSpace c && c ∉ ['\\', '#']

theorem dropSpace_of_isSolid (h : isSolid c) (cs : Octets) : dropSpace (c :: cs) = c :: cs := by
  rw [dropSpace]
  · have hspace : isSpace c = false := by simp_all [isSolid]
    rw [hspace, if_neg Bool.false_ne_true]
  · rintro rest rfl
    simp [isSolid] at h
  · rintro rfl
    simp [isSolid] at h

theorem dropSpace_of_blank (h : isSolid c) (cs : Octets) : dropSpace (' ' :: c :: cs) = c :: cs := by
  rw [dropSpace, if_pos (by decide), dropSpace_of_isSolid h]
  · simp
  · simp

theorem space_of_isSolid (hr : r.rest = c :: cs) (h : isSolid c) : space r = .ok ((), r) := by
  rw [space, bind_ok (rest_eq r), hr, dropSpace_of_isSolid h, Nat.sub_self, skip_eq, Reader.advance_zero]

theorem space_of_blank (hr : r.rest = ' ' :: c :: cs) (h : isSolid c) : space r = .ok ((), r.advance 1) := by
  rw [space, bind_ok (rest_eq r), hr, dropSpace_of_blank h, skip_eq, List.length_cons, Nat.add_sub_cancel_left]

theorem dropLines_of_isSolid (h : isSolid c) (hc : c ≠ '\n') (n : Nat) (cs : Octets) :
    dropLines n (c :: cs) = c :: cs := by
  cases n with
  | zero => rfl
  | succ n =>
      rw [dropLines, dropSpace_of_isSolid h]
      split
      next heq => exact absurd (List.cons.inj heq).1 hc
      next => rfl

theorem newlines_of_isSolid (hr : r.rest = c :: cs) (h : isSolid c) (hc : c ≠ '\n') : newlines r = .ok ((), r) := by
  rw [newlines, bind_ok (rest_eq r), hr, dropLines_of_isSolid h hc, Nat.sub_self, skip_eq, Reader.advance_zero]

theorem newlines_of_blank (hr : r.rest = ' ' :: c :: cs) (h : isSolid c) (hc : c ≠ '\n') :
    newlines r = .ok ((), r.advance 1) := by
  have hlines : dropLines (' ' :: c :: cs).length (' ' :: c :: cs) = c :: cs := by
    rw [List.length_cons, dropLines, dropSpace_of_blank h]
    split
    next heq => exact absurd (List.cons.inj heq).1 hc
    next => rfl
  rw [newlines, bind_ok (rest_eq r), hr, hlines, skip_eq, List.length_cons, Nat.add_sub_cancel_left]

theorem newlines_of_newline (hr : r.rest = '\n' :: c :: cs) (h : isSolid c) (hc : c ≠ '\n') :
    newlines r = .ok ((), r.advance 1) := by
  have hlines : dropLines ('\n' :: c :: cs).length ('\n' :: c :: cs) = c :: cs := by
    rw [List.length_cons, dropLines, dropSpace_of_isSolid (by decide)]
    exact dropLines_of_isSolid h hc _ _
  rw [newlines, bind_ok (rest_eq r), hr, hlines, skip_eq, List.length_cons, Nat.add_sub_cancel_left]

theorem drop_length_takeWhile (p : Char → Bool) (cs : Octets) : cs.drop (cs.takeWhile p).length = cs.dropWhile p := by
  calc cs.drop (cs.takeWhile p).length
      = (cs.takeWhile p ++ cs.dropWhile p).drop (cs.takeWhile p).length := by rw [List.takeWhile_append_dropWhile]
    _ = cs.dropWhile p := List.drop_left

theorem takeWhile_append_cons {p : Char → Bool} (h : p c = false) (word cs : Octets) :
    (word ++ c :: cs).takeWhile p = word.takeWhile p := by
  induction word with
  | nil => rw [List.nil_append, List.takeWhile_cons_of_neg (by simp [h]), List.takeWhile_nil]
  | cons b word ih => rw [List.cons_append, List.takeWhile_cons, ih, List.takeWhile_cons]

theorem dropWhile_append_cons {p : Char → Bool} (h : p c = false) (word cs : Octets) :
    (word ++ c :: cs).dropWhile p = word.dropWhile p ++ c :: cs := by
  induction word with
  | nil => rw [List.nil_append, List.dropWhile_cons_of_neg (by simp [h]), List.dropWhile_nil, List.nil_append]
  | cons b word ih =>
      rw [List.cons_append, List.dropWhile_cons, ih, List.dropWhile_cons]
      split <;> rfl

def nextWord (cs : Octets) : Octets := cs.takeWhile fun c => !isMeta c

theorem nextWord_append (h : ∀ c ∈ word, isMeta c = false) (hc : isMeta c) (cs : Octets) :
    nextWord (word ++ c :: cs) = word := by
  rw [nextWord, List.takeWhile_append_of_pos (by simpa using h), List.takeWhile_cons_of_neg (by simpa using hc),
    List.append_nil]

theorem exists_eq_nextWord_append (hc : c ∈ cs) (hmeta : isMeta c) :
    ∃ d rest, cs = nextWord cs ++ d :: rest ∧ isMeta d := by
  induction cs with
  | nil => simp at hc
  | cons b cs ih =>
      cases hb : isMeta b with
      | true => exact ⟨b, cs, by rw [nextWord, List.takeWhile_cons_of_neg (by simp [hb]), List.nil_append], hb⟩
      | false =>
          have hcs : c ∈ cs := (List.mem_cons.1 hc).resolve_left fun h => by simp [h, hb] at hmeta
          obtain ⟨d, rest, hrest, hd⟩ := ih hcs
          refine ⟨d, rest, ?_, hd⟩
          rw [nextWord, List.takeWhile_cons_of_pos (by simp [hb])]
          exact congrArg (b :: ·) hrest

theorem keyword?_eq (word : Octets) (h : r.IsPlain) (hr : r.rest = word ++ c :: cs)
    (hword : ∀ c ∈ word, isMeta c = false) (hc : isMeta c) :
    keyword? r = .ok (if String.ofList word ∈ reservedWords .posix then some (String.ofList word) else none, r) := by
  have htake : (word ++ c :: cs).takeWhile (fun c => !isMeta c) = word := nextWord_append hword hc cs
  rw [keyword?, bind_ok (rest_eq r), hr, htake, List.drop_left]
  exact bind_ok (dialect_eq h)

end Parse

end CMakeHelm.Sh
