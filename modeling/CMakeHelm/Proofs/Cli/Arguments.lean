import CMakeHelm.Cli.Arguments
import Mathlib.Data.List.Infix

namespace CMakeHelm.Cli

variable {legal : Flag → Bool} {verbs : Bool} {given given' : Given} {f : Flag} {value : String} {cs : List Char}
  {waiting : Option Flag} {args : List String} {rest : Option (Verb × List String)}

def jsonWord : String := "--json"

namespace Given

def HasJson (given : Given) : Prop := (given.lookup .json).isSome = true

theorem hasJson_add (h : given.add f value = some given') : given'.HasJson ↔ given.HasJson ∨ f = .json := by
  unfold add at h
  split at h
  · cases h
  · cases h
    have hlast : (List.lookup Flag.json [(f, value)]).isSome = decide (f = .json) := by cases f <;> rfl
    rw [HasJson, List.lookup_append, Option.isSome_or, hlast, Bool.or_eq_true, decide_eq_true_eq, HasJson]

theorem hasJson_add_of_ne (hf : f ≠ .json) (h : given.add f value = some given') : given'.HasJson ↔ given.HasJson := by
  simp [hasJson_add h, hf]

end Given

theorem ne_json_of_takesValue (h : f.takesValue = true) : f ≠ .json := by
  rintro rfl
  cases h

theorem hasJson_letters (h : letters legal given cs = some (given', waiting)) :
    (given'.HasJson ↔ given.HasJson) ∧ ∀ f ∈ waiting, f ≠ .json := by
  induction cs generalizing given with
  | nil =>
      cases h
      exact ⟨.rfl, nofun⟩
  | cons c cs ih =>
      rw [letters] at h
      split at h
      · cases h
      · obtain ⟨next, hadd, he⟩ := Option.map_eq_some_iff.1 h
        cases he
        exact ⟨Given.hasJson_add_of_ne (by decide) hadd, nofun⟩
      · next f hversion hfind =>
        have hletter : f.letter? = some c := by simpa using List.find?_some hfind
        have hf : f ≠ .json := by
          rintro rfl
          cases hletter
        split at h
        · obtain ⟨next, hadd, hrest⟩ := Option.bind_eq_some_iff.1 h
          obtain ⟨hiff, hwaiting⟩ := ih hrest
          exact ⟨hiff.trans (Given.hasJson_add_of_ne hf hadd), hwaiting⟩
        · split at h
          · cases h
            exact ⟨.rfl, fun g hg => Option.mem_some_iff.1 hg ▸ hf⟩
          · obtain ⟨next, hadd, he⟩ := Option.map_eq_some_iff.1 h
            cases he
            exact ⟨Given.hasJson_add_of_ne hf hadd, nofun⟩

theorem long_eq_iff : f.long.toList = "json".toList ↔ f = .json := by
  cases f <;> simp [Flag.long]

theorem hasJson_word (h : word legal given cs = some (given', waiting)) :
    (given'.HasJson ↔ given.HasJson ∨ cs = jsonWord.toList) ∧ ∀ f ∈ waiting, f ≠ .json := by
  unfold word at h
  split at h
  · next cs =>
    have hjson : '-' :: '-' :: cs = jsonWord.toList ↔ cs = "json".toList := by simp [jsonWord]
    have hsplit : cs = cs.takeWhile (· ≠ '=') ++ cs.drop (cs.takeWhile (· ≠ '=')).length :=
      List.prefix_append_drop (List.takeWhile_prefix _)
    rw [hjson]
    simp only at h
    split at h
    · cases h
    · next f hfind hdrop =>
      have hlong : f.long.toList = cs.takeWhile (· ≠ '=') := by simpa using List.find?_some hfind
      have hf : cs = "json".toList ↔ f = .json := by
        rw [← long_eq_iff, hlong]
        rw [hdrop, List.append_nil] at hsplit
        rw [← hsplit]
      rw [hf]
      split at h
      · next htakes =>
        cases h
        have hne := ne_json_of_takesValue htakes
        exact ⟨by simp [hne], fun g hg => Option.mem_some_iff.1 hg ▸ hne⟩
      · obtain ⟨next, hadd, he⟩ := Option.map_eq_some_iff.1 h
        cases he
        exact ⟨Given.hasJson_add hadd, nofun⟩
    · next f c value hfind hdrop =>
      have hnot : cs ≠ "json".toList := by
        rintro rfl
        cases hdrop
      split at h
      · next htakes =>
        obtain ⟨next, hadd, he⟩ := Option.map_eq_some_iff.1 h
        cases he
        have hiff := Given.hasJson_add_of_ne (ne_json_of_takesValue htakes) hadd
        exact ⟨hiff.trans (or_iff_left hnot).symm, nofun⟩
      · cases h
  · next c cs hdash =>
    have hnot : '-' :: c :: cs ≠ jsonWord.toList := by
      intro he
      have hlist : jsonWord.toList = '-' :: '-' :: "json".toList := by simp [jsonWord]
      exact hdash (List.cons.inj (List.cons.inj (he.trans hlist)).2).1
    obtain ⟨hiff, hwaiting⟩ := hasJson_letters h
    exact ⟨hiff.trans (or_iff_left hnot).symm, hwaiting⟩
  · cases h

def Reading.AsksJson : Reading → Prop
  | version => False
  | flags given none => given.HasJson
  | flags given (some (_, words)) => given.HasJson ∨ jsonWord ∈ words

theorem asksJson_read {r : Reading} (hr : r ≠ .version)
    (h : read legal verbs given args = some r) : r.AsksJson ↔ given.HasJson ∨ jsonWord ∈ args := by
  have hword : ∀ arg : String, arg.toList = jsonWord.toList ↔ jsonWord = arg := fun arg =>
    String.toList_inj.trans eq_comm
  fun_induction read legal verbs given args with
  | case1 given =>
      cases h
      simp [Reading.AsksJson]
  | case2 given arg rest verb hverb =>
      have harg : jsonWord ≠ arg := by
        rintro rfl
        cases verbs <;> cases hverb
      cases h
      simp [Reading.AsksJson, harg]
  | case3 given =>
      cases h
      simp [Reading.AsksJson, jsonWord]
  | case6 => exact absurd (Option.some.inj h).symm hr
  | case7 given arg rest hverb harg next hnext hversion ih =>
      refine (ih h).trans ?_
      rw [(hasJson_word hnext).1, List.mem_cons, hword, or_assoc]
  | case11 given arg hverb harg next f hnext value rest hvalue last hlast ih =>
      obtain ⟨hiff, hwaiting⟩ := hasJson_word hnext
      -- What looks like a flag is no value.
      have hjson : jsonWord ≠ value := by
        rintro rfl
        exact hvalue (by decide +kernel)
      refine (ih h).trans ?_
      rw [Given.hasJson_add_of_ne (hwaiting f rfl) hlast, hiff, List.mem_cons, List.mem_cons, hword, or_assoc,
        or_iff_right hjson]
  | _ => cases h

theorem eq_none_of_read (h : read legal false given args = some (.flags given' rest)) : rest = none := by
  generalize hverbs : false = verbs at h
  fun_induction read legal verbs given args with
  | case1 => cases h; rfl
  | case2 given arg others verb hverb => subst hverbs; cases hverb
  | case3 => cases h; rfl
  | case7 given arg others hverb harg next hnext hversion ih => exact ih h
  | case11 given arg hverb harg next f hnext value others hvalue last hlast ih => exact ih h
  | _ => cases h

theorem json_iff_mem {rootVariable : Option String} {i : Invocation}
    (h : parse? rootVariable args = some (.invocation i)) : i.json = true ↔ jsonWord ∈ args := by
  simp only [parse?, Option.bind_eq_bind, Option.bind_eq_some_iff] at h
  obtain ⟨r, hbefore, h⟩ := h
  cases r with
  | version => cases h
  | flags before behind =>
      cases behind with
      | none => cases h
      | some found =>
          obtain ⟨verb, words⟩ := found
          have hargs := asksJson_read (by simp) hbefore
          obtain ⟨r', hown, h⟩ := Option.bind_eq_some_iff.1 h
          cases r' with
          | version => cases h
          | flags own behind =>
              obtain rfl := eq_none_of_read hown
              have hwords := asksJson_read (by simp) hown
              have hnone : ¬ Given.HasJson [] := by simp [Given.HasJson]
              simp only [Reading.AsksJson, or_iff_right hnone] at hargs hwords
              dsimp only at h
              split at h
              · cases h
              · obtain ⟨request, -, he⟩ := Option.bind_eq_some_iff.1 h
                cases he
                have hboth :
                    ((own.lookup .json).or (before.lookup .json)).isSome = true ↔ own.HasJson ∨ before.HasJson := by
                  rw [Option.isSome_or, Bool.or_eq_true, Given.HasJson, Given.HasJson]
                rw [← hargs, ← hwords]
                exact hboth.trans or_comm

end CMakeHelm.Cli
