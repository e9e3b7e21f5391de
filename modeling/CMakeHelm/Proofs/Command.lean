import CMakeHelm.Proofs.Project.Settings
import CMakeHelm.Proofs.Statement

namespace CMakeHelm

open Text Statement

variable {name k v : String} {args ts : List String} {p : Property} {ps : List Property}

namespace Property

def key : Property → String
  | runtimeDir c _ => dirKey .run c
  | libraryDir c _ => dirKey .build c
  | outputName _ => "OUTPUT_NAME"

def value : Property → String
  | runtimeDir _ dir | libraryDir _ dir => dir
  | outputName name => name

theorem ofPair?_key_value (p : Property) : ofPair? p.key p.value = some p := by
  cases p with
  | runtimeDir c dir => cases c <;> rfl
  | libraryDir c dir => cases c <;> rfl
  | outputName name => rfl

theorem eq_of_ofPair? (h : ofPair? k v = some p) : p.key = k ∧ p.value = v := by
  unfold ofPair? at h
  split at h
  case h_6 => exact absurd h (Option.some_ne_none p).symm
  all_goals
    obtain rfl := Option.some.inj h
    exact ⟨rfl, rfl⟩

theorem isSome_ofPair?_congr (k v w : String) : (ofPair? k v).isSome = (ofPair? k w).isSome := by
  unfold ofPair?
  split <;> rfl

theorem ofPair?_eq_none_iff : ofPair? k v = none ↔ ∀ p : Property, p.key ≠ k := by
  constructor
  · rintro h p rfl
    have hsome := isSome_ofPair?_congr p.key v p.value
    rw [h, ofPair?_key_value] at hsome
    exact Bool.noConfusion hsome
  · intro h
    cases hp : ofPair? k v with
    | none => rfl
    | some p => exact absurd (eq_of_ofPair? hp).1 (h p)

end Property

namespace Command

/-- Pairs that assign these properties and no others. A pair with another key may stand anywhere between them, and a key
without a value at the end. -/
inductive Assigns : List Property → List String → Prop
  | nil : Assigns [] []
  | valueless (key : String) : Assigns [] [key]
  | known {ps : List Property} {args : List String} (p : Property) (h : Assigns ps args) :
      Assigns (p :: ps) (p.key :: p.value :: args)
  | unknown {ps : List Property} {args : List String} {key : String} (hkey : ∀ p : Property, p.key ≠ key)
      (value : String) (h : Assigns ps args) : Assigns ps (key :: value :: args)

theorem Assigns.properties_eq (h : Assigns ps args) : properties args = ps := by
  induction h with
  | nil => rfl
  | valueless key => rfl
  | known p h ih => rw [properties, p.ofPair?_key_value, ih]; rfl
  | unknown hkey value h ih => rw [properties, Property.ofPair?_eq_none_iff.2 hkey, ih]; rfl

theorem assigns_pairs (ps : List Property) : Assigns ps (ps.flatMap fun p => [p.key, p.value]) := by
  induction ps with
  | nil => exact .nil
  | cons p ps ih => exact .known p ih

/-- The names and the arguments that a command may be written with. -/
inductive WrittenAs : Command → String → List String → Prop
  | addExecutable (target : String) (more : List String) :
      WrittenAs (.addExecutable target) "add_executable" (target :: more)
  | addLibrary (target : String) (more : List String) : WrittenAs (.addLibrary target) "add_library" (target :: more)
  | addCustomTarget (target : String) (more : List String) :
      WrittenAs (.addCustomTarget target) "add_custom_target" (target :: more)
  | enableTesting (more : List String) : WrittenAs .enableTesting "enable_testing" more
  | addSubdirectory (dir : String) (more : List String) :
      WrittenAs (.addSubdirectory dir) "add_subdirectory" (dir :: more)
  | setTargetProperties {targets : List String} {ps : List Property} {args : List String} (htargets : marker ∉ targets)
      (h : Assigns ps args) :
      WrittenAs (.setTargetProperties targets ps) "set_target_properties" (targets ++ marker :: args)

theorem setProperties_eq (hts : marker ∉ ts) (h : Assigns ps args) :
    setProperties (ts ++ marker :: args) = .setTargetProperties ts ps := by
  have hnot : ∀ t ∈ ts, decide (t ≠ marker) = true := by
    intro t ht
    exact decide_eq_true fun he => hts (he ▸ ht)
  have htake : (ts ++ marker :: args).takeWhile (· ≠ marker) = ts := by
    rw [List.takeWhile_append_of_pos hnot, List.takeWhile_cons_of_neg (by simp), List.append_nil]
  have hdrop : (ts ++ marker :: args).dropWhile (· ≠ marker) = marker :: args := by
    rw [List.dropWhile_append_of_pos hnot, List.dropWhile_cons_of_neg (by simp)]
  rw [setProperties, if_pos (by simp), htake, hdrop, List.tail_cons, h.properties_eq]

theorem ofStatement_eq {command : Command} {s : Statement} (h : WrittenAs command s.name.toLower s.args) :
    ofStatement s = command := by
  obtain ⟨name, args⟩ := s
  generalize hlower : name.toLower = lower at h
  simp only [ofStatement, hlower] at h ⊢
  cases h with
  | addExecutable => rfl
  | addLibrary => rfl
  | addCustomTarget => rfl
  | enableTesting => rfl
  | addSubdirectory => rfl
  | setTargetProperties htargets h => exact setProperties_eq htargets h

theorem WrittenAs.isName {command : Command} (h : WrittenAs command name args) : IsName name.toList := by
  cases h <;> decide

def strings : Command → List String
  | addExecutable s | addLibrary s | addCustomTarget s | addSubdirectory s => [s]
  | setTargetProperties targets ps => targets ++ ps.map Property.value
  | enableTesting | unrecognized => []

def targets : Command → List String
  | setTargetProperties targets _ => targets
  | _ => []

end Command

def Statement.Line.Writes (l : Line) (command : Command) : Prop :=
  command.WrittenAs l.name.toLower (l.args.map (·.2.text))

namespace Command

variable {command : Command}

theorem parse?_text_of_writes {l : Line} (h : l.Writes command) :
    (Statement.parse? l.text).map ofStatement = some command := by
  have hname : IsName l.name.toList := (isName_toLower l.name).1 h.isName
  have hread : ofStatement l.statement = command := ofStatement_eq h
  rw [parse?_text l hname, Option.map_some, hread]

theorem scan_text_of_writes {l : Line} (h : l.Writes command) (hline : '\n' ∉ l.text.toList) :
    scan l.text = [command] := by
  have hread := parse?_text_of_writes h
  have hne : l.text.toList ≠ [] := by
    intro hnil
    rw [parse?, hnil] at hread
    exact absurd hread (Option.some_ne_none command).symm
  have hnot : ∀ c ∈ l.text.toList, (c == '\n') = false := by
    intro c hc
    exact beq_false_of_ne fun he => hline (he ▸ hc)
  have hlines : lines l.text.toList = [l.text.toList] := by
    rw [lines, split_of_forall_not hnot, linesOfPieces, if_neg hne]
  rw [parse?, Option.map_eq_some_iff] at hread
  obtain ⟨s, hs, rfl⟩ := hread
  rw [scan, Statement.scan, hlines, List.filterMap_cons_some hs, List.filterMap_nil, List.map_cons, List.map_nil]

theorem WrittenAs.toLower_eq (h : command.WrittenAs name args) : name.toLower = name := by
  cases h <;> cbv

theorem WrittenAs.exists_line (h : command.WrittenAs name args) (hargs : ∀ a ∈ args, a ∈ Set.range Token.text) :
    ∃ l : Line, l.Writes command := by
  obtain ⟨tokens, rfl⟩ : args ∈ Set.range (List.map Token.text) := by rwa [Set.range_list_map]
  let space : Blanks := ⟨[' '], by decide⟩
  refine ⟨{ name, args := tokens.map (space, ·), apart := ?_ }, ?_⟩
  · intro arg harg
    obtain ⟨token, -, rfl⟩ := List.mem_map.1 (List.mem_of_mem_tail harg)
    exact List.cons_ne_nil ' ' []
  · rw [Line.Writes, h.toLower_eq, List.map_map]
    exact h

theorem key_mem_range (p : Property) : p.key ∈ Set.range Token.text := by
  cases p with
  | runtimeDir c dir => cases c <;> exact ⟨{ text := _ }, rfl⟩
  | libraryDir c dir => cases c <;> exact ⟨{ text := _ }, rfl⟩
  | outputName name => exact ⟨{ text := _ }, rfl⟩

theorem exists_writes (hknown : command ≠ unrecognized) (hstrings : ∀ s ∈ command.strings, s ∈ Set.range Token.text)
    (hmarker : marker ∉ command.targets) : ∃ l : Line, l.Writes command := by
  cases command with
  | addExecutable target => exact (WrittenAs.addExecutable target []).exists_line hstrings
  | addLibrary target => exact (WrittenAs.addLibrary target []).exists_line hstrings
  | addCustomTarget target => exact (WrittenAs.addCustomTarget target []).exists_line hstrings
  | enableTesting => exact (WrittenAs.enableTesting []).exists_line (by simp)
  | addSubdirectory dir => exact (WrittenAs.addSubdirectory dir []).exists_line hstrings
  | setTargetProperties ts ps =>
      apply (WrittenAs.setTargetProperties hmarker (assigns_pairs ps)).exists_line
      intro a ha
      simp only [List.mem_append, List.mem_cons, List.mem_flatMap, List.not_mem_nil, or_false] at ha
      rcases ha with ha | rfl | ⟨p, hp, rfl | rfl⟩
      · exact hstrings a (List.mem_append_left _ ha)
      · exact ⟨{ text := marker }, rfl⟩
      · exact key_mem_range p
      · exact hstrings p.value (List.mem_append_right _ (List.mem_map_of_mem hp))
  | unrecognized => exact absurd rfl hknown

/-- A command of tokens can be written, and every line that writes it is scanned as that command alone. -/
theorem scan_written (hknown : command ≠ unrecognized) (hstrings : ∀ s ∈ command.strings, s ∈ Set.range Token.text)
    (hmarker : marker ∉ command.targets) :
    (∃ l : Line, l.Writes command) ∧
      ∀ l : Line, l.Writes command →
        (Statement.parse? l.text).map ofStatement = some command ∧ ('\n' ∉ l.text.toList → scan l.text = [command]) := by
  constructor
  · exact exists_writes hknown hstrings hmarker
  · intro l hl
    exact ⟨parse?_text_of_writes hl, scan_text_of_writes hl⟩

/-- The marker and two keys are values here; `FOLDER` is no key, and the last key has no value. -/
def renamedLine : Line where
  indent := { chars := ['\t'] }
  name := "Set_TARGET_properties"
  opening := { chars := ['\u00a0'] }
  args := [
    ({ chars := [] }, { text := "app" }),
    ({ chars := ['\u3000', ' '] }, { text := "lib" }),
    ({ chars := [' '] }, { text := "PROPERTIES" }),
    ({ chars := [' '] }, { text := "OUTPUT_NAME" }),
    ({ chars := [' '] }, { text := "PROPERTIES" }),
    ({ chars := [' '] }, { text := "FOLDER" }),
    ({ chars := [' '] }, { text := "OUTPUT_NAME" }),
    ({ chars := [' '] }, { text := "RUNTIME_OUTPUT_DIRECTORY_DEBUG" }),
    ({ chars := [' '] }, { text := "OUTPUT_NAME" }),
    ({ chars := [' '] }, { text := "OUTPUT_NAME" })]
  closing := { chars := [' '] }
  ending := { chars := ['\r'] }
  comment := some " was app(1)".toList

def renamed : Command := .setTargetProperties ["app", "lib"] [.outputName "PROPERTIES", .runtimeDir .debug "OUTPUT_NAME"]

theorem renamedLine_writes : renamedLine.Writes renamed := by
  have hnone : Property.ofPair? "FOLDER" "OUTPUT_NAME" = none := rfl
  have hassigns : Assigns [.outputName "PROPERTIES", .runtimeDir .debug "OUTPUT_NAME"]
      ["OUTPUT_NAME", "PROPERTIES", "FOLDER", "OUTPUT_NAME", "RUNTIME_OUTPUT_DIRECTORY_DEBUG", "OUTPUT_NAME",
        "OUTPUT_NAME"] :=
    .known (.outputName "PROPERTIES") (.unknown (Property.ofPair?_eq_none_iff.1 hnone) "OUTPUT_NAME"
      (.known (.runtimeDir .debug "OUTPUT_NAME") (.valueless "OUTPUT_NAME")))
  have hmarker : marker ∉ ["app", "lib"] := by decide
  have hname : renamedLine.name.toLower = "set_target_properties" := by cbv
  rw [Line.Writes, hname]
  exact WrittenAs.setTargetProperties hmarker hassigns

theorem scan_renamed :
    (renamed ≠ unrecognized ∧ (∀ s ∈ renamed.strings, s ∈ Set.range Token.text) ∧ marker ∉ renamed.targets) ∧
      scan ("\tSet_TARGET_properties\u00a0(app\u3000 lib PROPERTIES OUTPUT_NAME PROPERTIES FOLDER " ++
        "OUTPUT_NAME RUNTIME_OUTPUT_DIRECTORY_DEBUG OUTPUT_NAME OUTPUT_NAME )\r# was app(1)") = [renamed] := by
  have hknown : renamed ≠ unrecognized := by decide
  have hstrings : ∀ s ∈ renamed.strings, s ∈ Set.range Token.text := by
    simp only [renamed, strings, List.map_cons, List.map_nil, Property.value, List.cons_append, List.nil_append,
      List.forall_mem_cons]
    exact ⟨⟨{ text := "app" }, rfl⟩, ⟨{ text := "lib" }, rfl⟩, ⟨{ text := "PROPERTIES" }, rfl⟩,
      ⟨{ text := "OUTPUT_NAME" }, rfl⟩, by simp⟩
  have hmarker : marker ∉ renamed.targets := by decide
  refine ⟨⟨hknown, hstrings, hmarker⟩, ?_⟩
  have hline : '\n' ∉ renamedLine.text.toList := by decide +kernel
  have hscan := ((scan_written hknown hstrings hmarker).2 renamedLine renamedLine_writes).2 hline
  have htext : renamedLine.text = "\tSet_TARGET_properties\u00a0(app\u3000 lib PROPERTIES OUTPUT_NAME PROPERTIES FOLDER " ++
      "OUTPUT_NAME RUNTIME_OUTPUT_DIRECTORY_DEBUG OUTPUT_NAME OUTPUT_NAME )\r# was app(1)" := by decide +kernel
  rw [htext] at hscan
  exact hscan

end Command

end CMakeHelm
