import CMakeHelm.Cli
import CMakeHelm.Proofs.Cli.Arguments
import CMakeHelm.Proofs.Data.Json
import CMakeHelm.Proofs.Helm
import CMakeHelm.Proofs.Helm.Action
import CMakeHelm.Proofs.Project.Artifacts
import Mathlib

namespace CMakeHelm.Cli

open Session (Shells)
open Json

variable {c : Context} {args : List String} {i : Invocation} {h : Helm Shells} {a : Helm.Action} {d : Data}
  {pieces : List Piece} {r : Report}

def Piece.isOwn : Piece → Bool
  | own _ => true
  | forwarded _ => false

def Piece.lines (p : Piece) : List (List Char) := Text.lines p.printed.stdout.toList

/-- The lines that do not come from the session's shell. -/
def ownLines (pieces : List Piece) : List (List Char) := (pieces.filter Piece.isOwn).flatMap Piece.lines

theorem stdout_foldl_append (printed : List Printed) (first : Printed) :
    (printed.foldl Printed.append first).stdout.toList =
      first.stdout.toList ++ printed.flatMap (·.stdout.toList) := by
  induction printed generalizing first with
  | nil => simp
  | cons p printed ih =>
      rw [List.foldl_cons, ih, List.flatMap_cons, Printed.append, String.toList_append, List.append_assoc]

theorem lines_printed (hended : ∀ p ∈ r.pieces, Text.IsEnded p.printed.stdout.toList) :
    Text.lines r.printed.stdout.toList = r.pieces.flatMap Piece.lines := by
  have hpieces : ∀ pieces : List Piece, (∀ p ∈ pieces, Text.IsEnded p.printed.stdout.toList) →
      Text.lines ((pieces.map Piece.printed).flatMap (·.stdout.toList)) = pieces.flatMap Piece.lines := by
    intro pieces hended
    induction pieces with
    | nil => rfl
    | cons p pieces ih =>
        obtain ⟨hp, hrest⟩ := List.forall_mem_cons.1 hended
        rw [List.map_cons, List.flatMap_cons, Text.lines_append hp, ih hrest, List.flatMap_cons, Piece.lines]
  rw [Report.printed, stdout_foldl_append]
  exact hpieces r.pieces hended

theorem stdout_status (console : Console) (s : Status) (message : String) : (console.status s message).stdout = "" := by
  unfold Console.status
  split <;> rfl

theorem isEnded_newline (s : String) : Text.IsEnded (s ++ "\n").toList :=
  .inr ⟨s.toList, by simp⟩

theorem isEnded_event (console : Console) (d : Data) : Text.IsEnded (console.event d).stdout.toList := by
  unfold Console.event
  split
  · exact isEnded_newline _
  · exact .inl rfl

theorem isEnded_error (console : Console) (message : String) : Text.IsEnded (console.error message).stdout.toList := by
  unfold Console.error
  split
  · exact isEnded_event console _
  · exact .inl rfl

theorem isEnded_showTarget (console : Console) (t : Target) : Text.IsEnded (showTarget console t).stdout.toList := by
  unfold showTarget
  split
  · exact isEnded_event console _
  · exact isEnded_newline _

theorem isEnded_status (console : Console) (s : Status) (message : String) :
    Text.IsEnded (console.status s message).stdout.toList := by
  rw [stdout_status]
  exact .inl rfl

theorem lines_event (hd : IsJson d) : Piece.lines (.own (Console.json.event d)) = [d.compact.toList] := lines_compact hd

theorem act_cases (h : Helm Shells) (a : Helm.Action) (before : Printed)
    (after : Option Launch.Descriptor → Except Failure Printed) :
    ∃ shown : List (List Char),
      (∃ d printed, (h.act a).2 = some (.ok d) ∧ after d = .ok printed ∧ (act h a before after).failure = none ∧
        (act h a before after).pieces = .own before :: shown.map .forwarded ++ [.own printed]) ∨
      ∃ e, (∀ d printed, (h.act a).2 = some (.ok d) → after d ≠ .ok printed) ∧
        (act h a before after).failure = some e ∧
        (act h a before after).pieces = .own before :: shown.map .forwarded := by
  unfold act
  rcases h.act a with ⟨h', _ | e | d⟩
  · exact ⟨h'.shown, .inr ⟨_, nofun, rfl, rfl⟩⟩
  · exact ⟨h'.shown, .inr ⟨_, nofun, rfl, rfl⟩⟩
  · cases hafter : after d with
    | ok printed => exact ⟨h'.shown, .inl ⟨d, printed, rfl, hafter, by simp [hafter], by simp [hafter]⟩⟩
    | error e =>
        refine ⟨h'.shown, .inr ⟨e, ?_, by simp [hafter], by simp [hafter]⟩⟩
        rintro _ printed ⟨⟩ hok
        cases hafter.symm.trans hok

theorem isEnded_act {before : Printed} {after : Option Launch.Descriptor → Except Failure Printed}
    (hbefore : Text.IsEnded before.stdout.toList)
    (hafter : ∀ d printed, after d = .ok printed → Text.IsEnded printed.stdout.toList) :
    ∀ p ∈ (act h a before after).pieces, Text.IsEnded p.printed.stdout.toList := by
  have hshown (shown : List (List Char)) :
      ∀ p ∈ Piece.own before :: shown.map .forwarded, Text.IsEnded p.printed.stdout.toList := by
    refine List.forall_mem_cons.2 ⟨hbefore, fun p hp => ?_⟩
    obtain ⟨line, -, rfl⟩ := List.mem_map.1 hp
    exact isEnded_newline _
  obtain ⟨shown, ⟨d, printed, -, hd, -, hpieces⟩ | ⟨e, -, -, hpieces⟩⟩ := act_cases h a before after
  · rw [hpieces]
    intro p hp
    rcases List.mem_append.1 hp with hp | hp
    · exact hshown shown p hp
    · obtain rfl := List.mem_singleton.1 hp
      exact hafter d printed hd
  · rw [hpieces]
    exact hshown shown

theorem describe_eq_ok_iff {d : Launch.Descriptor} {text : String} :
    describe d = .ok text ↔ ∃ program workingDirectory,
      d.program.toString? = some program ∧ d.workingDirectory.toString? = some workingDirectory ∧
        text = Data.spread [("program", program), ("workingDirectory", workingDirectory),
          ("debuggerKind", d.debuggerKind)] := by
  unfold describe
  split
  · next program workingDirectory hprogram hworking => simp [hprogram, hworking, eq_comm]
  · next hnot =>
    constructor
    · nofun
    · rintro ⟨program, workingDirectory, hprogram, hworking, -⟩
      exact absurd hworking (hnot program workingDirectory hprogram)

theorem conclude_eq_ok_iff {console : Console} {target : String} {d : Launch.Descriptor} {printed : Printed} :
    conclude console target (some d) = .ok printed ↔
      ∃ text, describe d = .ok text ∧ printed = { stdout := text ++ "\n" } := by
  rw [conclude]
  cases describe d with
  | ok text => simp [Except.map, eq_comm]
  | error e => simp [Except.map]

theorem isEnded_perform (c : Context) (console : Console) (h : Helm Shells) (request : Request) :
    ∀ p ∈ (perform c console h request).pieces, Text.IsEnded p.printed.stdout.toList := by
  cases request with
  | targets onlyRun =>
      intro p hp
      obtain ⟨t, -, rfl⟩ := List.mem_map.1 hp
      exact isEnded_showTarget console t
  | generate =>
      refine isEnded_act (isEnded_status ..) ?_
      rintro _ _ ⟨⟩
      exact isEnded_status ..
  | build target =>
      rw [perform, build]
      split
      · nofun
      · refine isEnded_act (isEnded_status ..) ?_
        rintro _ _ ⟨⟩
        exact isEnded_status ..
  | run target debugger =>
      rw [perform, run]
      split
      · nofun
      · split
        · nofun
        · refine isEnded_act (isEnded_status ..) fun d printed hd => ?_
          cases d with
          | none =>
              cases hd
              exact isEnded_status ..
          | some d =>
              obtain ⟨text, -, rfl⟩ := conclude_eq_ok_iff.1 hd
              exact isEnded_newline _

def consoleOf (c : Context) (i : Invocation) : Console := Console.ofFlags i.quiet i.color i.json c.terminal

theorem report_cases (hparse : parse? c.rootVariable args = some (.invocation i)) :
    (∃ e, openProject c i = .error e ∧ (report c args).pieces = [.own ((consoleOf c i).error e.message)]) ∨
    ∃ h, openProject c i = .ok h ∧
      ((perform c (consoleOf c i) h i.request).failure = none ∧
          (report c args).pieces = (perform c (consoleOf c i) h i.request).pieces ∨
        ∃ e, (perform c (consoleOf c i) h i.request).failure = some e ∧
          (report c args).pieces =
            (perform c (consoleOf c i) h i.request).pieces ++ [.own ((consoleOf c i).error e.message)]) := by
  unfold report consoleOf
  simp only [hparse]
  cases openProject c i with
  | error e => exact .inl ⟨e, rfl, rfl⟩
  | ok h =>
      refine .inr ⟨h, rfl, ?_⟩
      dsimp only
      generalize perform c (Console.ofFlags i.quiet i.color i.json c.terminal) h i.request = course
      cases hfailure : course.failure with
      | none => exact .inl ⟨rfl, rfl⟩
      | some e => exact .inr ⟨e, rfl, rfl⟩

theorem isEnded_report (c : Context) (args : List String) :
    ∀ p ∈ (report c args).pieces, Text.IsEnded p.printed.stdout.toList := by
  have hmore (pieces : List Piece) (hpieces : ∀ p ∈ pieces, Text.IsEnded p.printed.stdout.toList) (i : Invocation)
      (message : String) :
      ∀ p ∈ pieces ++ [.own ((consoleOf c i).error message)], Text.IsEnded p.printed.stdout.toList := by
    intro p hp
    rcases List.mem_append.1 hp with hp | hp
    · exact hpieces p hp
    · obtain rfl := List.mem_singleton.1 hp
      exact isEnded_error (consoleOf c i) message
  cases hparse : parse? c.rootVariable args with
  | none =>
      simp only [report, hparse]
      nofun
  | some parsed =>
      cases parsed with
      | version =>
          simp only [report, hparse, List.mem_singleton]
          rintro p rfl
          exact .inr ⟨"cmake-pilot 0.1.0".toList, rfl⟩
      | invocation i =>
          obtain ⟨e, -, hpieces⟩ | ⟨h, -, ⟨-, hpieces⟩ | ⟨e, -, hpieces⟩⟩ := report_cases hparse
          · rw [hpieces]
            exact hmore [] nofun i e.message
          · rw [hpieces]
            exact isEnded_perform c (consoleOf c i) h i.request
          · rw [hpieces]
            exact hmore _ (isEnded_perform c (consoleOf c i) h i.request) i e.message

theorem ownLines_append (pieces more : List Piece) : ownLines (pieces ++ more) = ownLines pieces ++ ownLines more := by
  simp [ownLines]

theorem ownLines_own (p : Printed) : ownLines [.own p] = Piece.lines (.own p) := List.append_nil _

theorem ownLines_act {before : Printed} {after : Option Launch.Descriptor → Except Failure Printed}
    (hbefore : before.stdout = "") :
    (∃ d printed, (h.act a).2 = some (.ok d) ∧ after d = .ok printed ∧ (act h a before after).failure = none ∧
      ownLines (act h a before after).pieces = Text.lines printed.stdout.toList) ∨
    ∃ e, (∀ d printed, (h.act a).2 = some (.ok d) → after d ≠ .ok printed) ∧
      (act h a before after).failure = some e ∧ ownLines (act h a before after).pieces = [] := by
  have hshown (shown : List (List Char)) : ownLines (.own before :: shown.map .forwarded) = [] := by
    simp [ownLines, Piece.isOwn, Piece.lines, Piece.printed, hbefore, Text.lines, Text.split, Text.linesOfPieces]
  obtain ⟨shown, ⟨d, printed, hd, hprinted, hfailure, hpieces⟩ | ⟨e, hnone, hfailure, hpieces⟩⟩ :=
    act_cases h a before after
  · refine .inl ⟨d, printed, hd, hprinted, hfailure, ?_⟩
    rw [hpieces, ownLines_append, hshown, List.nil_append, ownLines_own, Piece.lines, Piece.printed]
  · exact .inr ⟨e, hnone, hfailure, by rw [hpieces, hshown]⟩

theorem answer_of_planRun {plan : Helm.Plan} (hplan : h.planRun = .ok plan) :
    (h.act .run).2 = ((h.withFiles h.files).perform Shells.host plan).2 := by
  simp only [Helm.act, Helm.plan, hplan]

theorem answer_run {program : Path} (hprogram : h.artifact = .ok program) :
    (h.configuration = .debug ∧
        (h.act .run).2 = some (.ok (some ⟨program, h.project.buildDir, h.debugger⟩))) ∨
      h.configuration = .release ∧ ∀ d, (h.act .run).2 = some (.ok d) → d = none := by
  have hplans := h.plans_run h.files
  cases hplan : h.planRun with
  | error e =>
      rw [hplan] at hplans
      cases hplans with
      | notRemoved _ cause ha => simp at ha
      | noArtifact e he => cases hprogram.symm.trans he
  | ok plan =>
      rw [answer_of_planRun hplan]
      rw [hplan] at hplans
      cases hplans with
      | debug program' hdebug ha =>
          cases hprogram.symm.trans ha
          exact .inl ⟨hdebug, rfl⟩
      | release program hrelease =>
          refine .inr ⟨hrelease, fun d hd => ?_⟩
          obtain ⟨outcome, -, hd⟩ := Option.map_eq_some_iff.1 hd
          cases outcome <;> cases hd
          rfl

def targetLines (h : Helm Shells) (onlyRun : Bool) : List (List Char) :=
  (h.project.targets.filter fun t => !onlyRun || t.key.kind == .run).map fun t => (targetEvent t.key).compact.toList

/-- A target that the project has is run in debug, and `text` describes its program. -/
def Describes (h : Helm Shells) (request : Request) (text : String) : Prop :=
  h.configuration = .debug ∧ ∃ target debugger t program, request = .run target debugger ∧
    h.project.find? ⟨target, .run⟩ = some t ∧ h.project.artifact t .debug = .ok program ∧
      describe ⟨program, h.project.buildDir, debugger.getD h.debugger⟩ = .ok text

/-- What a command shows of its own to those who read JSON, and how it ends. -/
inductive Shows (h : Helm Shells) : Request → List (List Char) → Option Failure → Prop
  | targets (onlyRun : Bool) : Shows h (.targets onlyRun) (targetLines h onlyRun) none
  | descriptor {request : Request} {text : String} (hdescribes : Describes h request text) :
      Shows h request (Text.lines (text ++ "\n").toList) none
  | nothing {request : Request} (hlist : ∀ onlyRun, request ≠ .targets onlyRun)
      (hnot : ∀ text, ¬ Describes h request text) (failure : Option Failure) : Shows h request [] failure

theorem targetEvent_eq (k : Key) :
    targetEvent k = texts [("kind", k.kind.name), ("name", k.name), ("reason", "target")] := by
  simp [targetEvent, Data.object, texts, -String.lt_iff_ltb]

theorem errorEvent_eq (message : String) :
    Console.errorEvent message = texts [("message", message), ("reason", "error")] := by
  simp [Console.errorEvent, Data.object, texts, -String.lt_iff_ltb]

theorem isJson_targetEvent (k : Key) : IsJson (targetEvent k) := targetEvent_eq k ▸ isJson_texts _

theorem isJson_errorEvent (message : String) : IsJson (Console.errorEvent message) :=
  errorEvent_eq message ▸ isJson_texts _

theorem isObject_targetEvent (k : Key) : IsObject (targetEvent k).compact.toList := targetEvent_eq k ▸ isObject_texts _

theorem isObject_errorEvent (message : String) : IsObject (Console.errorEvent message).compact.toList :=
  errorEvent_eq message ▸ isObject_texts _

theorem ofData?_targetEvent (k : Key) : Key.ofData? (targetEvent k) = some k := by
  obtain ⟨name, kind⟩ := k
  rw [targetEvent_eq]
  cases kind <;> rfl

theorem ownLines_targets (h : Helm Shells) (onlyRun : Bool) :
    ownLines (targets .json h onlyRun).pieces = targetLines h onlyRun := by
  unfold targets targetLines
  induction h.project.targets.filter (fun t => !onlyRun || t.key.kind == .run) with
  | nil => rfl
  | cons t listed ih =>
      have hline : Piece.lines (.own (showTarget .json t)) = [(targetEvent t.key).compact.toList] :=
        lines_event (isJson_targetEvent t.key)
      simp only [List.map_cons] at ih ⊢
      rw [← List.singleton_append, ownLines_append, ih, ownLines_own, hline, List.singleton_append]

theorem not_describes {request : Request} (hrun : ∀ target debugger, request ≠ .run target debugger) (text : String) :
    ¬ Describes h request text := by
  rintro ⟨-, target, debugger, t, program, he, -⟩
  exact hrun target debugger he

theorem shows_act {h' : Helm Shells} {request : Request} {before : Printed}
    {after : Option Launch.Descriptor → Except Failure Printed}
    (hlist : ∀ onlyRun, request ≠ .targets onlyRun) (hrun : ∀ target debugger, request ≠ .run target debugger)
    (hbefore : before.stdout = "") (hafter : ∀ d printed, after d = .ok printed → printed.stdout = "") :
    Shows h request (ownLines (act h' a before after).pieces) (act h' a before after).failure := by
  have hnot := not_describes (h := h) hrun
  have hlines : ownLines (act h' a before after).pieces = [] := by
    obtain ⟨d, printed, -, hd, -, hlines⟩ | ⟨e, -, -, hlines⟩ := ownLines_act hbefore
    · rw [hlines, hafter d printed hd]
      rfl
    · exact hlines
  rw [hlines]
  exact .nothing hlist hnot _

theorem exists_artifact {t : Target} {target : String} (hp : h.project.Consistent)
    (hfind : h.project.find? ⟨target, .run⟩ = some t) (c : Configuration) :
    ∃ program, h.project.artifact t c = .ok program := by
  have hkey : t.key = ⟨target, .run⟩ := by simpa using List.find?_some hfind
  obtain ⟨hdir, hname⟩ := hp.placed t (List.mem_of_find?_eq_some hfind) (congrArg Key.kind hkey)
  exact Project.artifact_eq_ok_iff.2 ⟨hdir c, hname⟩

theorem exists_describes {target : String} (hp : h.project.Consistent) (hdebug : h.configuration = .debug)
    (hmem : ⟨target, .run⟩ ∈ h.project.keys) (debugger : Option String) (hbuild : h.project.buildDir.IsText)
    (hsubdir : ∀ t ∈ h.project.targets, t.subdir.IsText) : ∃ text, Describes h (.run target debugger) text := by
  obtain ⟨t, ht⟩ := Option.isSome_iff_exists.1 (Project.isSome_find?_iff.2 hmem)
  obtain ⟨program, hprogram⟩ := exists_artifact hp ht .debug
  obtain ⟨s, rfl⟩ := Project.isText_artifact hbuild (hsubdir t (List.mem_of_find?_eq_some ht)) hprogram
  obtain ⟨s', hs'⟩ := hbuild
  have htext := describe_eq_ok_iff (d := ⟨Path.ofString s, h.project.buildDir, debugger.getD h.debugger⟩) |>.2
    ⟨s, s', Path.toString?_ofString s, hs' ▸ Path.toString?_ofString s', rfl⟩
  exact ⟨_, hdebug, target, debugger, t, _, rfl, ht, hprogram, htext⟩

theorem shows_run (hp : h.project.Consistent) (target : String) (debugger : Option String) :
    Shows h (.run target debugger) (ownLines (run .json h target debugger).pieces)
      (run .json h target debugger).failure := by
  have hlist : ∀ onlyRun, Request.run target debugger ≠ .targets onlyRun := nofun
  have hdescribes (text : String) : Describes h (.run target debugger) text ↔ h.configuration = .debug ∧
      ∃ t program, h.project.find? ⟨target, .run⟩ = some t ∧ h.project.artifact t .debug = .ok program ∧
        describe ⟨program, h.project.buildDir, debugger.getD h.debugger⟩ = .ok text := by
    simp [Describes]
  unfold run
  dsimp only
  split
  · next e hselect =>
    refine .nothing hlist (fun text hd => ?_) _
    have hnone := Helm.select_eq_error_iff.2 ⟨e, hselect⟩
    obtain ⟨-, t, program, hfind, -⟩ := (hdescribes text).1 hd
    cases hnone.symm.trans hfind
  · next selected hselect =>
    obtain ⟨rfl, hfound⟩ := Helm.select_eq_ok hselect
    obtain ⟨t, ht⟩ := Option.isSome_iff_exists.1 hfound
    -- There is an executable, so nothing is left that could go wrong before the configuration decides.
    obtain ⟨program, hprogram⟩ := exists_artifact hp ht h.configuration
    let selected : Helm Shells := { h with debugger := debugger.getD h.debugger, selected := some ⟨target, .run⟩ }
    have hartifact : selected.artifact = .ok program := by
      have htarget : selected.selectedTarget? = some t := ht
      rw [Helm.artifact, htarget]
      exact hprogram
    rw [hartifact]
    dsimp only
    have hstatus := stdout_status .json .running program.toString
    obtain ⟨hdebug, hd⟩ | ⟨hrelease, hnone⟩ := answer_run hartifact
    · have hdebug : h.configuration = .debug := hdebug
      obtain ⟨d, printed, hd', hprinted, hfailure, hlines⟩ | ⟨e, hnot, hfailure, hlines⟩ := ownLines_act hstatus
      · cases hd.symm.trans hd'
        obtain ⟨text, htext, rfl⟩ := conclude_eq_ok_iff.1 hprinted
        rw [hfailure, hlines]
        exact .descriptor ((hdescribes text).2 ⟨hdebug, t, program, ht, hdebug ▸ hprogram, htext⟩)
      · rw [hlines]
        refine .nothing hlist (fun text hdescribed => ?_) _
        obtain ⟨-, t', program', ht', hprogram', htext⟩ := (hdescribes text).1 hdescribed
        cases ht.symm.trans ht'
        cases (hdebug ▸ hprogram).symm.trans hprogram'
        exact hnot _ _ hd (conclude_eq_ok_iff.2 ⟨text, htext, rfl⟩)
    · have hrelease : h.configuration = .release := hrelease
      have hnot (text : String) : ¬ Describes h (.run target debugger) text := by
        rintro ⟨hdebug, -⟩
        cases hdebug.symm.trans hrelease
      obtain ⟨d, printed, hd, hprinted, -, hlines⟩ | ⟨e, -, -, hlines⟩ := ownLines_act hstatus
      · cases hnone d hd
        have hprinted : conclude .json target none = .ok printed := hprinted
        cases hprinted
        rw [hlines, stdout_status]
        exact .nothing hlist hnot _
      · rw [hlines]
        exact .nothing hlist hnot _

theorem shows_perform (c : Context) (hp : h.project.Consistent) (request : Request) :
    Shows h request (ownLines (perform c .json h request).pieces) (perform c .json h request).failure := by
  cases request with
  | targets onlyRun =>
      rw [perform, ownLines_targets]
      exact .targets onlyRun
  | generate =>
      refine shows_act nofun nofun (stdout_status ..) ?_
      rintro _ _ ⟨⟩
      exact stdout_status ..
  | build target =>
      have hlist : ∀ onlyRun, Request.build target ≠ .targets onlyRun := nofun
      have hrun : ∀ target' debugger, Request.build target ≠ .run target' debugger := nofun
      rw [perform, build]
      split
      · exact .nothing hlist (not_describes hrun) _
      · refine shows_act hlist hrun (stdout_status ..) ?_
        rintro _ _ ⟨⟩
        exact stdout_status ..
  | run target debugger => exact shows_run hp target debugger

theorem consistent_openProject (hopen : openProject c i = .ok h) : h.project.Consistent := by
  unfold openProject at hopen
  cases hroot : projectRoot c i.root with
  | error e =>
      rw [hroot] at hopen
      cases hopen
  | ok root =>
      rw [hroot] at hopen
      cases hopen
      have hload : (Project.load c.fs root ((Settings.layered c.fs
          [Settings.pathIn (Path.ofString c.around.home), Settings.pathIn root]).buildDir root) .unix).Consistent :=
        (Project.consistent_new ..).loadInto c.fs Path.empty
      exact ⟨hload.distinct, hload.implicit, hload.buildable, hload.placed⟩

/-- The words ask to run in debug a target that the project has, and `text` describes its program. -/
def RunsInDebug (c : Context) (args : List String) (text : String) : Prop :=
  ∃ i h, parse? c.rootVariable args = some (.invocation i) ∧ openProject c i = .ok h ∧ Describes h i.request text

/-- What a run in JSON mode prints of its own. -/
inductive Outcome (c : Context) (args : List String) : List (List Char) → Prop
  | usage (hparse : parse? c.rootVariable args = none) : Outcome c args []
  | unopened {i : Invocation} (hparse : parse? c.rootVariable args = some (.invocation i)) {e : Failure}
      (hopen : openProject c i = .error e) : Outcome c args [(Console.errorEvent e.message).compact.toList]
  | succeeded {i : Invocation} (hparse : parse? c.rootVariable args = some (.invocation i)) {h : Helm Shells}
      (hopen : openProject c i = .ok h) {lines : List (List Char)} (hshows : Shows h i.request lines none) :
      Outcome c args lines
  | failed {i : Invocation} (hparse : parse? c.rootVariable args = some (.invocation i)) {h : Helm Shells}
      (hopen : openProject c i = .ok h) {lines : List (List Char)} {e : Failure}
      (hshows : Shows h i.request lines (some e)) :
      Outcome c args (lines ++ [(Console.errorEvent e.message).compact.toList])

theorem outcome_report (hjson : jsonWord ∈ args) (hversion : parse? c.rootVariable args ≠ some .version) :
    Outcome c args (ownLines (report c args).pieces) := by
  cases hparse : parse? c.rootVariable args with
  | none =>
      have hpieces : (report c args).pieces = [] := by simp only [report, hparse]
      rw [hpieces]
      exact .usage hparse
  | some parsed =>
      cases parsed with
      | version => exact absurd hparse hversion
      | invocation i =>
          have hconsole : consoleOf c i = .json := by
            rw [consoleOf, Console.ofFlags, if_pos ((json_iff_mem hparse).2 hjson)]
          have herror (message : String) : ownLines [.own (Console.json.error message)] =
              [(Console.errorEvent message).compact.toList] := by
            rw [ownLines_own]
            exact lines_event (isJson_errorEvent message)
          have hcases := report_cases hparse
          rw [hconsole] at hcases
          obtain ⟨e, hopen, hpieces⟩ | ⟨h, hopen, hcourse⟩ := hcases
          · rw [hpieces, herror]
            exact .unopened hparse hopen
          · have hshows := shows_perform c (consistent_openProject hopen) i.request
            obtain ⟨hfailure, hpieces⟩ | ⟨e, hfailure, hpieces⟩ := hcourse
            · rw [hfailure] at hshows
              rw [hpieces]
              exact .succeeded hparse hopen hshows
            · rw [hfailure] at hshows
              rw [hpieces, ownLines_append, herror]
              exact .failed hparse hopen hshows

theorem isObject_of_mem_targetLines {onlyRun : Bool} {line : List Char} (hline : line ∈ targetLines h onlyRun) :
    IsObject line := by
  obtain ⟨t, -, rfl⟩ := List.mem_map.1 hline
  exact isObject_targetEvent t.key

theorem runsInDebug_iff {text : String} (hparse : parse? c.rootVariable args = some (.invocation i))
    (hopen : openProject c i = .ok h) : RunsInDebug c args text ↔ Describes h i.request text := by
  constructor
  · rintro ⟨i', h', hparse', hopen', hdescribes⟩
    cases hparse.symm.trans hparse'
    cases hopen.symm.trans hopen'
    exact hdescribes
  · exact fun hdescribes => ⟨i, h, hparse, hopen, hdescribes⟩

theorem Describes.unique {request : Request} {text text' : String} (hd : Describes h request text)
    (hd' : Describes h request text') : text = text' := by
  obtain ⟨-, target, debugger, t, program, rfl, hfind, hprogram, htext⟩ := hd
  obtain ⟨-, target', debugger', t', program', he, hfind', hprogram', htext'⟩ := hd'
  cases he
  cases hfind.symm.trans hfind'
  cases hprogram.symm.trans hprogram'
  exact Except.ok.inj (htext.symm.trans htext')

theorem Outcome.objects_or_descriptor {lines : List (List Char)} (ho : Outcome c args lines) :
    ((∀ line ∈ lines, IsObject line) ∧ ∀ text, ¬ RunsInDebug c args text) ∨
      ∃ text, RunsInDebug c args text ∧ lines = Text.lines (text ++ "\n").toList := by
  cases ho with
  | usage hparse =>
      refine .inl ⟨nofun, ?_⟩
      rintro text ⟨i, h, hparse', -⟩
      cases hparse.symm.trans hparse'
  | unopened hparse hopen =>
      refine .inl ⟨List.forall_mem_singleton.2 (isObject_errorEvent _), ?_⟩
      rintro text ⟨i, h, hparse', hopen', -⟩
      cases hparse.symm.trans hparse'
      cases hopen.symm.trans hopen'
  | @succeeded i hparse h hopen _ hshows =>
      simp only [runsInDebug_iff hparse hopen]
      generalize i.request = request at hshows
      cases hshows with
      | targets onlyRun =>
          exact .inl ⟨fun line hline => isObject_of_mem_targetLines hline, not_describes (by simp)⟩
      | descriptor hdescribes => exact .inr ⟨_, hdescribes, rfl⟩
      | nothing hlist hnot => exact .inl ⟨nofun, hnot⟩
  | @failed i hparse h hopen _ e hshows =>
      simp only [runsInDebug_iff hparse hopen]
      generalize i.request = request at hshows
      cases hshows with
      | nothing hlist hnot => exact .inl ⟨List.forall_mem_singleton.2 (isObject_errorEvent _), hnot⟩

theorem Outcome.lines_eq {lines : List (List Char)} {onlyRun : Bool} (ho : Outcome c args lines)
    (hparse : parse? c.rootVariable args = some (.invocation i)) (hopen : openProject c i = .ok h)
    (hrequest : i.request = .targets onlyRun) : lines = targetLines h onlyRun := by
  cases ho with
  | usage hparse' => cases hparse.symm.trans hparse'
  | unopened hparse' hopen' =>
      cases hparse.symm.trans hparse'
      cases hopen.symm.trans hopen'
  | succeeded hparse' hopen' hshows =>
      cases hparse.symm.trans hparse'
      cases hopen.symm.trans hopen'
      rw [hrequest] at hshows
      cases hshows with
      | targets => rfl
      | descriptor hdescribes => exact absurd hdescribes (not_describes (by simp) _)
      | nothing hlist => exact absurd rfl (hlist onlyRun)
  | failed hparse' hopen' hshows =>
      cases hparse.symm.trans hparse'
      cases hopen.symm.trans hopen'
      rw [hrequest] at hshows
      cases hshows with
      | nothing hlist => exact absurd rfl (hlist onlyRun)

theorem Describes.lines {request : Request} {text : String} (hd : Describes h request text) :
    (Text.lines (text ++ "\n").toList).length = 5 ∧ ['{'] ∈ Text.lines (text ++ "\n").toList ∧
      (∀ line ∈ Text.lines (text ++ "\n").toList, ¬ IsObject line) ∧ IsObject text.toList := by
  obtain ⟨-, target, debugger, t, program, -, -, -, htext⟩ := hd
  obtain ⟨program, workingDirectory, -, -, rfl⟩ := describe_eq_ok_iff.1 htext
  refine ⟨?_, ?_, fun line hline => not_isObject_of_mem_lines_spread hline, _, says_spread _ _⟩
  · rw [lines_spread]
    simp [spreadLines]
  · rw [lines_spread]
    exact List.mem_cons_self

/-- In JSON mode each line that the program prints of its own is one object, unless it describes a program for the
debugger: then none of the five is, though they are one object together. The lines of a list are one for each target, in
the order of the project, and each says the key of its target and nothing else. -/
theorem json_lines_are_objects_iff (hjson : jsonWord ∈ args) (hversion : parse? c.rootVariable args ≠ some .version) :
    Text.lines (report c args).printed.stdout.toList = (report c args).pieces.flatMap Piece.lines ∧
    ((∀ line ∈ ownLines (report c args).pieces, IsObject line) ↔ ¬ ∃ text, RunsInDebug c args text) ∧
    (∀ text, RunsInDebug c args text →
      ownLines (report c args).pieces = Text.lines (text ++ "\n").toList ∧
      (ownLines (report c args).pieces).length = 5 ∧ (∀ line ∈ ownLines (report c args).pieces, ¬ IsObject line) ∧
      IsObject text.toList) ∧
    ∀ i h onlyRun, parse? c.rootVariable args = some (.invocation i) → openProject c i = .ok h →
      i.request = .targets onlyRun →
      List.Forall₂ (fun line t => IsObject line ∧ ∀ d, Says line d → Key.ofData? d = some t.key)
        (ownLines (report c args).pieces) (h.project.targets.filter fun t => !onlyRun || t.key.kind == .run) := by
  have hended := lines_printed (isEnded_report c args)
  have houtcome := outcome_report hjson hversion
  have hdescriptor (text : String) (hruns : RunsInDebug c args text) :
      ownLines (report c args).pieces = Text.lines (text ++ "\n").toList := by
    obtain ⟨-, hnot⟩ | ⟨text', hruns', hlines⟩ := houtcome.objects_or_descriptor
    · exact absurd hruns (hnot text)
    · obtain ⟨i, h, hparse, hopen, hdescribes⟩ := hruns
      rw [hlines, ((runsInDebug_iff hparse hopen).1 hruns').unique hdescribes]
  refine ⟨hended, ⟨?_, fun hnot => ?_⟩, fun text hruns => ?_, fun i h onlyRun hparse hopen hrequest => ?_⟩
  · rintro hobjects ⟨text, hruns⟩
    have hlines := hdescriptor text hruns
    obtain ⟨i, h, -, -, hdescribes⟩ := hruns
    obtain ⟨-, hmem, hnone, -⟩ := hdescribes.lines
    rw [hlines] at hobjects
    exact hnone _ hmem (hobjects _ hmem)
  · obtain ⟨hobjects, -⟩ | ⟨text, hruns, -⟩ := houtcome.objects_or_descriptor
    · exact hobjects
    · exact absurd ⟨text, hruns⟩ hnot
  · have hlines := hdescriptor text hruns
    obtain ⟨i, h, -, -, hdescribes⟩ := hruns
    obtain ⟨hlength, -, hnone, hobject⟩ := hdescribes.lines
    rw [hlines]
    exact ⟨rfl, hlength, hnone, hobject⟩
  · rw [houtcome.lines_eq hparse hopen hrequest, targetLines, List.forall₂_map_left_iff, List.forall₂_same]
    intro t ht
    refine ⟨isObject_targetEvent t.key, fun d hd => ?_⟩
    rw [(says_compact_iff (isJson_targetEvent t.key)).1 hd, ofData?_targetEvent]

def inside : Context where
  fs := { Project.alone Project.declaring with workDir := ["p".toList] }
  around := ⟨"", ""⟩

theorem openProject_inside (i : Invocation) (hroot : i.root = none) (hrelease : i.release = false) :
    ∃ h, openProject inside i = .ok h ∧ h.configuration = .debug ∧
      h.project.keys = [⟨"all", .build⟩, ⟨"clean", .build⟩, ⟨"app", .build⟩, ⟨"app", .run⟩] ∧
        h.project.buildDir = Path.ofString "/p/build" ∧ ∀ t ∈ h.project.targets, t.subdir = Path.empty := by
  have hfound : projectRoot inside none = .ok (Path.ofString "/p") := by cbv
  have hsettings : Settings.layered inside.fs
      [Settings.pathIn (Path.ofString inside.around.home), Settings.pathIn (Path.ofString "/p")] = {} := by cbv
  unfold openProject
  rw [hroot, hfound]
  dsimp only [bind, Except.bind, pure, Except.pure]
  rw [hsettings, hrelease]
  refine ⟨_, rfl, rfl, ?_⟩
  have hload : Project.load inside.fs (Path.ofString "/p") (({} : Settings).buildDir (Path.ofString "/p")) .unix = _ :=
    Project.load_declaring ["p".toList] _
  simp only [Helm.ofSettings, hload]
  decide +kernel

theorem listed_as_json :
    let shown := ownLines (report inside ["targets", jsonWord]).pieces
    (∀ line ∈ shown, IsObject line) ∧
      List.Forall₂ (fun line k => ∀ d, Says line d → Key.ofData? d = some k) shown
        [⟨"all", .build⟩, ⟨"clean", .build⟩, ⟨"app", .build⟩, ⟨"app", .run⟩] := by
  intro shown
  have hparse : parse? inside.rootVariable ["targets", jsonWord] =
      some (.invocation { request := .targets false, json := true }) := by decide +kernel
  obtain ⟨h, hopen, -, hkeys, -⟩ := openProject_inside { request := .targets false, json := true } rfl rfl
  have hversion : parse? inside.rootVariable ["targets", jsonWord] ≠ some .version := by simp [hparse]
  obtain ⟨-, hobjects, -, hlist⟩ := json_lines_are_objects_iff (by simp) hversion
  have hlines := hlist _ h false hparse hopen rfl
  refine ⟨hobjects.2 ?_, ?_⟩
  · rintro ⟨text, hruns⟩
    exact not_describes (by simp) text ((runsInDebug_iff hparse hopen).1 hruns)
  · rw [← hkeys, Project.keys, List.forall₂_map_right_iff]
    simp only [Bool.not_false, Bool.true_or, List.filter_true] at hlines
    exact hlines.imp fun _ _ hline => hline.2

theorem descriptor_breaks_lines :
    let args := [jsonWord, "run", "--target", "app"]
    jsonWord ∈ args ∧ parse? inside.rootVariable args ≠ some .version ∧
      ∃ line ∈ ownLines (report inside args).pieces, line = ['{'] ∧ ¬ IsObject line := by
  intro args
  have hparse : parse? inside.rootVariable args = some (.invocation { request := .run "app" none, json := true }) := by
    decide +kernel
  have hjson : jsonWord ∈ args := List.mem_cons_self
  have hversion : parse? inside.rootVariable args ≠ some .version := by simp [hparse]
  obtain ⟨h, hopen, hdebug, hkeys, hbuild, hsubdir⟩ :=
    openProject_inside { request := .run "app" none, json := true } rfl rfl
  obtain ⟨text, hdescribes⟩ := exists_describes (consistent_openProject hopen) hdebug
    (by simp [hkeys] : ⟨"app", .run⟩ ∈ h.project.keys) none ⟨_, hbuild⟩ fun t ht => ⟨"", hsubdir t ht⟩
  obtain ⟨-, hmem, hnone, -⟩ := hdescribes.lines
  obtain ⟨-, hnot⟩ | ⟨text', hruns, hlines⟩ := (outcome_report hjson hversion).objects_or_descriptor
  · exact absurd ((runsInDebug_iff hparse hopen).2 hdescribes) (hnot text)
  · rw [((runsInDebug_iff hparse hopen).1 hruns).unique hdescribes] at hlines
    exact ⟨hjson, hversion, ['{'], hlines ▸ hmem, rfl, hnone _ hmem⟩

end CMakeHelm.Cli
