import Mathlib.Data.List.Permutation
import DispatchTree.Command.Run
import DispatchTree.Proofs.Files.Build
import DispatchTree.Proofs.Linking
import DispatchTree.Proofs.Report.Width
import DispatchTree.Proofs.Settings.Variables

/-!
# A journal that is off

Unless the command line asks for the journal, its level is off, and nothing is ever written to it. Its settings are looked at all
the same: a format or an output that does not exist ends the run, and the file of a journal is created. After that the settings are
loaded once more, and the run is the plain outcome of the command (`Arguments.run_eq`). So runs in environments that differ in
variables about the journal only come to the same, if their journal settings do (`off_journal_unnoticed`).

Settings are gone through in orders that no one controls. Runs come to the same if whatever one run can come to, the other can.
-/

namespace DispatchTree

/-! ## Nothing passes -/

/-- A filter without a threshold lets nothing pass. -/
theorem Filter.passes_uniform_none (o : Occurrence) : (Filter.uniform none).passes o = false := by
  have hthreshold : ∀ about, (Filter.uniform none).thresholdBy about = none := by
    intro about
    unfold thresholdBy uniform
    cases habout : about ⟨none, none, [], none⟩ <;> simp [habout, prefer]
  have hwithin : ∀ l s, (Filter.uniform none).passesWithin l s = false := fun _ _ => rfl
  rw [passes, threshold, hthreshold]
  simp [hwithin, Threshold.passes]

/-- A logger that writes nothing. -/
def Logger.IsOff (l : Logger) : Prop := l.filter = Filter.uniform none

/-- A logger that is off notes nothing. -/
theorem Console.note_of_isOff {l : Logger} (hl : l.IsOff) (c : Console) (time : String) (o : Occurrence) : c.note time l o = c := by
  rw [note, hl, Filter.passes_uniform_none, if_neg Bool.false_ne_true]

/-- A logger that is off notes nothing of all that happens. -/
theorem Console.noteAll_of_isOff {l : Logger} (hl : l.IsOff) (c : Console) (time : String) (os : List Occurrence) :
    c.noteAll time l os = c := by
  unfold noteAll
  induction os with
  | nil => rfl
  | cons o os ih => rw [List.foldl_cons, note_of_isOff hl, ih]

/-! ## What becomes of journal settings -/

/-- What becomes of the settings of a journal that is off. -/
inductive Verdict where
  | refused (fault : JournalFault)
  | console
  | file (path : String)
  deriving DecidableEq

/-- The verdict on journal settings. The format is looked at first. -/
def JournalSettings.verdict (s : JournalSettings) : Verdict :=
  if s.format ≠ "json" ∧ s.format ≠ "text" then .refused (.format s.format)
  else if s.output = "stdout" ∨ s.output = "stderr" then .console
  else if s.output = "file" then .file s.file
  else .refused (.output s.output)

/-- What comes of a verdict: the file of a journal is created. -/
def Verdict.prepare (disk : Disk) : Verdict → Except JournalFault Unit × Disk
  | .refused f => (.error f, disk)
  | .console => (.ok (), disk)
  | .file path => Logger.prepare disk (.file path)

/-- An environment without variables that are looked at before the journal settings. -/
def Environment.LeavesJournal (env : Environment) : Prop :=
  ∀ name ∈ ["TAPELINK_LOG", "TAPELINK_LOG_FORMAT", "TAPELINK_LOG_OUTPUT"], env.get? name = none

instance (env : Environment) : Decidable env.LeavesJournal := inferInstanceAs (Decidable (∀ name ∈ _, _))

namespace Logger

/-- There are two formats. -/
theorem formatOf?_eq (t : String) :
    formatOf? t = if t = "json" then some true else if t = "text" then some false else none := by
  unfold formatOf?
  split
  · rfl
  · rfl
  · rename_i hjson htext
    rw [if_neg hjson, if_neg htext]

section

variable {s : JournalSettings} {env : Environment} (henv : env.LeavesJournal)

include henv

/-- Nothing passes if the level is off. -/
theorem chooseFilter_eq (order : PartOrder) (hlevel : s.level = "off") :
    chooseFilter order s env = (.ok (Filter.uniform none), []) := by
  have hvariable : env.get? "TAPELINK_LOG" = none := henv _ (by decide)
  simp only [chooseFilter, environmentFilter?, hvariable, Option.bind_none, settingsFilter, if_pos hlevel]

/-- The format is that of the settings, if there is such a format. -/
theorem chooseFormat_eq :
    chooseFormat s env = if s.format ≠ "json" ∧ s.format ≠ "text" then .error (.format s.format) else .ok (s.format == "json") := by
  have hvariable : env.get? "TAPELINK_LOG_FORMAT" = none := henv _ (by decide)
  rw [chooseFormat, hvariable, Option.bind_none, Option.none_or, formatOf?_eq]
  by_cases hjson : s.format = "json"
  · simp [hjson]
  · by_cases htext : s.format = "text" <;> simp [hjson, htext]

/-- The lines go where the settings say, if there is such an output. -/
theorem chooseDestination_eq : chooseDestination s env =
    if s.output = "stdout" then .ok .stdout else if s.output = "stderr" then .ok .stderr
    else if s.output = "file" then .ok (.file s.file) else .error (.output s.output) := by
  have hvariable : env.get? "TAPELINK_LOG_OUTPUT" = none := henv _ (by decide)
  simp only [chooseDestination, hvariable, Option.getD_none]
  split <;> simp_all

/-- What comes of the format and the output is what comes of the verdict. -/
theorem prepare_withFilter (filter : Filter) (disk : Disk) :
    match withFilter s env filter with
    | .error f => s.verdict.prepare disk = (.error f, disk)
    | .ok l => l.filter = filter ∧ s.verdict.prepare disk = prepare disk l.destination := by
  rw [withFilter, chooseFormat_eq henv, chooseDestination_eq henv]
  unfold JournalSettings.verdict
  by_cases hformat : s.format ≠ "json" ∧ s.format ≠ "text"
  · rw [if_pos hformat, if_pos hformat]
    rfl
  rw [if_neg hformat, if_neg hformat]
  by_cases hstdout : s.output = "stdout"
  · rw [if_pos hstdout, if_pos (.inl hstdout)]
    exact ⟨rfl, rfl⟩
  by_cases hstderr : s.output = "stderr"
  · rw [if_neg hstdout, if_pos hstderr, if_pos (.inr hstderr)]
    exact ⟨rfl, rfl⟩
  rw [if_neg hstdout, if_neg hstderr, if_neg (not_or.2 ⟨hstdout, hstderr⟩)]
  by_cases hfile : s.output = "file"
  · rw [if_pos hfile, if_pos hfile]
    exact ⟨rfl, rfl⟩
  · rw [if_neg hfile, if_neg hfile]
    rfl

/-- Setting up a journal whose level is off comes to the verdict on its settings. -/
theorem exists_setUp_eq (order : PartOrder) (hlevel : s.level = "off") (disk : Disk) :
    ∃ l, l.IsOff ∧ setUp order s env disk = ⟨(s.verdict.prepare disk).1.map fun _ => l, [], (s.verdict.prepare disk).2⟩ := by
  have hprepare := prepare_withFilter henv (s := s) (Filter.uniform none) disk
  cases hlogger : withFilter s env (Filter.uniform none) with
  | error f =>
    rw [hlogger] at hprepare
    refine ⟨⟨Filter.uniform none, .json, .stdout⟩, rfl, ?_⟩
    simp only [setUp, chooseFilter_eq henv order hlevel, Except.bind, hlogger, hprepare, Except.map]
  | ok l =>
    rw [hlogger] at hprepare
    refine ⟨l, hprepare.1, ?_⟩
    simp only [setUp, chooseFilter_eq henv order hlevel, Except.bind, hlogger, hprepare.2]

end

end Logger

/-! ## Runs without a journal -/

namespace Arguments

/-- A command line that does not ask for the journal. -/
structure JournalOff (a : Arguments) : Prop where
  verbose : a.verbose = false
  level : a.logLevel = none
  format : a.logFormat = none
  output : a.logOutput = none
  file : a.logFile = none

section

variable (a : Arguments)

/-- What loading the settings comes to for a command line. -/
def loaded (lib : Settings.Library) (orders : Settings.Orders) (env : Environment) (disk : Disk) : Except SettingsFault Settings :=
  (Settings.loadFor lib orders env disk a.workspace a.config).1

/-- The run that prints what came of a command, and nothing else. -/
def outcome (disk : Disk) : Except SettingsFault Settings → RunResult
  | .error (.place f) => (Console.printError ⟨"", "", disk⟩ f.message).exitWith 101
  | .error f => (Console.printError ⟨"", "", disk⟩ (CommandFault.settings f).advice).exitWith 1
  | .ok s =>
    let e := a.command.execute s a.workspace disk
    match e.result with
    | .ok text => (Console.print ⟨"", "", e.disk⟩ text).exitWith 0
    | .error (.report f) => (Console.printError ⟨"", "", e.disk⟩ f.message).exitWith 101
    | .error f => (Console.printError ⟨"", "", e.disk⟩ f.advice).exitWith 1

/-- The verdict on what was loaded for the journal. Without settings the journal is printed. -/
def verdictOn : Except SettingsFault Settings → Verdict
  | .ok s => s.journal.verdict
  | .error _ => .console

/-- The disk with which a run goes on after what was loaded for the journal, or the run that ends there. -/
def start (disk : Disk) (loaded : Except SettingsFault Settings) : Except RunResult Disk :=
  match loaded with
  | .error (.place f) => .error ((Console.printError ⟨"", "", disk⟩ f.message).exitWith 101)
  | loaded =>
    match (verdictOn loaded).prepare disk with
    | (.ok (), disk) => .ok disk
    | (.error f, disk) =>
      .error ((Console.printError ⟨"", "", disk⟩ ("Failed to initialize logging: " ++ FaultSource.settings.text f.message)).exitWith 1)

/-- A run goes on after settings that were loaded as the verdict on the journal says. -/
theorem start_ok (disk : Disk) (s : Settings) :
    start disk (.ok s) = match s.journal.verdict.prepare disk with
      | (.ok (), disk) => .ok disk
      | (.error f, disk) => .error
        ((Console.printError ⟨"", "", disk⟩ ("Failed to initialize logging: " ++ FaultSource.settings.text f.message)).exitWith 1) := rfl

end

/-- A command uses the width and the root only. -/
theorem outcome_congr (a : Arguments) (disk : Disk) (w : UInt16) (r : String) (j j' : JournalSettings) :
    a.outcome disk (.ok ⟨w, r, j⟩) = a.outcome disk (.ok ⟨w, r, j'⟩) := by
  have hdisplay : (⟨w, r, j⟩ : Settings).display = (⟨w, r, j'⟩ : Settings).display := rfl
  have hroot : (⟨w, r, j⟩ : Settings).resolveRoot = (⟨w, r, j'⟩ : Settings).resolveRoot := rfl
  have hwith : a.command.executeWith ⟨w, r, j⟩ a.workspace disk = a.command.executeWith ⟨w, r, j'⟩ a.workspace disk := by
    funext m
    unfold Command.executeWith Command.executeBuild Command.executePlan
    rw [hdisplay, hroot]
  have hexecute : a.command.execute ⟨w, r, j⟩ a.workspace disk = a.command.execute ⟨w, r, j'⟩ a.workspace disk := by
    unfold Command.execute
    rw [hwith]
  rw [outcome, outcome, hexecute]

/-- A run with a logger that is off is the plain outcome of the command. -/
theorem runWith_of_isOff {l : Logger} (hl : l.IsOff) (a : Arguments) (lib : Settings.Library) (orders : Settings.Orders) (time : String)
    (env : Environment) (disk : Disk) :
    a.runWith lib orders time l env ⟨"", "", disk⟩ = a.outcome disk (a.loaded lib orders env disk) := by
  simp only [runWith, Console.note_of_isOff hl, Console.noteAll_of_isOff hl, loaded]
  rcases Settings.loadFor lib orders env disk a.workspace a.config with ⟨f | s, events⟩
  · cases f <;> rfl
  · rfl

section

variable {a : Arguments} (ha : a.JournalOff) {lib : Settings.Library} {env : Environment} {disk : Disk}

include ha

/-- The journal settings of a run are those that were loaded, if any, with the level off. -/
theorem journalSettings_eq (lib : Settings.Library) (orders : Settings.Orders) (env : Environment) (disk : Disk) :
    a.journalSettings lib orders env disk = match a.loaded lib orders env disk with
      | .ok s => .ok { s.journal with level := "off" }
      | .error (.place f) => .error f
      | .error _ => .ok { JournalSettings.standard with level := "off" } := by
  unfold journalSettings loaded
  rw [ha.verbose, ha.level, ha.format, ha.output, ha.file]
  rcases (Settings.loadFor lib orders env disk a.workspace a.config).1 with f | s
  · cases f <;> rfl
  · rfl

/-- A run whose journal is off: what is loaded for the journal may end it, and otherwise it is the plain outcome of the command. -/
theorem run_eq (henv : env.LeavesJournal) (orders : RunOrders) (time : String) :
    a.run lib orders time env disk = match start disk (a.loaded lib orders.journal env disk) with
      | .error result => result
      | .ok disk => a.outcome disk (a.loaded lib orders.command env disk) := by
  have hrun : ∀ j : JournalSettings, a.journalSettings lib orders.journal env disk = .ok j → j.level = "off" →
      a.run lib orders time env disk = match j.verdict.prepare disk with
        | (.ok (), disk) => a.outcome disk (a.loaded lib orders.command env disk)
        | (.error f, disk) =>
          (Console.printError ⟨"", "", disk⟩ ("Failed to initialize logging: " ++ FaultSource.settings.text f.message)).exitWith 1 := by
    intro j hj hlevel
    obtain ⟨l, hl, hsetup⟩ := Logger.exists_setUp_eq henv orders.parts hlevel disk
    rw [run, hj]
    simp only [hsetup, List.foldl_nil]
    rcases j.verdict.prepare disk with ⟨f | ⟨⟩, disk'⟩
    · rfl
    · simp only [Except.map, runWith_of_isOff hl]
  have hjournal := journalSettings_eq ha lib orders.journal env disk
  cases hloaded : a.loaded lib orders.journal env disk with
  | ok s =>
    rw [hloaded] at hjournal
    have hverdict : { s.journal with level := "off" }.verdict = s.journal.verdict := rfl
    rw [hrun _ hjournal rfl, start_ok, hverdict]
    rcases s.journal.verdict.prepare disk with ⟨f | ⟨⟩, disk'⟩ <;> rfl
  | error f =>
    rw [hloaded] at hjournal
    cases f with
    | place f => rw [run, hjournal, start]
    | _ => exact hrun _ hjournal rfl

end

/-! ## Runs that come to the same -/

/-- Results of loading that differ in the journal settings only. -/
inductive SameOutcome : Except SettingsFault Settings → Except SettingsFault Settings → Prop
  | failed (f : SettingsFault) : SameOutcome (.error f) (.error f)
  | loaded (w : UInt16) (r : String) (j j' : JournalSettings) : SameOutcome (.ok ⟨w, r, j⟩) (.ok ⟨w, r, j'⟩)

/-- Results of loading are the same but for the journal settings, if all values of the first are of their kinds. -/
theorem SameOutcome.of_sameRest {j j' : JournalSettings} {r r' : Except SettingsFault Settings} (h : Settings.SameRest j j' r r')
    (hread : ∀ text, r ≠ .error (.unreadable text)) : SameOutcome r r' := by
  cases h with
  | loaded w r => exact .loaded w r j j'
  | invalid faults => exact .failed _
  | unreadable text text' => exact absurd rfl (hread text)

/-- The outcome of a command does not depend on the journal settings. -/
theorem SameOutcome.outcome {r r' : Except SettingsFault Settings} (h : SameOutcome r r') (a : Arguments) (disk : Disk) :
    a.outcome disk r = a.outcome disk r' := by
  cases h with
  | failed f => rfl
  | loaded w r j j' => exact outcome_congr a disk w r j j'

/-- A run goes on after results that differ in the journal settings only as the verdicts say. -/
theorem SameOutcome.start {r r' : Except SettingsFault Settings} (h : SameOutcome r r') {v : Verdict}
    (hv : ∀ s, r = .ok s → s.journal.verdict = v) (hv' : ∀ s, r' = .ok s → s.journal.verdict = v) (disk : Disk) :
    Arguments.start disk r = Arguments.start disk r' := by
  cases h with
  | failed f => rfl
  | loaded w r j j' =>
    have hj : j.verdict = v := hv _ rfl
    have hj' : j'.verdict = v := hv' _ rfl
    rw [start_ok, start_ok, hj, hj']

section

variable (a : Arguments) (lib : Settings.Library) (env env' : Environment)

/-- Environments in which loading the settings comes to the same for the journal. -/
inductive LoadsAlike (disk : Disk) : Prop
  /-- The settings cannot be loaded, and the reasons that may be given are the same. -/
  | failed (h : ∀ orders, ∃ orders' f, a.loaded lib orders env disk = .error f ∧ a.loaded lib orders' env' disk = .error f)
      (h' : ∀ orders', ∃ orders f, a.loaded lib orders env disk = .error f ∧ a.loaded lib orders' env' disk = .error f)
  /-- The journal settings can be read in every order. If another setting is not of its kind, the words for it may be the same. -/
  | taken (h : ∀ orders, (Settings.journalFor? lib orders env disk a.workspace a.config).isSome)
      (h' : ∀ orders', (Settings.journalFor? lib orders' env' disk a.workspace a.config).isSome)
      (hread : ∀ orders text, a.loaded lib orders env disk = .error (.unreadable text) →
        ∃ orders', a.loaded lib orders' env' disk = .error (.unreadable text))
      (hread' : ∀ orders' text, a.loaded lib orders' env' disk = .error (.unreadable text) →
        ∃ orders, a.loaded lib orders env disk = .error (.unreadable text))

/-- Environments in which a run makes the same of its journal settings. -/
structure JournalAlike (disk : Disk) : Prop where
  loads : LoadsAlike a lib env env' disk
  /-- All journal settings that may be loaded are in order, or refused for the same reason, or ask for the same file. A file that is
  created for the journal does not change this. -/
  verdict : ∃ v : Verdict, (∀ orders s, a.loaded lib orders env disk = .ok s → s.journal.verdict = v) ∧
    (∀ orders' s, a.loaded lib orders' env' disk = .ok s → s.journal.verdict = v) ∧
    ∀ path disk', v = .file path → Logger.prepare disk (.file path) = (.ok (), disk') → LoadsAlike a lib env env' disk'

end

section

variable {a : Arguments} {lib : Settings.Library} {env env' : Environment} {disk : Disk}

/-- Loading alike does not depend on which environment comes first. -/
theorem LoadsAlike.symm (h : a.LoadsAlike lib env env' disk) : a.LoadsAlike lib env' env disk := by
  cases h with
  | failed h h' =>
    refine .failed (fun orders' => ?_) fun orders => ?_
    · obtain ⟨orders, f, hf, hf'⟩ := h' orders'
      exact ⟨orders, f, hf', hf⟩
    · obtain ⟨orders', f, hf, hf'⟩ := h orders
      exact ⟨orders', f, hf', hf⟩
  | taken h h' hread hread' => exact .taken h' h hread' hread

/-- What loading can come to in one environment, it can come to in the other, but for the journal settings. -/
theorem LoadsAlike.exists_sameOutcome (h : a.LoadsAlike lib env env' disk) (hsame : env.SameButJournal env') (orders : Settings.Orders) :
    ∃ orders', SameOutcome (a.loaded lib orders env disk) (a.loaded lib orders' env' disk) := by
  cases h with
  | failed h _ =>
    obtain ⟨orders', f, hf, hf'⟩ := h orders
    exact ⟨orders', hf ▸ hf' ▸ .failed f⟩
  | taken h h' hread _ =>
    -- the words for a value that is not of its kind are the library's, and nothing else depends on the journal settings
    by_cases hunreadable : ∃ text, a.loaded lib orders env disk = .error (.unreadable text)
    · obtain ⟨text, htext⟩ := hunreadable
      obtain ⟨orders', htext'⟩ := hread orders text htext
      exact ⟨orders', htext ▸ htext' ▸ .failed _⟩
    · obtain ⟨orders', hrest⟩ := hsame.exists_orders orders
      obtain ⟨j, hj⟩ := Option.isSome_iff_exists.1 (h orders)
      obtain ⟨j', hj'⟩ := Option.isSome_iff_exists.1 (h' orders')
      exact ⟨orders', .of_sameRest (hrest lib disk a.workspace a.config j j' hj hj') (not_exists.1 hunreadable)⟩

/-- Making the same of the journal settings does not depend on which environment comes first. -/
theorem JournalAlike.symm (h : a.JournalAlike lib env env' disk) : a.JournalAlike lib env' env disk := by
  obtain ⟨v, hv, hv', hfile⟩ := h.verdict
  exact ⟨h.loads.symm, v, hv', hv, fun path disk' hpath hprepare => (hfile path disk' hpath hprepare).symm⟩

/-- A run goes on with a disk on which the settings are loaded alike. -/
theorem JournalAlike.loads_of_start (h : a.JournalAlike lib env env' disk) {orders : Settings.Orders} {disk' : Disk}
    (hstart : start disk (a.loaded lib orders env disk) = .ok disk') : a.LoadsAlike lib env env' disk' := by
  obtain ⟨v, hv, -, hfile⟩ := h.verdict
  cases hloaded : a.loaded lib orders env disk with
  | error f =>
    rw [hloaded] at hstart
    cases f with
    | place f => cases hstart
    | _ =>
      cases hstart
      exact h.loads
  | ok s =>
    have hverdict := hv orders s hloaded
    rw [hloaded, start_ok, hverdict] at hstart
    cases v with
    | refused f => cases hstart
    | console =>
      cases hstart
      exact h.loads
    | file path =>
      refine hfile path disk' rfl ?_
      simp only [Verdict.prepare] at hstart
      rcases hprepare : Logger.prepare disk (.file path) with ⟨f | ⟨⟩, prepared⟩
      · rw [hprepare] at hstart
        cases hstart
      · rw [hprepare] at hstart
        cases hstart
        rfl

/-- Runs are the same if they go on alike after what is loaded for the journal, and then load the same but for the journal settings.
-/
theorem run_congr (ha : a.JournalOff) (henv : env.LeavesJournal) (henv' : env'.LeavesJournal)
    {journal journal' command command' : Settings.Orders}
    (hjournal : start disk (a.loaded lib journal env disk) = start disk (a.loaded lib journal' env' disk))
    (hcommand : ∀ disk', start disk (a.loaded lib journal env disk) = .ok disk' →
      SameOutcome (a.loaded lib command env disk') (a.loaded lib command' env' disk')) (parts parts' : PartOrder) (time time' : String) :
    a.run lib ⟨journal, parts, command⟩ time env disk = a.run lib ⟨journal', parts', command'⟩ time' env' disk := by
  rw [run_eq ha henv, run_eq ha henv', ← hjournal]
  cases hstart : start disk (a.loaded lib journal env disk) with
  | error result => rfl
  | ok disk' => exact (hcommand disk' hstart).outcome a disk'

/-- What a run can come to in one environment, it can come to in the other. The orders are chosen one after the other, since the disk
depends on what is loaded for the journal. -/
theorem JournalAlike.exists_run_eq (h : a.JournalAlike lib env env' disk) (ha : a.JournalOff) (henv : env.LeavesJournal)
    (henv' : env'.LeavesJournal) (hsame : env.SameButJournal env') (time time' : String) (orders : RunOrders) :
    ∃ orders', a.run lib orders time env disk = a.run lib orders' time' env' disk := by
  obtain ⟨journal, parts, command⟩ := orders
  obtain ⟨v, hv, hv', -⟩ := h.verdict
  obtain ⟨journal', hjournal⟩ := h.loads.exists_sameOutcome hsame journal
  have hstart := hjournal.start (hv journal) (hv' journal') disk
  obtain ⟨command', hcommand⟩ : ∃ command', ∀ disk', start disk (a.loaded lib journal env disk) = .ok disk' →
      SameOutcome (a.loaded lib command env disk') (a.loaded lib command' env' disk') := by
    cases hresult : start disk (a.loaded lib journal env disk) with
    | error result => exact ⟨.listed, nofun⟩
    | ok disk' =>
      obtain ⟨command', hcommand⟩ := (h.loads_of_start hresult).exists_sameOutcome hsame command
      exact ⟨command', fun _ heq => Except.ok.inj heq ▸ hcommand⟩
  exact ⟨_, run_congr ha henv henv' hstart hcommand parts .listed time time'⟩

end

end Arguments

/-- Environments that differ in variables about the journal only leave the journal alike to its settings. -/
theorem Environment.SameButJournal.leavesJournal {env env' : Environment} (h : env.SameButJournal env') (henv : env.LeavesJournal) :
    env'.LeavesJournal := by
  intro name hname
  have hlooked : name ∈ lookedUp := List.mem_of_mem_drop (i := 3) hname
  rw [← h.get? hlooked]
  exact henv name hname

/-- A time. -/
def noon : String := "2025-01-01T12:00:00.000000Z"

/-- Another time. -/
def midnight : String := "2025-01-02T00:00:00.000000Z"

/-- A command line that asks for a plan and nothing else. -/
def planArguments : Arguments := ⟨.plan none .text, ".", none, false, none, none, none, none⟩

/-- The command asks for no journal. -/
theorem journalOff_plan : planArguments.JournalOff := ⟨rfl, rfl, rfl, rfl, rfl⟩

/-- A disk without anything. -/
def emptyDisk : Disk := .workingIn []

/-- The disk with the file of a journal. -/
def journalDisk : Disk := (Logger.prepare emptyDisk (.file "tapelink.log")).2

/-- An environment that sets the width, and asks for a journal in a file. -/
def quietEnv : Environment := ⟨[("TAPELINK__RENDER__WIDTH", "80"), ("TAPELINK__LOGGING__OUTPUT", "file")]⟩

/-- An environment that sets the width, and asks for a journal of everything in a file. -/
def loudEnv : Environment :=
  ⟨[("TAPELINK__LOGGING__LEVEL", "trace"), ("TAPELINK__RENDER__WIDTH", "80"), ("tapelink__logging__output", "file")]⟩

/-- The settings of an environment that asks for a journal in a file. -/
def journalSettingsWith (level : String) : Settings := ⟨80, "src", { JournalSettings.standard with level := level, output := "file" }⟩

/-- Whether an environment is all that settings are loaded from, and they are loaded in every order. -/
def LoadsAlways (env : Environment) (disk : Disk) (s : Settings) : Prop :=
  (Settings.workspaceFiles env ".").filter (fun file => disk.pathExists file.2) = [] ∧
    ∀ source ∈ env.source.permutations', Settings.ofSources "" [.ok source] = .ok s

instance (env : Environment) (disk : Disk) (s : Settings) : Decidable (LoadsAlways env disk s) := inferInstanceAs (Decidable (_ ∧ _))

section

variable {env : Environment} {disk : Disk} {s : Settings} (h : LoadsAlways env disk s) {a : Arguments} (hworkspace : a.workspace = ".")
  (hconfig : a.config = none) (lib : Settings.Library) (orders : Settings.Orders)

include h hworkspace hconfig

/-- The settings of an environment, which are loaded in every order. -/
theorem LoadsAlways.loaded : a.loaded lib orders env disk = .ok s := by
  obtain ⟨misfit, hload⟩ := Settings.exists_loadFor_eq lib orders disk a.workspace a.config env
  rw [Arguments.loaded, hload, hworkspace, hconfig, Settings.sourcesFor, Settings.filesFor, Settings.presentLayers, h.1]
  exact Settings.ofSources_of_ofSources
    (h.2 _ (List.mem_permutations'.2 (Settings.perm_source (orders.source .variables) env.plain_source)))

/-- The journal section can be read by itself. -/
theorem LoadsAlways.isSome_journalFor? : (Settings.journalFor? lib orders env disk a.workspace a.config).isSome := by
  have hloaded := h.loaded hworkspace hconfig lib orders
  obtain ⟨misfit, hload⟩ := Settings.exists_loadFor_eq lib orders disk a.workspace a.config env
  rw [Arguments.loaded, hload] at hloaded
  rw [Settings.journalFor?, Settings.journalIn?_of_ok hloaded]
  rfl

end

/-- What is read from the two environments. It is stated at once, so that everything is evaluated once. -/
theorem evaluated_loud :
    Arguments.parse ["plan"] = .ok planArguments ∧ quietEnv.SameButJournal loudEnv ∧
      (LoadsAlways quietEnv emptyDisk (journalSettingsWith "info") ∧ LoadsAlways loudEnv emptyDisk (journalSettingsWith "trace")) ∧
      LoadsAlways quietEnv journalDisk (journalSettingsWith "info") ∧ LoadsAlways loudEnv journalDisk (journalSettingsWith "trace") := by
  decide +kernel

/-- Environments in which settings are loaded in every order load alike. -/
theorem LoadsAlways.alike {env env' : Environment} {disk : Disk} {s s' : Settings} (h : LoadsAlways env disk s)
    (h' : LoadsAlways env' disk s') (lib : Settings.Library) : planArguments.LoadsAlike lib env env' disk := by
  refine .taken (h.isSome_journalFor? rfl rfl lib) (h'.isSome_journalFor? rfl rfl lib) (fun orders text hf => ?_)
    fun orders' text hf => ?_
  · cases (h.loaded rfl rfl lib orders).symm.trans hf
  · cases (h'.loaded rfl rfl lib orders').symm.trans hf

/-- A machine with short states can be planned at every width but zero, and the disk stays as it is. -/
theorem Command.exists_executePlan {s : Settings} (hs : 0 < s.display.columns) (format : PlanFormat) (disk : Disk) {m : Machine}
    (hm : Report.stateWidth m.graph ≤ Report.maxWidth) :
    ∃ text, (executePlan s format disk m).result = .ok text ∧ (executePlan s format disk m).disk = disk := by
  obtain ⟨fingerprint, hfingerprint⟩ := Graph.exists_fingerprint hs m.graph
  obtain ⟨plan, hplan⟩ := m.exists_plan_eq
  rw [← Machine.graph_of_plan hplan] at hm hfingerprint
  obtain ⟨text, htext⟩ : ∃ text, planReport format plan fingerprint = .ok text := by
    cases format with
    | text => exact ⟨_, Report.planText_of_le fingerprint hm⟩
    | json => exact ⟨_, rfl⟩
  refine ⟨text, ?_⟩
  simp only [executePlan, hplan, hfingerprint, htext, mapError_ok, and_self]

/-- Once the machine is chosen, a command ends as it does with that machine. -/
theorem Command.execute_of_machine {c : Command} {disk : Disk} {workspace : String} {m : Machine} {os : List Occurrence}
    (h : chooseMachine disk workspace c.machinePath? = (.ok m, os)) (s : Settings) :
    (c.execute s workspace disk).result = (c.executeWith s workspace disk m).result ∧
      (c.execute s workspace disk).disk = (c.executeWith s workspace disk m).disk := by
  unfold execute
  rw [h]
  exact ⟨rfl, rfl⟩

/-- The bundled machine is planned without fault. -/
theorem Arguments.exists_outcome_plan {a : Arguments} {format : PlanFormat} (ha : a.command = .plan none format) (disk : Disk)
    {s : Settings} (hs : 0 < s.display.columns) :
    ∃ text, a.outcome disk (.ok s) = (Console.print ⟨"", "", disk⟩ text).exitWith 0 := by
  have hmachine : Command.chooseMachine disk a.workspace (Command.plan none format).machinePath? =
      (.ok Primality.machine, [Event.bundledMachine.alone]) := rfl
  obtain ⟨hresult, hdisk⟩ := Command.execute_of_machine hmachine s
  obtain ⟨text, htext, hkept⟩ := Command.exists_executePlan hs format disk Primality.stateWidth_machine_le
  refine ⟨text, ?_⟩
  rw [outcome, ha]
  simp only [hresult, hdisk, Command.executeWith, htext, hkept]

/-- An environment without variables. -/
def bareEnv : Environment := ⟨[]⟩

/-- An environment without variables leaves the journal to the settings. -/
theorem leavesJournal_bare : bareEnv.LeavesJournal := fun _ _ => rfl

/-- Without variables: what is asked for, which settings are loaded, and that there is no journal yet. -/
theorem evaluated_bare :
    Arguments.parse ["plan"] = .ok planArguments ∧ planArguments.loaded .standard .listed bareEnv emptyDisk = .ok .standard ∧
      emptyDisk.pathExists "tapelink.log" = false := by decide +kernel

/-- A plan succeeds with journal settings that are in order, and leaves the disk with the file of the journal, if there is one. -/
theorem exists_run_plan {env : Environment} (henv : env.LeavesJournal) {disk disk' : Disk} {s : Settings}
    (h : planArguments.loaded .standard .listed env disk = .ok s) (hstart : Arguments.start disk (.ok s) = .ok disk')
    (h' : planArguments.loaded .standard .listed env disk' = .ok s) (hs : 0 < s.display.columns) (time : String) :
    ∃ text, run .standard .listed time ["plan"] env disk = (Console.print ⟨"", "", disk'⟩ text).exitWith 0 := by
  have hjournal : planArguments.loaded .standard RunOrders.listed.journal env disk = .ok s := h
  have hcommand : planArguments.loaded .standard RunOrders.listed.command env disk' = .ok s := h'
  simp only [run, evaluated_bare.1, Arguments.run_eq journalOff_plan henv, hjournal, hstart, hcommand]
  exact Arguments.exists_outcome_plan rfl disk' hs

/-- An environment with a format that does not exist. -/
def formatEnv : Environment := ⟨[("TAPELINK__LOGGING__FORMAT", "xml")]⟩

/-- With a format that does not exist: which settings are loaded. -/
theorem evaluated_format :
    bareEnv.SameButJournal formatEnv ∧ planArguments.loaded .standard .listed formatEnv emptyDisk =
      .ok { Settings.standard with journal := { JournalSettings.standard with format := "xml" } } := by decide +kernel

/-- A format that does not exist ends the run. -/
theorem run_format (time : String) : (run .standard .listed time ["plan"] formatEnv emptyDisk).exit = 1 := by
  obtain ⟨hsame, hloaded⟩ := evaluated_format
  have henv : formatEnv.LeavesJournal := hsame.leavesJournal leavesJournal_bare
  have hrefused : { JournalSettings.standard with format := "xml" }.verdict = .refused (.format "xml") := by decide
  have hjournal : planArguments.loaded .standard RunOrders.listed.journal formatEnv emptyDisk =
      .ok { Settings.standard with journal := { JournalSettings.standard with format := "xml" } } := hloaded
  simp only [run, evaluated_bare.1, Arguments.run_eq journalOff_plan henv, hjournal, Arguments.start_ok, hrefused, Verdict.prepare]
  rfl

/-- An environment with a journal in a file. -/
def fileEnv : Environment := ⟨[("TAPELINK__LOGGING__OUTPUT", "file")]⟩

/-- The settings with a journal in a file. -/
def fileSettings : Settings := { Settings.standard with journal := { JournalSettings.standard with output := "file" } }

/-- With a file for the journal: which settings are loaded, and that the file can be opened. -/
theorem evaluated_file :
    bareEnv.SameButJournal fileEnv ∧ planArguments.loaded .standard .listed fileEnv emptyDisk = .ok fileSettings ∧
      (Logger.prepare emptyDisk (.file "tapelink.log")).1 = .ok () ∧ journalDisk.pathExists "tapelink.log" = true ∧
      planArguments.loaded .standard .listed fileEnv journalDisk = .ok fileSettings := by decide +kernel

/-- A plan leaves the file of the journal behind. -/
theorem exists_run_file (time : String) :
    ∃ text, run .standard .listed time ["plan"] fileEnv emptyDisk = (Console.print ⟨"", "", journalDisk⟩ text).exitWith 0 := by
  obtain ⟨hsame, hloaded, hprepare, -, hloaded'⟩ := evaluated_file
  have hverdict : fileSettings.journal.verdict = .file "tapelink.log" := by decide
  have hprepared : Logger.prepare emptyDisk (.file "tapelink.log") = (.ok (), journalDisk) := by rw [← hprepare, journalDisk]
  have hstart : Arguments.start emptyDisk (.ok fileSettings) = .ok journalDisk := by
    rw [Arguments.start_ok, hverdict, Verdict.prepare, hprepared]
  exact exists_run_plan (hsame.leavesJournal leavesJournal_bare) hloaded hstart hloaded' (by decide) time

/-- A disk with a settings file in which the color of lines is a list. -/
def mistypedDisk : Disk :=
  [(["config"], Entry.directory), (["config", "config.toml"], .file "[logging]\ncolor = []\n".toUTF8)].foldl
    (fun disk e => disk.put e.1 e.2) (.workingIn [])

/-- An environment that says that lines are not colored. -/
def plainEnv : Environment := ⟨[("TAPELINK__LOGGING__COLOR", "false")]⟩

/-- The settings with lines that are not colored. -/
def plainSettings : Settings := { Settings.standard with journal := { JournalSettings.standard with color := false } }

/-- With a mistyped setting of the journal: it cannot be loaded, unless a variable covers it. -/
theorem evaluated_mistyped :
    bareEnv.SameButJournal plainEnv ∧
      planArguments.loaded .standard .listed bareEnv mistypedDisk = .error (.unreadable (Settings.Library.standard.misfit .listed [])) ∧
      planArguments.loaded .standard .listed plainEnv mistypedDisk = .ok plainSettings := by decide +kernel

/-- A setting of the wrong kind ends the run, unless a variable stands over it. -/
theorem run_mistyped (time : String) :
    (run .standard .listed time ["plan"] bareEnv mistypedDisk).exit = 1 ∧
      (run .standard .listed time ["plan"] plainEnv mistypedDisk).exit = 0 := by
  obtain ⟨hsame, hbare, hplain⟩ := evaluated_mistyped
  have henv : plainEnv.LeavesJournal := hsame.leavesJournal leavesJournal_bare
  constructor
  · have hjournal : planArguments.loaded .standard RunOrders.listed.journal bareEnv mistypedDisk = _ := hbare
    have hcommand : planArguments.loaded .standard RunOrders.listed.command bareEnv mistypedDisk = _ := hbare
    simp only [run, evaluated_bare.1, Arguments.run_eq journalOff_plan leavesJournal_bare, hjournal, Arguments.start,
      Arguments.verdictOn, Verdict.prepare, hcommand]
    rfl
  · obtain ⟨text, htext⟩ := exists_run_plan henv hplain rfl hplain (by decide) time
    rw [htext]
    rfl

end DispatchTree
