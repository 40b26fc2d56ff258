import DispatchTree.Proofs.Settings.Sections

/-!
# Variables about the journal

A variable whose name begins with the words for the journal section sets a key of that section, or a key that no section reads
(`prefix_sectionOf`). Environments that differ in such variables only have the same files below them, and say the same about the
display and the output. In whatever order the variables of the one are gone through, there is an order for those of the other that
keeps what they say about the display and the output (`Environment.SameButJournal.exists_order`). With it they load the same width and
root, or fail for the same reason, if the journal settings can be read in both (`Environment.SameButJournal.exists_orders`).
-/

namespace DispatchTree

namespace Text

/-- Whether a character is its own lower-case form, wherever it stands. -/
def isLower (c : Char) : Bool := c != 'Σ' && lowerChar c == [c]

/-- A beginning in lower case stays as it is. -/
theorem lowerAfter_append {start : List Char} (hstart : start.all isLower = true) (before cs : List Char) :
    lowerAfter before (start ++ cs) = start ++ lowerAfter (start.reverse ++ before) cs := by
  induction start generalizing before with
  | nil => rfl
  | cons c start ih =>
    rw [List.all_cons, isLower, Bool.and_eq_true, Bool.and_eq_true, bne_iff_ne, beq_iff_eq] at hstart
    obtain ⟨⟨hsigma, hlower⟩, hstart⟩ := hstart
    rw [List.cons_append, lowerAfter, if_neg hsigma, hlower, ih hstart, List.reverse_cons, List.append_assoc]
    rfl

/-- A text keeps a beginning that is in lower case. -/
theorem prefix_lower {start s : String} (hstart : start.toList.all isLower = true) (h : start.toList <+: s.toList) :
    start.toList <+: (lower s).toList := by
  obtain ⟨rest, hrest⟩ := h
  rw [lower, String.toList_ofList, ← hrest, lowerAfter_append hstart]
  exact List.prefix_append _ _

end Text

namespace Settings

/-! ## Orders of variables -/

/-- A source without lists and tables. -/
def Source.Plain (s : Source) : Prop := ∀ e ∈ s, Held.of e.2 = .value e.2

/-- There is no order in a value that is neither a list nor a table. -/
theorem document_of_value (o : Order) (path : List String) {d : Document} (h : Held.of d = .value d) : o.document path d = d := by
  cases d with
  | table es => cases h
  | _ => rfl

/-- Values without members have no order inside. -/
theorem members_of_plain (o : Order) (path : List String) {s : Source} (h : s.Plain) : o.members path s = s := by
  induction s with
  | nil => rfl
  | cons e s ih =>
    obtain ⟨name, d⟩ := e
    have hrest : Source.Plain s := fun e he => h e (List.mem_cons_of_mem _ he)
    rw [Order.members, document_of_value o _ (h (name, d) List.mem_cons_self), ih hrest]

/-- A source without tables is put in order by exchanging its entries. -/
theorem perm_source (o : Order) {s : Source} (h : s.Plain) : (o.source s).Perm s := by
  rw [Order.source, members_of_plain o [] h]
  exact (o.table []).perm s

/-- A source without tables can be put in every order. -/
theorem exists_source_eq {s s' : Source} (hs : s.Plain) (h : s'.Perm s) : ∃ o : Order, o.source s = s' := by
  classical
  refine ⟨⟨fun _ => ⟨fun es => if es = s then s' else es, fun es => ?_⟩⟩, ?_⟩
  · split
    · rename_i hes
      exact hes ▸ h
    · exact .refl _
  · rw [Order.source, members_of_plain _ _ hs]
    exact if_pos rfl

/-- What is left of a source is part of it. -/
theorem mem_of_mem_latest {s : Source} {e : String × Document} (h : e ∈ latest s) : e ∈ s := by
  induction s with
  | nil => cases h
  | cons first s ih =>
    rw [latest] at h
    split at h
    · exact List.mem_cons_of_mem _ (ih h)
    · rcases List.mem_cons.1 h with rfl | hrest
      · exact List.mem_cons_self
      · exact List.mem_cons_of_mem _ (ih hrest)

/-- Every key of a source is left. -/
theorem exists_mem_latest {s : Source} {e : String × Document} (h : e ∈ s) : ∃ e' ∈ latest s, e'.1 = e.1 := by
  induction s with
  | nil => cases h
  | cons first s ih =>
    rw [latest]
    rcases List.mem_cons.1 h with rfl | hrest
    · split
      · rename_i hany
        obtain ⟨e', he', hkey⟩ := List.any_eq_true.1 hany
        exact ⟨e', he', beq_iff_eq.1 hkey⟩
      · exact ⟨e, List.mem_cons_self, rfl⟩
    · obtain ⟨e', he', hkey⟩ := ih hrest
      split
      · exact ⟨e', he', hkey⟩
      · exact ⟨e', List.mem_cons_of_mem _ he', hkey⟩

/-- Entries with a key of one kind are found among all entries of this kind. -/
theorem any_filter_key {p : String → Bool} {key : String} (hkey : p key = true) (s : Source) :
    (s.filter fun e => p e.1).any (·.1 == key) = s.any (·.1 == key) := by
  rw [List.any_filter, Bool.eq_iff_iff, List.any_eq_true, List.any_eq_true]
  constructor
  · rintro ⟨e, he, hboth⟩
    exact ⟨e, he, (Bool.and_eq_true _ _ ▸ hboth).2⟩
  · rintro ⟨e, he, hsame⟩
    refine ⟨e, he, ?_⟩
    rw [beq_iff_eq] at hsame
    simp [hsame, hkey]

/-- Of the entries with keys of one kind the last ones count, whatever other entries there are. -/
theorem filter_latest (p : String → Bool) (s : Source) : (latest s).filter (fun e => p e.1) = latest (s.filter fun e => p e.1) := by
  induction s with
  | nil => rfl
  | cons e s ih =>
    rw [latest]
    cases hp : p e.1 with
    | false =>
      rw [List.filter_cons_of_neg (by simp [hp]), ← ih]
      split
      · rfl
      · rw [List.filter_cons_of_neg (by simp [hp])]
    | true =>
      rw [List.filter_cons_of_pos (by simpa using hp), latest, ← ih, any_filter_key hp]
      split
      · rfl
      · rw [List.filter_cons_of_pos (by simpa using hp)]

/-! ## Keys about the journal -/

/-- How the keys of the journal section begin. -/
def journalStart : String := "logging."

/-- A key that begins like those of the journal section does so in lower case. -/
theorem prefix_lower_key {key : String} (h : journalStart.toList <+: key.toList) :
    journalStart.toList <+: (Text.lower key).toList := Text.prefix_lower (by decide) h

/-- A key that begins like those of the journal section is about this section, or about one with a longer name. -/
theorem prefix_sectionOf {key : String} (h : journalStart.toList <+: key.toList) : "logging".toList <+: (sectionOf key).toList := by
  have hlower := prefix_lower_key h
  cases hpath : pathOf? (Text.lower key) with
  | none =>
    -- the whole key is the name
    have hsection : sectionOf key = Text.lower (Text.lower key) := by
      simp only [sectionOf, pathOf, hpath, Option.getD_none]
    have hstart : "logging".toList <+: journalStart.toList := by decide
    rw [hsection]
    exact hstart.trans (prefix_lower_key hlower)
  | some steps =>
    obtain ⟨rest, hrest⟩ := hlower
    have hname : (Text.lower key).toList.takeWhile isPathChar = "logging".toList := by
      rw [← hrest]
      rfl
    have hsection : sectionOf key = Text.lower "logging" := by
      simp only [sectionOf, pathOf, hpath, Option.getD_some]
      simp only [pathOf?, hname] at hpath
      obtain ⟨more, -, rfl⟩ := Option.map_eq_some_iff.1 hpath
      rfl
    rw [hsection]
    exact Text.prefix_lower (by decide) List.prefix_rfl

/-- Whether a key is about none of the sections whose names begin like that of the journal. -/
def isBesideJournal (key : String) : Bool := !"logging".toList.isPrefixOf (sectionOf key).toList

/-- A key about a section beside the journal is beside the journal. -/
theorem isBesideJournal_of_sectionOf {key name : String} (hname : ¬"logging".toList <+: name.toList) (h : sectionOf key = name) :
    isBesideJournal key = true := by
  rwa [isBesideJournal, h, Bool.not_eq_true', ← Bool.not_eq_true, List.isPrefixOf_iff_prefix]

/-- What a source says about a section, the part beside the journal says, if the section is beside the journal. -/
theorem about_filter_beside (s : Source) {name : String} (hname : ¬"logging".toList <+: name.toList) :
    Source.about (s.filter fun e => isBesideJournal e.1) name = s.about name := by
  unfold Source.about
  rw [List.filter_filter]
  refine List.filter_congr fun e _ => ?_
  by_cases hsection : sectionOf e.1 = name
  · simp [isBesideJournal_of_sectionOf hname hsection]
  · simp [hsection]

/-- The part of a source about the journal says nothing about a section beside it. -/
theorem about_filter_journal (s : Source) {name : String} (hname : ¬"logging".toList <+: name.toList) :
    Source.about (s.filter fun e => !isBesideJournal e.1) name = [] := by
  unfold Source.about
  rw [List.filter_filter, List.filter_eq_nil_iff]
  rintro e -
  by_cases hsection : sectionOf e.1 = name
  · simp [isBesideJournal_of_sectionOf hname hsection]
  · simp [hsection]

end Settings

namespace Environment

/-- Whether a variable is about the journal, by how its name begins in lower case. -/
def isJournalVariable (name : String) : Bool := (Text.lower name).startsWith "tapelink__logging__"

/-- The environment without the variables about the journal. -/
def withoutJournal (env : Environment) : Environment := ⟨env.entries.filter fun v => !isJournalVariable v.1⟩

/-- Environments that differ in variables about the journal only. -/
def SameButJournal (env env' : Environment) : Prop := env.withoutJournal = env'.withoutJournal

instance (env env' : Environment) : Decidable (env.SameButJournal env') := inferInstanceAs (Decidable (_ = _))

/-- The variables that are looked up by their names. -/
def lookedUp : List String := ["HOME", "XDG_CONFIG_HOME", "TAPELINK_ENV", "TAPELINK_LOG", "TAPELINK_LOG_FORMAT", "TAPELINK_LOG_OUTPUT"]

/-- No variable that the program looks up by its name is about the journal. -/
theorem isJournalVariable_of_lookedUp : ∀ name ∈ lookedUp, isJournalVariable name = false := by decide +kernel

/-- Without the variables about the journal all others have the same values. -/
theorem get?_withoutJournal (env : Environment) {name : String} (hname : isJournalVariable name = false) :
    env.withoutJournal.get? name = env.get? name := by
  obtain ⟨entries⟩ := env
  unfold withoutJournal get?
  induction entries with
  | nil => rfl
  | cons v vs ih =>
    rw [Settings.lookup_cons_eq]
    by_cases hv : isJournalVariable v.1 = true
    · have hne : name ≠ v.1 := by
        rintro rfl
        simp [hv] at hname
      rw [List.filter_cons_of_neg (by simp [hv]), if_neg hne, ih]
    · rw [List.filter_cons_of_pos (by simp [hv]), Settings.lookup_cons_eq, ih]

/-- The key of a variable about the journal begins like those of the journal section. -/
theorem prefix_variableKey? {name key : String} (hname : isJournalVariable name = true) (hkey : variableKey? name = some key) :
    Settings.journalStart.toList <+: key.toList := by
  obtain ⟨rest, hrest⟩ := String.startsWith_string_iff.1 hname
  unfold variableKey? at hkey
  simp only [← hrest] at hkey
  split at hkey
  · rw [← Option.some.inj hkey, String.toList_ofList]
    exact ⟨keyOf rest, rfl⟩
  · cases hkey

/-- Variables about the journal say nothing beside the journal. -/
theorem filter_withoutJournal (env : Environment) :
    (env.withoutJournal.source.filter fun e => Settings.isBesideJournal e.1) =
      env.source.filter fun e => Settings.isBesideJournal e.1 := by
  unfold withoutJournal source
  rw [Settings.filter_latest, Settings.filter_latest, List.filter_filterMap, List.filter_filterMap, List.filterMap_filter]
  refine congrArg Settings.latest (List.filterMap_congr fun v _ => ?_)
  cases hv : isJournalVariable v.1 with
  | false => rfl
  | true =>
    cases hkey : variableKey? v.1 with
    | none => simp [hkey]
    | some key =>
      have hother : Settings.isBesideJournal key = false := by
        simpa [Settings.isBesideJournal] using Settings.prefix_sectionOf (prefix_variableKey? hv hkey)
      simp [hkey, Option.filter, hother]

/-- The value of a variable is neither a list nor a table. -/
theorem of_variableValue (text : String) : Settings.Held.of (variableValue text) = .value (variableValue text) := by
  unfold variableValue
  dsimp only
  split
  · rfl
  · split
    · rfl
    · split
      · rfl
      · split <;> rfl

/-- Variables give no lists and no tables. -/
theorem plain_source (env : Environment) : env.source.Plain := by
  intro e he
  obtain ⟨v, -, hv⟩ := List.mem_filterMap.1 (Settings.mem_of_mem_latest he)
  obtain ⟨key, -, rfl⟩ := Option.map_eq_some_iff.1 hv
  exact of_variableValue v.2

end Environment

namespace Settings

/-- The layers of the files of a run: of the one that is given, or of those of the workspace. -/
def filesFor (lib : Library) (orders : Orders) (env : Environment) (disk : Disk) (workspace : String) : Option String → List Layer
  | some file => [fileLayer lib orders disk true (.given, file)]
  | none => presentLayers lib orders env disk workspace

/-- The sources of a run, the variables last. -/
def sourcesFor (lib : Library) (orders : Orders) (env : Environment) (disk : Disk) (workspace : String) (file : Option String) :
    List (Except String Source) :=
  (filesFor lib orders env disk workspace file).map Prod.snd ++ [.ok ((orders.source .variables).source env.source)]

/-- The journal settings that a run is given, if they can be read. -/
def journalFor? (lib : Library) (orders : Orders) (env : Environment) (disk : Disk) (workspace : String) (file : Option String) :
    Option JournalSettings := journalIn? (sourcesFor lib orders env disk workspace file)

/-- The orders with another one for the variables. -/
def Orders.withVariables (orders : Orders) (o : Order) : Orders :=
  { orders with source := fun origin => if origin = .variables then o else orders.source origin }

section

variable (lib : Library) (orders : Orders) (disk : Disk) (workspace : String) (file : Option String)

/-- The layers of files do not depend on the order of the variables. -/
theorem filesFor_withVariables (o : Order) (env : Environment) :
    filesFor lib (orders.withVariables o) env disk workspace file = filesFor lib orders env disk workspace file := by
  have hlayer : fileLayer lib (orders.withVariables o) disk = fileLayer lib orders disk := rfl
  cases file with
  | some file => rfl
  | none => rw [filesFor, filesFor, presentLayers, presentLayers, hlayer]

/-- Which files are read depends on the variables that are looked up. -/
theorem filesFor_congr {env env' : Environment} (h : ∀ name ∈ Environment.lookedUp, env.get? name = env'.get? name) :
    filesFor lib orders env disk workspace file = filesFor lib orders env' disk workspace file := by
  cases file with
  | some file => rfl
  | none =>
    have hglobal : globalPath? env = globalPath? env' := by
      unfold globalPath?
      rw [h "XDG_CONFIG_HOME" (by decide), h "HOME" (by decide)]
    unfold filesFor presentLayers workspaceFiles
    rw [hglobal, h "TAPELINK_ENV" (by decide)]

/-- The settings of a run are those of its sources. -/
theorem exists_loadFor_eq (env : Environment) :
    ∃ misfit, (loadFor lib orders env disk workspace file).1 = ofSources misfit (sourcesFor lib orders env disk workspace file) := by
  cases file with
  | some file => exact ⟨lib.misfit orders.merged [fileLayer lib orders disk true (.given, file), variablesLayer orders env], rfl⟩
  | none =>
    refine ⟨lib.misfit orders.merged (presentLayers lib orders env disk workspace ++ [variablesLayer orders env]), ?_⟩
    rw [sourcesFor, filesFor, loadFor, load, ofLayers, List.map_append]
    rfl

end

end Settings

namespace Environment.SameButJournal

variable {env env' : Environment} (h : env.SameButJournal env')

include h

/-- Variables that are looked up have the same values. -/
theorem get? {name : String} (hname : name ∈ lookedUp) : env.get? name = env'.get? name := by
  have hother := isJournalVariable_of_lookedUp name hname
  rw [← get?_withoutJournal env hother, ← get?_withoutJournal env' hother, h]

/-- The variables say the same beside the journal. -/
theorem filter_source : (env.source.filter fun e => Settings.isBesideJournal e.1) =
    env'.source.filter fun e => Settings.isBesideJournal e.1 := by
  rw [← filter_withoutJournal env, ← filter_withoutJournal env', h]

/-- For every order of the variables there is one of the others with which they say the same about each section beside the journal. -/
theorem exists_order (o : Settings.Order) : ∃ o' : Settings.Order, ∀ name, ¬"logging".toList <+: String.toList name →
    (o.source env.source).about name = (o'.source env'.source).about name := by
  -- first what is beside the journal, in the same order; then the rest
  have hperm : (((o.source env.source).filter fun e => Settings.isBesideJournal e.1) ++
      env'.source.filter fun e => !Settings.isBesideJournal e.1).Perm env'.source := by
    have hbeside := (Settings.perm_source o env.plain_source).filter fun e => Settings.isBesideJournal e.1
    rw [h.filter_source] at hbeside
    exact (hbeside.append_right _).trans (List.filter_append_perm _ _)
  obtain ⟨o', ho'⟩ := Settings.exists_source_eq env'.plain_source hperm
  refine ⟨o', fun name hname => ?_⟩
  rw [ho', Settings.Source.about_append, Settings.about_filter_beside _ hname, Settings.about_filter_journal _ hname, List.append_nil]

/-- For all orders of a run there are orders of the other one with which the two load the same width and root, or fail for the same
reason, if the journal settings can be read. -/
theorem exists_orders (orders : Settings.Orders) : ∃ orders' : Settings.Orders, ∀ lib disk workspace file j j',
    Settings.journalFor? lib orders env disk workspace file = some j →
    Settings.journalFor? lib orders' env' disk workspace file = some j' →
    Settings.SameRest j j' (Settings.loadFor lib orders env disk workspace file).1
      (Settings.loadFor lib orders' env' disk workspace file).1 := by
  obtain ⟨o', habout⟩ := h.exists_order (orders.source .variables)
  refine ⟨orders.withVariables o', fun lib disk workspace file j j' hj hj' => ?_⟩
  have hsources : Settings.sourcesFor lib (orders.withVariables o') env' disk workspace file =
      (Settings.filesFor lib orders env disk workspace file).map Prod.snd ++ [.ok (o'.source env'.source)] := by
    rw [Settings.sourcesFor, Settings.filesFor_withVariables, ← Settings.filesFor_congr _ _ _ _ _ fun _ => h.get?]
    rfl
  obtain ⟨misfit, hload⟩ := Settings.exists_loadFor_eq lib orders disk workspace file env
  obtain ⟨misfit', hload'⟩ := Settings.exists_loadFor_eq lib (orders.withVariables o') disk workspace file env'
  rw [Settings.journalFor?] at hj hj'
  rw [hload, hload']
  rw [hsources] at hj' ⊢
  exact Settings.sameRest_ofSources (habout _ (by decide)) (habout _ (by decide)) hj hj' misfit misfit'

end Environment.SameButJournal

end DispatchTree
