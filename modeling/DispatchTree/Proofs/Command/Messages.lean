import DispatchTree.Proofs.Rendering
import DispatchTree.Proofs.Report.Table

/-!
# Messages on one line

What a command says when it fails. Texts from outside are quoted in messages, and a quotation has no line breaks (`avoids_quote`).
Only the states of rules and the root of a build are shown as they are: with names that have no line breaks, a command that fails
says so on one line. A build never reports a conflict of links, whose message would show more of the disk: it writes into a root
that was empty (`materialize_eq_error`). Settings that are not acceptable are the exception, since their faults are listed line by
line (`linesOf_invalid`).
-/

namespace DispatchTree

/-! ## Line breaks -/

namespace Text

/-- The characters of fixed texts: letters, digits, signs and the space. -/
def isTypewritten (c : Char) : Bool := 32 ≤ c.toNat && c.toNat < 127

/-- A text in which a character does not occur. -/
def Avoids (c : Char) (s : String) : Prop := c ∉ s.toList

instance (c : Char) (s : String) : Decidable (Avoids c s) := inferInstanceAs (Decidable (_ ∉ _))

/-- A character is avoided by a text in two parts exactly if both parts avoid it. -/
theorem avoids_append {c : Char} {s t : String} : Avoids c (s ++ t) ↔ Avoids c s ∧ Avoids c t := by
  simp [Avoids]

theorem avoids_ite {c : Char} {s t : String} {b : Prop} [Decidable b] (hs : Avoids c s) (ht : Avoids c t) :
    Avoids c (if b then s else t) := by
  split
  · exact hs
  · exact ht

variable {c : Char} (hc : c ∈ lineBreaks)

include hc

/-- A property that no line break has, which is evaluated over the list of line breaks. -/
theorem eq_false_of_all {p : Char → Bool} (h : (lineBreaks.all fun x => !p x) = true) : p c = false := by
  simpa using List.all_eq_true.1 h c hc

/-- A fixed text has no line breaks. -/
theorem avoids_ofList {l : List Char} (h : l.all isTypewritten = true) : Avoids c (String.ofList l) := by
  intro hmem
  rw [String.toList_ofList] at hmem
  have htype := List.all_eq_true.1 h c hmem
  rw [eq_false_of_all hc (p := isTypewritten) (by decide)] at htype
  cases htype

/-- A fixed text with another one behind it. -/
theorem avoids_label {l : List Char} {t : String} (h : l.all isTypewritten = true) (ht : Avoids c t) : Avoids c (String.ofList l ++ t) :=
  avoids_append.2 ⟨avoids_ofList hc h, ht⟩

/-- Numbers are written with digits only. -/
theorem avoids_repr (n : Nat) : Avoids c (Nat.repr n) := by
  intro h
  rw [Nat.toList_repr] at h
  have hdigit := Nat.isDigit_of_mem_toDigits (by decide) (by decide) h
  rw [eq_false_of_all hc (p := Char.isDigit) (by decide)] at hdigit
  cases hdigit

/-- A character is shown by its number without line breaks. -/
theorem avoids_codePoint (x : Char) : Avoids c (codePoint x) := by
  have htag : Avoids c (tag x.toNat) := by
    intro h
    have hmem := List.contains_iff_mem.2 (mem_tagChars_of_mem_tag h)
    rw [eq_false_of_all hc (p := tagChars.contains) (by decide)] at hmem
    cases hmem
  exact avoids_append.2 ⟨avoids_label hc (by decide) htag, avoids_ofList hc (by decide)⟩

/-- A line break is not printable, and is written as an escape. -/
theorem avoids_quoteChar (q : Quoting) (x : Char) : Avoids c (quoteChar q x) := by
  have hplain : Avoids c (if isPrintable x then String.singleton x else codePoint x) := by
    split
    · rename_i hprintable
      intro h
      rw [String.toList_singleton, List.mem_singleton] at h
      rw [← h, eq_false_of_all hc (p := isPrintable) (by decide +kernel)] at hprintable
      cases hprintable
    · exact avoids_codePoint hc x
  unfold quoteChar
  -- five fixed escapes, then the quotes, each with and without one
  iterate 5 refine avoids_ite (avoids_ofList hc (by decide)) ?_
  iterate 2 refine avoids_ite (avoids_ite (avoids_ofList hc (by decide)) (avoids_ofList hc (by decide))) ?_
  exact avoids_ite (avoids_codePoint hc x) hplain

/-- A quotation has no line breaks, whatever is quoted. -/
theorem avoids_quote (s : String) : Avoids c (quote s) := by
  have hchars : Avoids c (String.join (s.toList.map (quoteChar ⟨false, true, true⟩))) := by
    intro h
    rw [String.toList_join, List.flatMap_map, List.mem_flatMap] at h
    obtain ⟨x, -, hx⟩ := h
    exact avoids_quoteChar hc _ x hx
  exact avoids_append.2 ⟨avoids_label hc (by decide) hchars, avoids_ofList hc (by decide)⟩

/-- The quotation of a single character has no line breaks. -/
theorem avoids_quoteSingle (x : Char) : Avoids c (quoteSingle x) :=
  avoids_append.2 ⟨avoids_label hc (by decide) (avoids_quoteChar hc _ x), avoids_ofList hc (by decide)⟩

end Text

/-- Joining adds nothing but a separator to the two paths. -/
theorem Path.avoids_join {c : Char} {base p : String} (hc : c ≠ '/') (hbase : Text.Avoids c base) (hp : Text.Avoids c p) :
    Text.Avoids c (Path.join base p) := by
  have hslash : Text.Avoids c "/" := by simpa [Text.Avoids] using hc
  refine Text.avoids_ite hp (Text.avoids_ite ?_ ?_)
  · exact Text.avoids_append.2 ⟨hbase, hp⟩
  · exact Text.avoids_append.2 ⟨Text.avoids_append.2 ⟨hbase, hslash⟩, hp⟩

/-! ## Messages -/

section Messages

variable {c : Char} (hc : c ∈ Text.lineBreaks)

include hc

/-- An error of the system is worded on one line if its text is. -/
theorem avoids_systemError {text : String} (h : Text.Avoids c text) (n : Nat) : Text.Avoids c (systemError text n) := by
  refine Text.avoids_append.2 ⟨Text.avoids_append.2 ⟨?_, Text.avoids_repr hc n⟩, Text.avoids_ofList hc (by decide)⟩
  exact Text.avoids_append.2 ⟨h, Text.avoids_ofList hc (by decide)⟩

/-- Every fault of the disk is worded on one line. -/
theorem DiskFault.avoids_message (f : DiskFault) : Text.Avoids c f.message := by
  cases f with
  | nulInName => exact Text.avoids_ofList hc (by decide)
  | notText => exact Text.avoids_ofList hc (by decide)
  | system fault => exact avoids_systemError hc (fault.oneLine c hc) _
  | _ => exact avoids_systemError hc (Text.avoids_ofList hc (by decide)) _

/-- A fault of a pair shows the text or the character that it is about in quotation marks. -/
theorem PairFault.avoids_message (f : PairFault) : Text.Avoids c f.message := by
  cases f with
  | notTwo text => exact Text.avoids_label hc (by decide) (Text.avoids_quote hc text)
  | unexpected x => exact Text.avoids_label hc (by decide) (Text.avoids_quoteSingle hc x)

/-- A fault of a rule shows nothing of the rule but what the fault of its pair shows. -/
theorem RuleFault.avoids_message (f : RuleFault) : Text.Avoids c f.message := by
  cases f with
  | read f => exact Text.avoids_label hc (by decide) (f.avoids_message hc)
  | write f => exact Text.avoids_label hc (by decide) (f.avoids_message hc)
  | moves f => exact Text.avoids_label hc (by decide) (f.avoids_message hc)
  | emptyNext => exact Text.avoids_ofList hc (by decide)

theorem Symbol.avoids_text (x : Symbol) : Text.Avoids c x.text := by
  intro h
  rw [Symbol.text, String.toList_singleton, List.mem_singleton] at h
  rw [h] at hc
  cases x <;> exact absurd hc (by decide)

theorem SymbolPair.avoids_text (p : SymbolPair) : Text.Avoids c p.text := by
  refine Text.avoids_append.2 ⟨Text.avoids_append.2 ⟨?_, p.second.avoids_text hc⟩, Text.avoids_ofList hc (by decide)⟩
  exact Text.avoids_append.2 ⟨Text.avoids_label hc (by decide) (p.first.avoids_text hc), Text.avoids_ofList hc (by decide)⟩

/-- The message of an underflow is a fixed text. -/
theorem Underflow.avoids_message (u : Underflow) : Text.Avoids c u.message := by
  cases u
  exact Text.avoids_ofList hc (by decide)

/-- A fault of one setting is worded on one line. -/
theorem SettingFault.avoids_message (f : SettingFault) : Text.Avoids c f.message := by
  cases f with
  | widthTooSmall width =>
    refine Text.avoids_append.2 ⟨Text.avoids_append.2 ⟨?_, Text.avoids_ofList hc (by decide)⟩, Text.avoids_repr hc _⟩
    exact Text.avoids_label hc (by decide) (Text.avoids_repr hc width)
  | emptyRoot => exact Text.avoids_ofList hc (by decide)

end Messages

/-! ## Descriptions -/

/-- The state of the rule that a fault is about. -/
def DescriptionFault.state? : DescriptionFault → Option String
  | .missingInitialState => none
  | .invalidRule _ state _ => some state
  | .duplicateRule state _ => some state

/-- A fault of a description is on one line if the state that it shows is. -/
theorem DescriptionFault.avoids_message {c : Char} (hc : c ∈ Text.lineBreaks) {f : DescriptionFault}
    (h : ∀ state, f.state? = some state → Text.Avoids c state) : Text.Avoids c f.message := by
  cases f with
  | missingInitialState => exact Text.avoids_ofList hc (by decide)
  | invalidRule index state fault =>
    refine Text.avoids_append.2 ⟨Text.avoids_append.2 ⟨Text.avoids_append.2 ⟨?_, h state rfl⟩, Text.avoids_ofList hc (by decide)⟩,
      fault.avoids_message hc⟩
    refine Text.avoids_append.2 ⟨?_, Text.avoids_ofList hc (by decide)⟩
    exact Text.avoids_label hc (by decide) (Text.avoids_repr hc index)
  | duplicateRule state pair =>
    refine Text.avoids_append.2 ⟨Text.avoids_append.2 ⟨?_, Text.avoids_ofList hc (by decide)⟩, pair.avoids_text hc⟩
    exact Text.avoids_label hc (by decide) (h state rfl)

namespace Description

/-- A fault of rules is about one of them. -/
theorem exists_of_addRules {es : List RuleEntry} {f : DescriptionFault} {state : String} (hstate : f.state? = some state) :
    ∀ {index : Nat} {m : Machine}, addRules index es m = .error f → ∃ e ∈ es, e.state = state := by
  induction es with
  | nil => nofun
  | cons e es ih =>
    intro index m h
    rw [addRules] at h
    cases hrule : e.toRule with
    | error fault =>
      rw [hrule] at h
      cases h
      exact ⟨e, List.mem_cons_self, Option.some.inj hstate⟩
    | ok rule =>
      rw [hrule] at h
      simp only [mapError_ok, bind, Except.bind] at h
      split at h
      · cases h
        exact ⟨e, List.mem_cons_self, Option.some.inj hstate⟩
      · obtain ⟨e', he', heq⟩ := ih h
        exact ⟨e', List.mem_cons_of_mem e he', heq⟩

/-- The state that a fault of a description shows is the state of one of its rules. -/
theorem exists_of_toMachine {d : Description} {f : DescriptionFault} {state : String} (hstate : f.state? = some state)
    (h : d.toMachine = .error f) : ∃ e ∈ d.rules, e.state = state := by
  unfold toMachine at h
  split at h
  · cases h
    cases hstate
  · exact exists_of_addRules hstate h

end Description

/-! ## Builds -/

namespace Graph

variable {g : Graph} {d : Display}

/-- Where nothing underflows every program of the graph has a text. -/
theorem render_eq_of_not_underflows (h : ¬g.Underflows d) {n : Node} (hn : n ∈ g.nodes) :
    n.program.render d = .ok (textOf d n.program) := by
  cases hrender : n.program.render d with
  | error u => exact absurd ((underflows_iff u).2 ⟨n, hn, hrender⟩) h
  | ok text =>
    rw [textOf, hrender]
    rfl

/-- The operations of a build below an empty root never find a link in the way: where all programs can be rendered the names of the
links are free, and otherwise the operations end before the links. -/
theorem runAll_operations_eq_error {disk : Disk} (hdisk : disk.WellFormed) {root : String} {loc : Location}
    (hr : root ≠ "") (hlead : disk.LeadsTo root loc) (hempty : ∀ names ≠ [], disk.get? (loc ++ names) = none) {f : BuildFault}
    (h : (Operation.runAll (g.operations d root) ⟨disk, [], 0, 0⟩).1 = .error f) :
    (∃ path fault, f = .disk path fault) ∨ ∃ u, f = .underflow u := by
  by_cases hunderflows : g.Underflows d
  · obtain ⟨f', hf', hcases⟩ := runAll_of_underflows hunderflows root ⟨disk, [], 0, 0⟩
    rw [h] at hf'
    cases hf'
    refine hcases.imp_left fun hisDisk => ?_
    cases f with
    | disk path fault => exact ⟨path, fault, rfl⟩
    | outputRootExists path => exact absurd h (Operation.runAll_ne_outputRootExists _ _ path)
    | _ => cases hisDisk
  · have hrender : ∀ n ∈ g.nodes, n.program.render d = .ok (textOf d n.program) := fun n => render_eq_of_not_underflows hunderflows
    exact .inl ((runAll_operations hrender hdisk hr hlead hempty).2 f h)

/-- A build fails because its root is there, because of the file system, or because a program cannot be rendered. -/
theorem materialize_eq_error {disk : Disk} (hdisk : disk.WellFormed) {root : String} {f : BuildFault}
    (h : (g.materialize d root disk).1 = .error f) :
    f = .outputRootExists root ∨ (∃ path fault, f = .disk path fault) ∨ ∃ u, f = .underflow u := by
  unfold materialize at h
  split at h
  · cases h
    exact .inl rfl
  · split at h
    · rename_i hmake
      cases h
      exact (makeRoot_eq_error hmake).imp_right .inl
    · rename_i disk₁ hmake
      split at h
      · rename_i f' p hrun
        cases h
        have hgrows := growsBy_makeRoot root hdisk
        rw [hmake] at hgrows
        obtain ⟨hcheck, loc, -, hlead, -, hempty⟩ := exists_root_of_makeRoot hdisk hmake
        exact .inr (runAll_operations_eq_error (hgrows.grows.wellFormed hdisk) (Disk.checkPath_eq_ok.1 hcheck).2.1 hlead hempty
          (congrArg Prod.fst hrun))
      · split at h
        · cases h
          exact .inr (.inr ⟨_, rfl⟩)
        · cases h

end Graph

/-! ## Commands -/

/-- Why a machine could not be loaded: its file cannot be read, holds no description, or describes no machine. -/
theorem Machine.load_eq_error {disk : Disk} {path : String} {f : LoadFault} (h : Machine.load disk path = .error f) :
    (∃ fault, f = .unreadable path fault) ∨ (∃ format fault, f = .machine (.text format fault)) ∨
      ∃ text d fault, disk.readText path = .ok text ∧ Description.ofText (.ofPath path) text = .ok d ∧ d.toMachine = .error fault ∧
        f = .machine (.description fault) := by
  rw [Machine.load] at h
  cases hread : disk.readText path with
  | error fault =>
    rw [hread] at h
    cases h
    exact .inl ⟨fault, rfl⟩
  | ok text =>
    rw [hread, mapError_ok] at h
    cases hd : Description.ofText (.ofPath path) text with
    | error fault =>
      simp only [bind, Except.bind, Machine.ofText, hd, Except.mapError] at h
      cases h
      exact .inr (.inl ⟨_, fault, rfl⟩)
    | ok d =>
      cases hm : d.toMachine with
      | ok m =>
        simp only [bind, Except.bind, Machine.ofText, hd, hm, Except.mapError] at h
        cases h
      | error fault =>
        simp only [bind, Except.bind, Machine.ofText, hd, hm, Except.mapError] at h
        cases h
        exact .inr (.inr ⟨text, d, fault, rfl, hd, hm, rfl⟩)

/-- Faults with the words of what reads descriptions and settings. -/
def CommandFault.isReaderWorded : CommandFault → Bool
  | .machine (.machine (.text _ _)) => true
  | .settings (.unreadable _) => true
  | _ => false

namespace Command

/-- The names that messages of a command can show as they are do not have a character: the paths its root is made of, and the states
of the rules in its machine file. -/
structure NamesAvoid (command : Command) (s : Settings) (workspace : String) (disk : Disk) (c : Char) : Prop where
  base : Text.Avoids c workspace
  outputRoot : Text.Avoids c s.outputRoot
  output : ∀ machine path, command = .build machine (some path) → Text.Avoids c path
  states : ∀ path text d, command.machinePath? = some path → disk.readText (Path.join workspace path) = .ok text →
    Description.ofText (.ofPath (Path.join workspace path)) text = .ok d → ∀ rule ∈ d.rules, Text.Avoids c rule.state

variable {c : Char} (hc : c ∈ Text.lineBreaks) {command : Command} {s : Settings} {workspace : String} {disk : Disk} {m : Machine}
  {f : CommandFault}

include hc

/-- A command without its machine. -/
theorem avoids_of_chooseMachine (hnames : command.NamesAvoid s workspace disk c) {os : List Occurrence}
    (h : chooseMachine disk workspace command.machinePath? = (.error f, os)) (hf : f.isReaderWorded = false) : Text.Avoids c f.advice := by
  unfold chooseMachine at h
  split at h
  · cases h
  · rename_i path hpath
    dsimp only at h
    split at h
    · cases h
    · rename_i fault hload
      cases h
      refine Text.avoids_label hc (by decide) ?_
      rcases Machine.load_eq_error hload with ⟨fault, rfl⟩ | ⟨format, fault, rfl⟩ | ⟨text, d, fault, hread, hd, hm, rfl⟩
      · refine Text.avoids_append.2 ⟨Text.avoids_append.2 ⟨?_, Text.avoids_ofList hc (by decide)⟩, fault.avoids_message hc⟩
        exact Text.avoids_label hc (by decide) (Text.avoids_quote hc _)
      · cases hf
      · refine DescriptionFault.avoids_message hc fun state hstate => ?_
        obtain ⟨rule, hrule, rfl⟩ := Description.exists_of_toMachine hstate hm
        exact hnames.states path text d hpath hread hd rule hrule

/-- A build that failed. -/
theorem avoids_of_build (hdisk : disk.WellFormed) {d : Display} {root : String} (hroot : Text.Avoids c root) {fault : BuildFault}
    (h : (m.build d root disk).1 = .error fault) : Text.Avoids c (CommandFault.build fault).advice := by
  rw [m.fst_build] at h
  rcases Graph.materialize_eq_error hdisk h with rfl | ⟨path, fault, rfl⟩ | ⟨u, rfl⟩
  · refine Text.avoids_append.2 ⟨?_, Text.avoids_ofList hc (by decide)⟩
    exact Text.avoids_label hc (by decide) hroot
  · refine Text.avoids_label hc (by decide) (Text.avoids_append.2 ⟨?_, fault.avoids_message hc⟩)
    refine Text.avoids_append.2 ⟨?_, Text.avoids_ofList hc (by decide)⟩
    exact Text.avoids_label hc (by decide) (Text.avoids_quote hc path)
  · exact Text.avoids_label hc (by decide) (u.avoids_message hc)

/-- A build that fails shows its root and otherwise only what is quoted or fixed. -/
theorem avoids_of_executeBuild (hdisk : disk.WellFormed) {output : Option String} (hworkspace : Text.Avoids c workspace)
    (hroot : Text.Avoids c s.outputRoot) (houtput : ∀ path, output = some path → Text.Avoids c path)
    (h : (executeBuild s workspace output disk m).result = .error f) : Text.Avoids c f.advice := by
  have hslash : c ≠ '/' := fun he => by
    rw [he] at hc
    exact absurd hc (by decide)
  have havoids : Text.Avoids c (rootFor s workspace output) := by
    cases output with
    | none => exact Path.avoids_join hslash hworkspace hroot
    | some path => exact Path.avoids_join hslash hworkspace (houtput path rfl)
  rw [result_executeBuild] at h
  cases hbuild : (m.build s.display (rootFor s workspace output) disk).1 with
  | ok summary =>
    rw [hbuild] at h
    cases h
  | error fault =>
    rw [hbuild] at h
    cases h
    exact avoids_of_build hc hdisk havoids hbuild

/-- A plan that fails shows nothing from outside. -/
theorem avoids_of_executePlan {format : PlanFormat} (h : (executePlan s format disk m).result = .error f) : Text.Avoids c f.advice := by
  obtain ⟨plan, hplan⟩ := m.exists_plan_eq
  cases hfingerprint : m.graph.fingerprint s.display with
  | error u =>
    rw [executePlan_of_error hfingerprint] at h
    cases h
    exact Text.avoids_label hc (by decide) (u.avoids_message hc)
  | ok fingerprint =>
    rw [executePlan_of_ok hplan hfingerprint] at h
    cases hreport : planReport format plan fingerprint with
    | ok text =>
      rw [hreport] at h
      cases h
    | error fault =>
      rw [hreport] at h
      cases h
      cases fault
      exact Text.avoids_ofList hc (by decide)

/-- A command that failed. -/
theorem avoids_of_execute (hdisk : disk.WellFormed) (hnames : command.NamesAvoid s workspace disk c)
    (h : (command.execute s workspace disk).result = .error f) (hf : f.isReaderWorded = false) : Text.Avoids c f.advice := by
  obtain ⟨chosen, os, hchosen⟩ : ∃ chosen os, chooseMachine disk workspace command.machinePath? = (chosen, os) := ⟨_, _, rfl⟩
  cases chosen with
  | error fault =>
    have hresult : (command.execute s workspace disk).result = .error fault := by simp only [execute, hchosen]
    rw [hresult] at h
    cases h
    exact avoids_of_chooseMachine hc hnames hchosen hf
  | ok m =>
    have hresult : (command.execute s workspace disk).result = (command.executeWith s workspace disk m).result := by
      simp only [execute, hchosen]
    rw [hresult] at h
    cases command with
    | build machine output =>
      rw [executeWith] at h
      exact avoids_of_executeBuild hc hdisk hnames.base hnames.outputRoot (fun path hpath => hnames.output machine path (by rw [hpath])) h
    | plan machine format =>
      rw [executeWith] at h
      exact avoids_of_executePlan hc h

end Command

/-! ## Settings -/

namespace Settings

/-- Settings are not refused before all sources are merged. -/
theorem merge_ne_invalid {faults : List SettingFault} (sources : List (Except String Source)) :
    ∀ under, merge under sources ≠ .error (.invalid faults) := by
  induction sources with
  | nil => nofun
  | cons source sources ih =>
    intro under h
    cases source with
    | error text => cases h
    | ok s =>
      rw [merge] at h
      split at h
      · exact ih _ h
      · cases h

/-- Settings are refused for at least one fault. -/
theorem ne_nil_of_invalid {lib : Library} {orders : Orders} {env : Environment} {disk : Disk} {workspace : String}
    {file : Option String} {faults : List SettingFault}
    (h : (loadFor lib orders env disk workspace file).1 = .error (.invalid faults)) : faults ≠ [] := by
  obtain ⟨misfit, hload⟩ := exists_loadFor_eq lib orders disk workspace file env
  rw [hload] at h
  simp only [ofSources, bind, Except.bind] at h
  split at h
  · rename_i f hmerge
    cases h
    exact absurd hmerge (merge_ne_invalid _ _)
  · split at h
    · cases h
    · split at h
      · cases h
      · rename_i hfaults
        cases h
        simpa using hfaults

end Settings

/-- The first line of the message for settings that are not acceptable. -/
def validationLine : String := "Configuration error: Configuration validation failed:"

/-- Settings that are not acceptable: a heading and one line for each fault. -/
theorem advice_invalid {faults : List SettingFault} (h : faults ≠ []) :
    (CommandFault.settings (.invalid faults)).advice = "\n".intercalate (validationLine :: faults.map SettingFault.message) := by
  have hlabel : "Configuration error: " ++ "Configuration validation failed:\n" = validationLine ++ "\n" := by decide
  rw [String.intercalate_cons_of_ne_nil (by simpa using h), ← hlabel, String.append_assoc]
  rfl

/-- None of these lines has a line break in it. -/
theorem avoids_validation {c : Char} (hc : c ∈ Text.lineBreaks) {faults : List SettingFault} {line : String}
    (h : line ∈ validationLine :: faults.map SettingFault.message) : Text.Avoids c line := by
  rcases List.mem_cons.1 h with rfl | h
  · exact Text.avoids_ofList hc (by decide)
  · obtain ⟨f, -, rfl⟩ := List.mem_map.1 h
    exact f.avoids_message hc

/-- Settings that are not acceptable are reported with a line for each fault. -/
theorem linesOf_invalid {faults : List SettingFault} (h : faults ≠ []) :
    Report.linesOf (CommandFault.settings (.invalid faults)).advice =
      validationLine.toList :: faults.map fun f => f.message.toList := by
  have hlines : ∀ line ∈ validationLine :: faults.map SettingFault.message, Report.OneLine line :=
    fun line hline => avoids_validation (by decide) hline
  rw [advice_invalid h, Report.linesOf_intercalate (List.cons_ne_nil _ _) hlines, List.map_cons, List.map_map]
  rfl

/-- Lines put together have no other line break than those between them. -/
theorem Text.eq_of_mem_intercalate {c : Char} {lines : List String} (h : c ∈ ("\n".intercalate lines).toList)
    (hlines : ∀ line ∈ lines, Text.Avoids c line) : c = '\n' := by
  induction lines with
  | nil => cases h
  | cons line lines ih =>
    have hline := hlines line List.mem_cons_self
    cases lines with
    | nil =>
      rw [String.intercalate_singleton] at h
      exact absurd h hline
    | cons next lines =>
      rw [String.intercalate_cons_cons, String.toList_append, String.toList_append, List.mem_append, List.mem_append] at h
      rcases h with (h | h) | h
      · exact absurd h hline
      · exact List.mem_singleton.1 h
      · exact ih h fun line' hline' => hlines line' (List.mem_cons_of_mem line hline')

/-- The message has line breaks, and all of them are newlines. -/
theorem mem_advice_invalid_iff {c : Char} (hc : c ∈ Text.lineBreaks) {faults : List SettingFault} (h : faults ≠ []) :
    c ∈ (CommandFault.settings (.invalid faults)).advice.toList ↔ c = '\n' := by
  rw [advice_invalid h]
  constructor
  · exact fun hmem => Text.eq_of_mem_intercalate hmem fun line hline => avoids_validation hc hline
  · rintro rfl
    rw [String.intercalate_cons_of_ne_nil (by simpa using h)]
    simp

/-- Failures are reported on one line, apart from the words of what reads descriptions and settings: no line break stands in the
message of settings that cannot be loaded, nor in that of a command whose names have none. Only settings that are not acceptable
take more lines, one for each fault below the first. -/
theorem failures_on_one_line (c : Char) (hc : c ∈ Text.lineBreaks) :
    (∀ lib orders env disk workspace file fault, (Settings.loadFor lib orders env disk workspace file).1 = .error fault →
      (∀ text, fault ≠ .unreadable text) →
      (c ∈ (CommandFault.settings fault).advice.toList ↔ c = '\n' ∧ ∃ faults, fault = .invalid faults) ∧
        ∀ faults, fault = .invalid faults → faults ≠ [] ∧ Report.linesOf (CommandFault.settings fault).advice =
          "Configuration error: Configuration validation failed:".toList :: faults.map fun f => f.message.toList) ∧
    ∀ (command : Command) s workspace disk fault, disk.WellFormed → command.NamesAvoid s workspace disk c →
      (command.execute s workspace disk).result = .error fault → fault.isReaderWorded = false → c ∉ fault.advice.toList := by
  refine ⟨fun lib orders env disk workspace file fault h hread => ?_, fun command s workspace disk fault hdisk hnames h hf => ?_⟩
  · cases fault with
    | unreadable text => exact absurd rfl (hread text)
    | place place =>
      refine ⟨⟨fun hmem => ?_, fun ⟨_, _, hfaults⟩ => nomatch hfaults⟩, fun _ hfaults => nomatch hfaults⟩
      cases place
      exact absurd hmem (Text.avoids_label hc (by decide) (Text.avoids_ofList hc (by decide)))
    | invalid faults =>
      have hne := Settings.ne_nil_of_invalid h
      refine ⟨(mem_advice_invalid_iff hc hne).trans ⟨fun hbreak => ⟨hbreak, faults, rfl⟩, And.left⟩, fun faults' hfaults => ?_⟩
      cases hfaults
      exact ⟨hne, linesOf_invalid hne⟩
  · exact Command.avoids_of_execute hc hdisk hnames h hf

/-- A machine file with a line break where a symbol should be. -/
def slipText : String := "initial = \"A\"\n[[rule]]\nstate = \"A\"\nread = \"0\\n\"\nnext = \"A\"\nwrite = \"00\"\nmoves = \"NN\"\n"

/-- A disk with this file. -/
def slipDisk : Disk := (Disk.workingIn []).put ["m.toml"] (.file slipText.toUTF8)

/-- What the file describes. -/
def slipDescription : Description := ⟨"A", "", ∅, [⟨"A", "0\n", "A", "00", "NN"⟩]⟩

theorem wellFormed_slipDisk : slipDisk.WellFormed := by
  have hgrows : Disk.Grows (Disk.workingIn []) slipDisk := Disk.Grows.add (l := []) (.file slipText.toUTF8) .refl rfl rfl
  exact hgrows.wellFormed Disk.wellFormed_empty

/-- What is read and what fails. It is stated at once, so that everything is evaluated once. -/
theorem evaluated_slip :
    slipDisk.readText (Path.join "." "m.toml") = .ok slipText ∧
      Description.ofText (.ofPath (Path.join "." "m.toml")) slipText = .ok slipDescription ∧
      ((Command.plan (some "m.toml") .text).execute .standard "." slipDisk).result =
        .error (.machine (.machine (.description (.invalidRule 0 "A" (.read (.unexpected '\n')))))) ∧
      (Settings.loadFor .standard .listed ⟨[("TAPELINK__RENDER__WIDTH", "2")]⟩ (.workingIn []) "." none).1 =
        .error (.invalid [.widthTooSmall 2]) := by
  decide +kernel

theorem namesAvoid_slip : (Command.plan (some "m.toml") .text).NamesAvoid .standard "." slipDisk '\n' where
  base := by decide
  outputRoot := by decide
  output machine path h := by cases h
  states path text d hpath hread hd rule hrule := by
    obtain ⟨htext, hdescription, -⟩ := evaluated_slip
    cases hpath
    rw [htext] at hread
    cases hread
    rw [hdescription] at hd
    cases hd
    rw [List.mem_singleton.1 hrule]
    decide

/-- The fault of this file is reported on one line, in which the line break is quoted. -/
theorem failures_on_one_line_slip :
    '\n' ∈ Text.lineBreaks ∧ slipDisk.WellFormed ∧ (Command.plan (some "m.toml") .text).NamesAvoid .standard "." slipDisk '\n' ∧
      ∃ fault, ((Command.plan (some "m.toml") .text).execute .standard "." slipDisk).result = .error fault ∧
        fault.isReaderWorded = false ∧ '\n' ∉ fault.advice.toList := by
  have hbreak : '\n' ∈ Text.lineBreaks := by decide
  refine ⟨hbreak, wellFormed_slipDisk, namesAvoid_slip, _, evaluated_slip.2.2.1, rfl, ?_⟩
  exact (failures_on_one_line '\n' hbreak).2 _ _ _ _ _ wellFormed_slipDisk namesAvoid_slip evaluated_slip.2.2.1 rfl

/-- A width that is too small is reported on two lines. -/
theorem narrow_width_takes_two_lines :
    (Settings.loadFor .standard .listed ⟨[("TAPELINK__RENDER__WIDTH", "2")]⟩ (.workingIn []) "." none).1 =
        .error (.invalid [.widthTooSmall 2]) ∧
      '\n' ∈ (CommandFault.settings (.invalid [.widthTooSmall 2])).advice.toList :=
  ⟨evaluated_slip.2.2.2, (mem_advice_invalid_iff (by decide) (List.cons_ne_nil _ _)).2 rfl⟩

end DispatchTree
