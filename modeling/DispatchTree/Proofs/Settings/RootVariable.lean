import Mathlib.Data.List.Permutation
import DispatchTree.Proofs.Settings.Printed
import DispatchTree.Proofs.Settings.Variables

/-!
# A variable for the output root

The variable for the root decides what stands at the root, if no other variable says anything of it, and in whatever order the
variables are gone through (`gives_rootVariable`). It leaves all other settings as they are (`restIn?_rootEntry`). So the settings
that are loaded with it are those without it, with the text of its value as the root (`root_variable_printed`).
-/

namespace DispatchTree

namespace Settings

/-! ## What stands at the root -/

/-- The variable that sets the root. -/
def rootVariable : String := "TAPELINK__OUTPUT__ROOT"

/-- The variable leads to the root. -/
theorem pathOf_root : pathOf "output.root" = [.name "output", .name "root"] := rfl

theorem lower_root : Text.lower "output" = "output" ∧ Text.lower "root" = "root" := by decide +kernel

/-- The entry of the variable for the root. -/
def rootEntry (v : String) : String × Document := ("output.root", Environment.variableValue v)

/-- A value that is neither a list nor a table is one write. -/
theorem valueWrites_of_value {d : Document} (h : Held.of d = .value d) : valueWrites d = [⟨[], .value d⟩] := by
  cases d with
  | table es => cases h
  | list items => cases h
  | _ => rfl

/-- The variable puts its value at the root. -/
theorem writes_rootEntry (v : String) :
    pathWrites (rootEntry v).2 (pathOf (rootEntry v).1) = [⟨["output", "root"], .value (Environment.variableValue v)⟩] := by
  simp [rootEntry, pathOf_root, pathWrites, valueWrites_of_value (Environment.of_variableValue v), lower_root, Write.under]

/-- A variable that says nothing of the root has another key. -/
theorem ne_rootEntry_of_silent {s : Source} (h : s.Silent ["output", "root"]) {e : String × Document} (he : e ∈ s) (v : String) :
    e.1 ≠ (rootEntry v).1 := by
  intro hkey
  obtain ⟨w, hw⟩ := List.exists_mem_of_ne_nil _ (valueWrites_ne_nil e.2)
  have hwrites : pathWrites e.2 (pathOf e.1) = ((valueWrites e.2).map (.under "root")).map (.under "output") := by
    rw [hkey, rootEntry, pathOf_root, pathWrites, pathWrites, pathWrites, lower_root.1, lower_root.2]
  have hmem : (w.under "root").under "output" ∈ s.writes := by
    refine List.mem_flatMap.2 ⟨e, he, ?_⟩
    rw [hwrites]
    exact List.mem_map_of_mem (List.mem_map_of_mem hw)
  exact (h _ hmem).1 (by simp [Write.under])

/-- An entry with a key of its own stands among the entries that are left, and changes nothing about the others. -/
theorem exists_latest_eq {front rest : Source} {e : String × Document} (h : ∀ e' ∈ front ++ rest, e'.1 ≠ e.1) :
    ∃ front' rest', latest (front ++ e :: rest) = front' ++ e :: rest' ∧ latest (front ++ rest) = front' ++ rest' := by
  induction front with
  | nil =>
    have hnone : (latest rest).any (·.1 == e.1) = false := by
      rw [List.any_eq_false]
      intro e' he'
      simpa using h e' (mem_of_mem_latest he')
    exact ⟨[], latest rest, by simp [latest, hnone], rfl⟩
  | cons first front ih =>
    rw [List.cons_append, List.forall_mem_cons] at h
    obtain ⟨front', rest', hwith, hwithout⟩ := ih h.2
    have hany : (front' ++ e :: rest').any (·.1 == first.1) = (front' ++ rest').any (·.1 == first.1) := by
      have hne : (e.1 == first.1) = false := by simpa using h.1.symm
      simp [hne]
    rw [List.cons_append, latest, List.cons_append, latest, hwith, hwithout, hany]
    split
    · exact ⟨front', rest', rfl, rfl⟩
    · exact ⟨first :: front', rest', rfl, rfl⟩

/-- The variables with the one for the root are those without it and its entry. -/
theorem exists_source_rootVariable {before after : List (String × String)}
    (h : (⟨before ++ after⟩ : Environment).source.Silent ["output", "root"]) (v : String) :
    ∃ front rest, (⟨before ++ (rootVariable, v) :: after⟩ : Environment).source = front ++ rootEntry v :: rest ∧
      (⟨before ++ after⟩ : Environment).source = front ++ rest := by
  have hkey : Environment.variableKey? rootVariable = some "output.root" := by decide +kernel
  unfold Environment.source at h ⊢
  rw [List.filterMap_append] at h ⊢
  rw [List.filterMap_append, List.filterMap_cons]
  simp only [hkey, Option.map_some]
  refine exists_latest_eq fun e he => ?_
  obtain ⟨e', he', hsame⟩ := exists_mem_latest he
  rw [← hsame]
  exact ne_rootEntry_of_silent h he' v

/-- In whatever order the variables are gone through, the one for the root has others in front of it and behind it, which can be gone
through without it in the same order. -/
theorem exists_order_rootVariable {before after : List (String × String)}
    (h : (⟨before ++ after⟩ : Environment).source.Silent ["output", "root"]) (v : String) (o : Order) :
    ∃ front rest, o.source (⟨before ++ (rootVariable, v) :: after⟩ : Environment).source = front ++ rootEntry v :: rest ∧
      ∃ o' : Order, o'.source (⟨before ++ after⟩ : Environment).source = front ++ rest := by
  obtain ⟨front, rest, hwith, hwithout⟩ := exists_source_rootVariable h v
  have hperm := perm_source o (Environment.plain_source ⟨before ++ (rootVariable, v) :: after⟩)
  rw [hwith] at hperm ⊢
  have hmem : rootEntry v ∈ o.source (front ++ rootEntry v :: rest) := hperm.mem_iff.2 (by simp)
  obtain ⟨front', rest', hsource⟩ := List.append_of_mem hmem
  refine ⟨front', rest', hsource, exists_source_eq (Environment.plain_source _) ?_⟩
  rw [hsource] at hperm
  rw [hwithout]
  exact ((List.perm_middle.symm.trans hperm).trans List.perm_middle).cons_inv

/-- The variable for the root decides what stands at the root, if no other variable says anything of it. -/
theorem gives_rootVariable {front rest : Source} (h : Source.Silent (front ++ rest) ["output", "root"]) (v : String) :
    Source.Gives (front ++ rootEntry v :: rest) ["output", "root"] (Environment.variableValue v) := by
  have hwrites : Source.writes (front ++ rootEntry v :: rest) =
      Source.writes front ++ ⟨["output", "root"], .value (Environment.variableValue v)⟩ :: Source.writes rest := by
    rw [Source.writes, List.flatMap_append, List.flatMap_cons, writes_rootEntry]
    rfl
  have hothers : Source.writes (front ++ rest) = Source.writes front ++ Source.writes rest := List.flatMap_append
  rw [Source.Silent, hothers] at h
  rw [Source.Gives, hwrites]
  refine ⟨⟨_, List.mem_append_right _ List.mem_cons_self, rfl, rfl⟩, fun w hw => ?_⟩
  rcases List.mem_append.1 hw with hfront | hrest
  · exact .inr (h w (List.mem_append_left _ hfront))
  · rcases List.mem_cons.1 hrest with rfl | hrest
    · exact .inl ⟨rfl, rfl⟩
    · exact .inr (h w (List.mem_append_right _ hrest))

/-- The section for the output has one member, which is the root itself. -/
theorem hasPart_rootMembers : HasPart rootMembers "root" id fun d _ r => asText? d = some r := by
  refine ⟨by decide, ?_, ?_⟩ <;> simp [rootMembers]

/-- The root is the text of what stands at its path. -/
theorem readPart_root {d m : Document} (hd : Tidy d) (hm : entryAt ["output", "root"] (some d) = some m) {r : String}
    (hr : asText? m = some r) (x : String) : readPart rootMembers ((entriesOf d).lookup "output") x = some r := by
  cases ho : (entriesOf d).lookup "output" with
  | none =>
    rw [entryAt, Option.bind_some, ho] at hm
    cases hm
  | some o =>
    rw [entryAt, Option.bind_some, ho] at hm
    have hroot : (entriesOf o).lookup "root" = some m := hm
    cases o with
    | table es =>
      have hnames := (hd.member ho).names
      have hsome : (readEntries rootMembers es x).isSome := by
        refine isSome_readEntries hnames (fun member hmember d hlookup s => ?_) x
        cases List.mem_singleton.1 hmember
        cases hroot.symm.trans hlookup
        exact Option.isSome_iff_exists.2 ⟨r, hr⟩
      obtain ⟨r', hr'⟩ := Option.isSome_iff_exists.1 hsome
      have hbecomes := hasPart_rootMembers.readEntries hnames hr'
      rw [hroot] at hbecomes
      cases hbecomes with
      | read hread => exact hr'.trans (hread.symm.trans hr)
    | _ => cases hroot

/-! ## What stands elsewhere -/

/-- A member of a document, or nothing. -/
def memberOf (name : String) (d : Document) : Document := ((entriesOf d).lookup name).getD .null

/-- What was put under a name is the member of that name. -/
theorem memberOf_putEntry (name : String) (m : Document) (es : List (String × Document)) :
    memberOf name (.table (putEntry name m es)) = m := by
  rw [memberOf, entriesOf, lookup_putEntry, if_pos rfl, Option.getD_some]

/-- Documents that differ in the root only. -/
structure SameButRoot (d d' : Document) : Prop where
  sections : ∀ name, name ≠ "output" → AgreeOn name d d'
  output : ∀ name, name ≠ "root" → AgreeOn name (memberOf "output" d) (memberOf "output" d')

/-- A path that leads past the root: to another section, or to something else in its own. -/
inductive PassesRoot : List Step → Prop
  | elsewhere {top : String} {rest : List Step} (htop : Text.lower top ≠ "output") : PassesRoot (.name top :: rest)
  | beside {top k : String} {rest : List Step} (htop : Text.lower top = "output") (hk : Text.lower k ≠ "root") :
    PassesRoot (.name top :: .name k :: rest)

/-- An assignment below the output section is an assignment in that section. -/
theorem assign_output {value d e : Document} {top : String} {next : Step} {rest : List Step} (htop : Text.lower top = "output")
    (h : assign value (.name top :: next :: rest) d = .ok e) :
    assign value (next :: rest) (memberOf "output" d) = .ok (memberOf "output" e) := by
  obtain ⟨m, hm, rfl⟩ := exists_of_assign_name h
  rw [htop] at hm ⊢
  rw [memberOf_putEntry]
  exact hm

/-- A value at the end of a path that leads past the root leaves documents that differ in the root only. -/
theorem SameButRoot.assign {value d d' e : Document} {steps : List Step} (hd : SameButRoot d d') (hsteps : PassesRoot steps)
    (h : assign value steps d = .ok e) : ∃ e', Settings.assign value steps d' = .ok e' ∧ SameButRoot e e' := by
  cases hsteps with
  | @elsewhere top rest htop =>
    obtain ⟨e', h', hagree⟩ := (hd.sections _ htop).assign h
    refine ⟨e', h', fun name hname => ?_, fun name hname => ?_⟩
    · by_cases hkey : Text.lower top = name
      · exact hkey ▸ hagree
      · exact (agreeOn_of_assign hkey h).trans ((hd.sections name hname).trans (agreeOn_of_assign hkey h').symm)
    · have houtput : memberOf "output" e = memberOf "output" d := by rw [memberOf, agreeOn_of_assign htop h, memberOf]
      have houtput' : memberOf "output" e' = memberOf "output" d' := by rw [memberOf, agreeOn_of_assign htop h', memberOf]
      rw [houtput, houtput']
      exact hd.output name hname
  | @beside top k rest htop hk =>
    have hm := assign_output htop h
    obtain ⟨m', hm', hagree⟩ := (hd.output _ hk).assign hm
    have hafter : memberAfter value (.name k :: rest) ((entriesOf d').lookup (Text.lower top)) = .ok m' := by
      rw [htop]
      exact hm'
    have h' := assign_of_memberAfter hafter
    refine ⟨_, h', fun name hname => ?_, fun name hname => ?_⟩
    · have hother : Text.lower top ≠ name := by
        rw [htop]
        exact hname.symm
      exact (agreeOn_of_assign hother h).trans ((hd.sections name hname).trans (agreeOn_of_assign hother h').symm)
    · rw [← Except.ok.inj (hm'.symm.trans (assign_output htop h'))]
      by_cases hkey : Text.lower k = name
      · exact hkey ▸ hagree
      · exact (agreeOn_of_assign hkey hm).trans ((hd.output name hname).trans (agreeOn_of_assign hkey hm').symm)

/-- Values at the end of paths that lead past the root leave documents that differ in the root only. -/
theorem SameButRoot.addSource {d d' e : Document} {s : Source} (hd : SameButRoot d d') (hs : ∀ entry ∈ s, PassesRoot (pathOf entry.1))
    (h : addSource d s = .ok e) : ∃ e', Settings.addSource d' s = .ok e' ∧ SameButRoot e e' := by
  induction s generalizing d d' with
  | nil =>
    cases h
    exact ⟨d', rfl, hd⟩
  | cons entry s ih =>
    rw [List.forall_mem_cons] at hs
    obtain ⟨first, hfirst, hrest⟩ := exists_of_addSource h
    obtain ⟨first', hfirst', hsame⟩ := hd.assign hs.1 hfirst
    obtain ⟨e', he', hsame⟩ := ih hsame hs.2 hrest
    exact ⟨e', addSource_cons_of_ok hfirst' he', hsame⟩

/-- A value can always be put at the root, and nothing else changes. -/
theorem exists_assign_root (value d : Document) : ∃ e, assign value (pathOf "output.root") d = .ok e ∧ SameButRoot d e := by
  have hmember : memberAfter value [.name "root"] ((entriesOf d).lookup (Text.lower "output")) =
      .ok (overlay "root" value (((entriesOf d).lookup (Text.lower "output")).getD .null)) := rfl
  have h := assign_of_memberAfter hmember
  rw [pathOf_root]
  have hm := assign_output lower_root.1 h
  refine ⟨_, h, fun name hname => (agreeOn_of_assign ?_ h).symm, fun name hname => (agreeOn_of_assign ?_ hm).symm⟩
  · rw [lower_root.1]
    exact hname.symm
  · rw [lower_root.2]
    exact hname.symm

/-- A key with a value that is neither a list nor a table leads past the root if it says nothing of it. -/
theorem passesRoot_of_apart {key : String} {value : Document} (hvalue : Held.of value = .value value)
    (h : ∀ w ∈ pathWrites value (pathOf key), w.Apart ["output", "root"]) : PassesRoot (pathOf key) := by
  obtain ⟨top, rest, hpath⟩ := exists_pathOf_eq key
  rw [hpath] at h ⊢
  by_cases htop : Text.lower top = "output"
  · cases rest with
    | nil =>
      have hapart := h ⟨["output"], .value value⟩ (by simp [pathWrites, valueWrites_of_value hvalue, Write.under, htop])
      cases hapart.2 (by simp)
    | cons next rest =>
      cases next with
      | index i =>
        have hapart := h ⟨["output"], .list⟩ (by simp [pathWrites, Write.under, htop])
        cases hapart.2 (by simp)
      | name k =>
        refine .beside htop fun hk => ?_
        obtain ⟨w, hw⟩ := List.exists_mem_of_ne_nil _ (pathWrites_ne_nil value rest)
        have hapart := h ((w.under "root").under "output") (by
          rw [pathWrites, pathWrites, htop, hk]
          exact List.mem_map_of_mem (List.mem_map_of_mem hw))
        exact hapart.1 (by simp [Write.under])
  · exact .elsewhere htop

/-- Entries that say nothing of the root lead past it. -/
theorem passesRoot_of_silent {s : Source} (hplain : s.Plain) (h : s.Silent ["output", "root"]) :
    ∀ entry ∈ s, PassesRoot (pathOf entry.1) := fun entry hentry =>
  passesRoot_of_apart (hplain entry hentry) fun w hw => h w (List.mem_flatMap.2 ⟨entry, hentry, hw⟩)

/-! ## Loading -/

/-- The width and the journal settings in a merged document. -/
def restOf? (d : Document) : Option (UInt16 × JournalSettings) :=
  (readPart widthMembers ((entriesOf d).lookup "render") standard.width).bind fun w => (journalOf? d).map (w, ·)

/-- The width and the journal settings that sources give, whatever they say of the root. -/
def restIn? (sources : List (Except String Source)) : Option (UInt16 × JournalSettings) := (gathered sources).toOption.bind restOf?

/-- The width and the journal settings that a run is given, whatever is said of the root. -/
def restFor? (lib : Library) (orders : Orders) (env : Environment) (disk : Disk) (workspace : String) (file : Option String) :
    Option (UInt16 × JournalSettings) := restIn? (sourcesFor lib orders env disk workspace file)

/-- A value that stands at a path is the entry there. -/
theorem entryAt_of_held {path : List String} {d v : Document} (h : held path (some d) = .value v) :
    entryAt path (some d) = some v := by
  unfold held at h
  cases hm : entryAt path (some d) with
  | none =>
    rw [hm] at h
    cases h
  | some m =>
    rw [hm] at h
    cases m <;> cases h <;> rfl

/-- What the last source puts at the root, whatever is below it, becomes the root as a text, if the rest can be read. -/
theorem ofSources_of_heldBy {misfit : String} {files : List (Except String Source)} {s : Source} {w : UInt16} {j : JournalSettings}
    (hrest : restIn? (files ++ [.ok s]) = some (w, j)) (hwidth : minWidth ≤ w.toNat) {v : Document}
    (hv : ∀ lower : List Source, heldBy (lower ++ [s]) ["output", "root"] = .value v) {r : String} (hr : asText? v = some r)
    (hne : r ≠ "") : ofSources misfit (files ++ [.ok s]) = .ok ⟨w, r, j⟩ := by
  obtain ⟨d, hd, hrest⟩ := exists_of_toOption_bind hrest
  obtain ⟨w', hw, hrest⟩ := Option.bind_eq_some_iff.1 hrest
  obtain ⟨j', hj, hpair⟩ := Option.map_eq_some_iff.1 hrest
  cases hpair
  obtain ⟨htidy, htable, hsources⟩ := shape_of_gathered hd
  rw [gathered] at hd
  obtain ⟨first, -, hlater⟩ := addSource_of_merge hd
  obtain ⟨layers, hlayers⟩ := exists_layers_of_merge hlater
  obtain ⟨lower, last, rfl, hlower, hlast⟩ := List.map_eq_append_iff.1 hlayers.symm
  obtain ⟨source, rfl, hsource⟩ := List.map_eq_singleton_iff.1 hlast
  cases hsource
  have hmerge : merge (.table []) ((defaults :: lower ++ [s]).map .ok) = .ok d := by
    rw [List.cons_append, List.map_cons, ← hlayers]
    exact hd
  have hheld : held ["output", "root"] (some d) = .value v := (held_merge hmerge _).trans (hv (defaults :: lower))
  have hroot := readPart_root htidy (entryAt_of_held hheld) hr standard.outputRoot
  have hwide : ¬w.toNat < minWidth := Nat.not_lt.2 hwidth
  rw [hsources, ofDocument?_eq htidy htable, hw, hroot, hj]
  simp [checked_some, hwide, hne]

/-- The variable for the root is none of those that are looked up. -/
theorem get?_rootVariable (before after : List (String × String)) (v : String) {name : String} (hname : name ∈ Environment.lookedUp) :
    (⟨before ++ after⟩ : Environment).get? name = (⟨before ++ (rootVariable, v) :: after⟩ : Environment).get? name := by
  have hne : name ≠ rootVariable := by
    rintro rfl
    exact absurd hname (by decide)
  rw [Environment.get?, Environment.get?, List.lookup_append, List.lookup_append, lookup_cons_eq, if_neg hne]

/-- Documents that differ in the root only leave the same settings beside it. -/
theorem SameButRoot.restOf? {d d' : Document} (h : SameButRoot d d') : Settings.restOf? d' = Settings.restOf? d := by
  have hrender := h.sections "render" (by decide)
  have hlogging := h.sections "logging" (by decide)
  rw [AgreeOn] at hrender hlogging
  rw [Settings.restOf?, Settings.restOf?, journalOf?, journalOf?, hrender, hlogging]

/-- The variable for the root changes nothing but the root. -/
theorem restIn?_rootEntry {files : List (Except String Source)} {front rest : Source} (hplain : Source.Plain (front ++ rest))
    (hsilent : Source.Silent (front ++ rest) ["output", "root"]) (v : String) {r : UInt16 × JournalSettings}
    (h : restIn? (files ++ [.ok (front ++ rest)]) = some r) : restIn? (files ++ [.ok (front ++ rootEntry v :: rest)]) = some r := by
  obtain ⟨d, hd, hr⟩ := exists_of_toOption_bind h
  rw [gathered, ← List.cons_append] at hd
  obtain ⟨under, hfiles, hsource⟩ := exists_of_merge_append hd
  -- the documents part after the entries in front
  obtain ⟨first, hfirst, hbehind⟩ := exists_of_addSource_append hsource
  obtain ⟨first', hroot, hsame⟩ := exists_assign_root (rootEntry v).2 first
  have hpasses : ∀ entry ∈ rest, PassesRoot (pathOf entry.1) := fun entry hentry =>
    passesRoot_of_silent hplain hsilent entry (List.mem_append_right _ hentry)
  obtain ⟨d', hbehind', hsame⟩ := hsame.addSource hpasses hbehind
  have hsource' : addSource under (front ++ rootEntry v :: rest) = .ok d' :=
    addSource_append_of_ok hfirst (addSource_cons_of_ok hroot hbehind')
  rw [restIn?, gathered, ← List.cons_append, merge_append_of_ok hfiles hsource']
  exact hsame.restOf?.trans hr

/-- The variable for the root gives the text of the simplest value that it denotes, whether the settings are those of a file or of the
workspace, and in whatever order everything is gone through. All other settings are what they are without it. They have to be readable
in every order, and no other variable may say anything of the root. It gives its own text exactly if this is how the value is printed;
with a character that no number has it always does, unless it is a truth value. -/
theorem root_variable_printed (lib : Library) {before after : List (String × String)} {v : String} (hv : v ≠ "")
    (hothers : (⟨before ++ after⟩ : Environment).source.Silent ["output", "root"]) {disk : Disk} {workspace : String}
    {file : Option String}
    (hrest : ∀ orders, ∃ w j, restFor? lib orders ⟨before ++ after⟩ disk workspace file = some (w, j) ∧ minWidth ≤ w.toNat) :
    (∀ orders, ∃ orders' w j, restFor? lib orders' ⟨before ++ after⟩ disk workspace file = some (w, j) ∧
      (loadFor lib orders ⟨before ++ (rootVariable, v) :: after⟩ disk workspace file).1 = .ok ⟨w, printed v, j⟩) ∧
      (printed v = v ↔ isKept v = true) ∧
      (isTruthWord v = false → ∀ c ∈ v.toList, isNumberChar c = false → printed v = v) := by
  refine ⟨fun orders => ?_, printed_eq_iff v, fun hword _ hc hchar => printed_of_char hword hc hchar⟩
  obtain ⟨front, rest, hsource, o', hwithout⟩ := exists_order_rootVariable hothers v (orders.source .variables)
  obtain ⟨w, j, hwj, hwidth⟩ := hrest (orders.withVariables o')
  refine ⟨orders.withVariables o', w, j, hwj, ?_⟩
  have hfiles : sourcesFor lib (orders.withVariables o') ⟨before ++ after⟩ disk workspace file =
      (filesFor lib orders ⟨before ++ (rootVariable, v) :: after⟩ disk workspace file).map Prod.snd ++ [.ok (front ++ rest)] := by
    rw [sourcesFor, filesFor_withVariables, filesFor_congr _ _ _ _ _ fun _ => get?_rootVariable before after v, ← hwithout]
    rfl
  have hplain : Source.Plain (front ++ rest) := by
    intro e he
    rw [← hwithout] at he
    exact Environment.plain_source _ e ((perm_source o' (Environment.plain_source _)).mem_iff.1 he)
  have hsilent : Source.Silent (front ++ rest) ["output", "root"] := hwithout ▸ hothers.source o'
  rw [restFor?, hfiles] at hwj
  obtain ⟨misfit, hload⟩ := exists_loadFor_eq lib orders disk workspace file ⟨before ++ (rootVariable, v) :: after⟩
  rw [hload, sourcesFor, hsource]
  exact ofSources_of_heldBy (restIn?_rootEntry hplain hsilent v hwj) hwidth
    (fun lower => heldBy_of_highest (.refl _) (gives_rootVariable hsilent v) (List.forall_mem_nil _))
    (asText?_variableValue v) (printed_ne_empty hv)

/-- A variable in front of the one for the root. -/
def widthVariables : List (String × String) := [("TAPELINK__RENDER__WIDTH", "80")]

/-- Variables behind the one for the root. One of them puts a list beside the root. -/
def levelVariables : List (String × String) := [("TAPELINK__LOGGING__LEVEL", "debug"), ("TAPELINK__OUTPUT__NOTES[2]", "x")]

/-- What is read next to a number with zeros in front, in every order. It is stated at once, so that everything is evaluated once. -/
theorem evaluated_padded :
    (⟨widthVariables ++ levelVariables⟩ : Environment).source.Silent ["output", "root"] ∧
      (workspaceFiles ⟨widthVariables ++ levelVariables⟩ ".").filter (fun file => (Disk.workingIn []).pathExists file.2) = [] ∧
      (∀ s ∈ (⟨widthVariables ++ levelVariables⟩ : Environment).source.permutations',
        restIn? [.ok s] = some (80, { JournalSettings.standard with level := "debug" })) ∧
      printed "-007" = "-7" := by decide +kernel

/-- The settings beside the root are the same in every order. -/
theorem restFor?_padded (orders : Orders) : restFor? .standard orders ⟨widthVariables ++ levelVariables⟩ (.workingIn []) "." none =
    some (80, { JournalSettings.standard with level := "debug" }) := by
  obtain ⟨-, hfiles, hrest, -⟩ := evaluated_padded
  rw [restFor?, sourcesFor, filesFor, presentLayers, hfiles]
  exact hrest _ (List.mem_permutations'.2 (perm_source _ (Environment.plain_source _)))

/-- A number loses the zeros in front of it on its way to the root. -/
theorem root_variable_printed_padded :
    (⟨widthVariables ++ levelVariables⟩ : Environment).source.Silent ["output", "root"] ∧ ∀ orders,
      restFor? .standard orders ⟨widthVariables ++ levelVariables⟩ (.workingIn []) "." none =
        some (80, { JournalSettings.standard with level := "debug" }) ∧
      (loadFor .standard orders ⟨widthVariables ++ (rootVariable, "-007") :: levelVariables⟩ (.workingIn []) "." none).1 =
        .ok ⟨80, "-7", { JournalSettings.standard with level := "debug" }⟩ := by
  obtain ⟨hothers, -, -, hprinted⟩ := evaluated_padded
  have hrest : ∀ orders, ∃ w j, restFor? .standard orders ⟨widthVariables ++ levelVariables⟩ (.workingIn []) "." none = some (w, j) ∧
      minWidth ≤ w.toNat := fun orders => ⟨80, _, restFor?_padded orders, by decide⟩
  have hloaded := (root_variable_printed .standard (by decide : "-007" ≠ "") hothers hrest).1
  refine ⟨hothers, fun orders => ⟨restFor?_padded orders, ?_⟩⟩
  obtain ⟨orders', w, j, hwj, hload⟩ := hloaded orders
  rw [restFor?_padded orders'] at hwj
  cases hwj
  rw [hload, hprinted]

/-- Numbers and truth values do not become the root as they are written. -/
theorem root_variable_not_literal :
    (["007", "TRUE", "infinity", "1.50", "1e5"].map fun v => load .standard .listed ⟨[(rootVariable, v)]⟩ (.workingIn []) ".") =
      ["7", "true", "inf", "1.5", "100000"].map fun r => .ok { standard with outputRoot := r } := by decide +kernel

end Settings

end DispatchTree
