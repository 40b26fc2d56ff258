import DispatchTree.Proofs.Settings.Layers

/-!
# Settings and what stands in a document

`Takes` says of settings that they are what stands at the paths of a document: each setting is the value at its own path, taken for
the kind of the setting, or the default where there is nothing. Reading a document gives the settings that are taken from it, if
there are any (`ofDocument?_of_takes`), and no others as long as no list stands in the place of a section (`takes_of_ofDocument?`).
-/

namespace DispatchTree.Settings

/-- A setting is the value that stands at its path, or the default where there is nothing. -/
inductive Taken {τ : Type} (read : Document → Option τ) (standard : τ) : τ → Held → Prop
  | absent : Taken read standard standard .nothing
  | given {d : Document} {x : τ} (h : read d = some x) : Taken read standard x (.value d)

instance {τ : Type} [DecidableEq τ] (read : Document → Option τ) (standard x : τ) (h : Held) : Decidable (Taken read standard x h) :=
  match h with
  | .nothing => decidable_of_iff (x = standard) ⟨fun h => h ▸ .absent, fun | .absent => rfl⟩
  | .value d => decidable_of_iff (read d = some x) ⟨.given, fun | .given h => h⟩
  | .list => isFalse nofun
  | .table => isFalse nofun

/-- The paths of the sections. -/
def sectionPaths : List (List String) := [["render"], ["output"], ["logging"]]

/-- Settings are what stands at the paths of the settings. -/
structure Takes (stands : List String → Held) (s : Settings) : Prop where
  sections : ∀ path ∈ sectionPaths ++ [["logging", "modules"]], stands path = .nothing ∨ stands path = .table
  width : Taken asWidth? standard.width s.width (stands ["render", "width"])
  root : Taken asText? standard.outputRoot s.outputRoot (stands ["output", "root"])
  level : Taken asText? standard.journal.level s.journal.level (stands ["logging", "level"])
  format : Taken asText? standard.journal.format s.journal.format (stands ["logging", "format"])
  output : Taken asText? standard.journal.output s.journal.output (stands ["logging", "output"])
  file : Taken asText? standard.journal.file s.journal.file (stands ["logging", "file"])
  color : Taken asBool? standard.journal.color s.journal.color (stands ["logging", "color"])
  /-- The level of a part of the program, under the name of the part. -/
  modules : ∀ name : String, Taken (fun d => (asText? d).map some) none s.journal.modules[name]? (stands ["logging", "modules", name])

/-! ## Values of a kind -/

/-- A reader takes neither lists nor tables. -/
def TakesValues {τ : Type} (read : Document → Option τ) : Prop := ∀ d x, read d = some x → Held.of d = .value d

/-- A reader that refuses lists and tables takes values only. -/
theorem takesValues_of_refuses {τ : Type} {read : Document → Option τ} (hlist : ∀ items, read (.list items) = none)
    (htable : ∀ es, read (.table es) = none) : TakesValues read := by
  intro d x h
  cases d with
  | list items =>
    rw [hlist items] at h
    cases h
  | table es =>
    rw [htable es] at h
    cases h
  | _ => rfl

theorem takesValues_asText? : TakesValues asText? := takesValues_of_refuses (fun _ => rfl) (fun _ => rfl)

theorem takesValues_asBool? : TakesValues asBool? := takesValues_of_refuses (fun _ => rfl) (fun _ => rfl)

theorem takesValues_asWidth? : TakesValues asWidth? := takesValues_of_refuses (fun _ => rfl) (fun _ => rfl)

section

variable {τ : Type} {read : Document → Option τ} {standard x y : τ}

/-- What such a reader takes is taken from what stands there. -/
theorem TakesValues.taken (hread : TakesValues read) {d : Document} (h : read d = some x) : Taken read standard x (.of d) := by
  rw [hread d x h]
  exact .given h

/-- What is taken from a document is read from it. -/
theorem Taken.read_eq {d : Document} (h : Taken read standard x (.of d)) : read d = some x := by
  cases d with
  | list _ => cases h
  | table _ => cases h
  | _ =>
    cases h with
    | given h => exact h

/-- Only one value is taken. -/
theorem Taken.unique {h : Held} (hx : Taken read standard x h) (hy : Taken read standard y h) : x = y := by
  cases hx with
  | absent =>
    cases hy
    rfl
  | given hx =>
    cases hy with
    | given hy => exact Option.some.inj (hx.symm.trans hy)

end

/-! ## Members of a section -/

/-- What becomes of a part of the settings: it is kept where there is no entry for it, and otherwise it is what `R` makes of the
entry. -/
inductive Becomes {τ : Type} (R : Document → τ → τ → Prop) : Option Document → τ → τ → Prop
  | kept (x : τ) : Becomes R none x x
  | read {d : Document} {x x' : τ} (h : R d x x') : Becomes R (some d) x x'

/-- A part of the settings that one member of a section is for, and what this member makes of it. -/
structure HasPart {σ τ : Type} (members : List (Member σ)) (name : String) (part : σ → τ) (R : Document → τ → τ → Prop) : Prop where
  found : (members.lookup name).isSome
  own : ∀ m ∈ members, m.1 = name → ∀ d s s', m.2 d s = some s' → R d (part s) (part s')
  other : ∀ m ∈ members, m.1 ≠ name → ∀ d s s', m.2 d s = some s' → part s' = part s

section

variable {σ τ : Type} {members : List (Member σ)} {es : List (String × Document)} {s s' : σ}

/-- The first entry of a table is passed over if no member has its name, and otherwise read before the others. -/
theorem readEntries_cons {k : String} {d : Document} (h : readEntries members ((k, d) :: es) s = some s') :
    (members.lookup k = none ∧ readEntries members es s = some s') ∨
      ∃ read first, members.lookup k = some read ∧ read d s = some first ∧ readEntries members es first = some s' := by
  rw [readEntries] at h
  cases hk : members.lookup k with
  | none =>
    rw [hk] at h
    exact .inl ⟨rfl, h⟩
  | some read =>
    rw [hk] at h
    obtain ⟨first, hfirst, hrest⟩ := Option.bind_eq_some_iff.1 h
    exact .inr ⟨read, first, rfl, hfirst, hrest⟩

/-- What becomes of a part when a table is read. -/
theorem HasPart.readEntries {name : String} {part : σ → τ} {R : Document → τ → τ → Prop} (hpart : HasPart members name part R)
    (hes : (es.map Prod.fst).Nodup) (h : readEntries members es s = some s') :
    Becomes R (es.lookup name) (part s) (part s') := by
  induction es generalizing s with
  | nil =>
    cases h
    exact .kept _
  | cons e es ih =>
    obtain ⟨k, d⟩ := e
    have hhead : es.lookup k = none := lookup_of_nodup hes
    rw [List.map_cons, List.nodup_cons] at hes
    rw [lookup_cons_eq]
    by_cases hk : name = k
    · subst hk
      rw [if_pos rfl]
      -- no other entry has the name, so that the rest keeps the part
      rcases readEntries_cons h with ⟨hk, -⟩ | ⟨read, first, hk, hfirst, hrest⟩
      · exact absurd hpart.found (by simp [hk])
      · have hrest' := ih hes.2 hrest
        have hown := hpart.own _ (mem_of_lookup hk) rfl d s first hfirst
        rw [hhead] at hrest'
        generalize part s' = x' at *
        cases hrest'
        exact .read hown
    · rw [if_neg hk]
      rcases readEntries_cons h with ⟨-, hrest⟩ | ⟨read, first, hk', hfirst, hrest⟩
      · exact ih hes.2 hrest
      · rw [← hpart.other _ (mem_of_lookup hk') (Ne.symm hk) d s first hfirst]
        exact ih hes.2 hrest

/-- What becomes of a part when a section is read, unless the section is a list. -/
theorem HasPart.readSection {name : String} {part : σ → τ} {R : Document → τ → τ → Prop} (hpart : HasPart members name part R)
    {d : Document} (hd : Tidy d) (h : readSection members d s = some s') :
    Held.of d = .list ∨ Held.of d = .table ∧ Becomes R ((entriesOf d).lookup name) (part s) (part s') := by
  cases d with
  | list items => exact .inl rfl
  | table es => exact .inr ⟨rfl, hpart.readEntries hd.names h⟩
  | _ => cases h

/-- A part that no member changes is kept. -/
theorem readEntries_keeps {part : σ → τ} (hkeeps : ∀ m ∈ members, ∀ d s s', m.2 d s = some s' → part s' = part s)
    (h : readEntries members es s = some s') : part s' = part s := by
  induction es generalizing s with
  | nil =>
    cases h
    rfl
  | cons e es ih =>
    rcases readEntries_cons h with ⟨-, hrest⟩ | ⟨read, first, hk, hfirst, hrest⟩
    · exact ih hrest
    · exact (ih hrest).trans (hkeeps _ (mem_of_lookup hk) _ _ _ hfirst)

/-- A part that no member changes is kept when a section is read from a list. -/
theorem readItems_keeps {part : σ → τ} (hkeeps : ∀ m ∈ members, ∀ d s s', m.2 d s = some s' → part s' = part s)
    {items : List Document} (h : readItems members items s = some s') : part s' = part s := by
  induction members generalizing items s with
  | nil =>
    cases items <;> cases h <;> rfl
  | cons m members ih =>
    cases items with
    | nil =>
      cases h
      rfl
    | cons d items =>
      obtain ⟨first, hfirst, hrest⟩ := Option.bind_eq_some_iff.1 h
      rw [List.forall_mem_cons] at hkeeps
      exact (ih hkeeps.2 hrest).trans (hkeeps.1 d s first hfirst)

/-- What no member changes is kept when a section is read. -/
theorem readSection_keeps {part : σ → τ} (hkeeps : ∀ m ∈ members, ∀ d s s', m.2 d s = some s' → part s' = part s)
    (d : Document) (h : readSection members d s = some s') : part s' = part s := by
  cases d with
  | table es => exact readEntries_keeps hkeeps h
  | list items => exact readItems_keeps hkeeps h
  | _ => cases h

/-- A table can be read if each of its entries that has the name of a member can. -/
theorem isSome_readEntries (hes : (es.map Prod.fst).Nodup)
    (h : ∀ m ∈ members, ∀ d, es.lookup m.1 = some d → ∀ s, (m.2 d s).isSome) (s : σ) : (readEntries members es s).isSome := by
  induction es generalizing s with
  | nil => rfl
  | cons e es ih =>
    obtain ⟨k, d⟩ := e
    rw [List.map_cons, List.nodup_cons] at hes
    have hrest : ∀ s, (readEntries members es s).isSome := by
      refine ih hes.2 fun m hm d' hd' s => ?_
      have hne : m.1 ≠ k := by
        intro hmk
        exact hes.1 (List.mem_map.2 ⟨_, mem_of_lookup hd', hmk⟩)
      exact h m hm d' (by rw [lookup_cons_eq, if_neg hne, hd']) s
    rw [readEntries]
    split
    · rename_i read hread
      have hfirst : (read d s).isSome := h (k, read) (mem_of_lookup hread) d (by rw [lookup_cons_eq, if_pos rfl]) s
      obtain ⟨first, hfirst⟩ := Option.isSome_iff_exists.1 hfirst
      rw [hfirst]
      exact hrest first
    · exact hrest s

end

/-! ## The parts of the settings -/

/-- The section for rendering has a member for the width. -/
theorem hasPart_width : HasPart renderMembers "width" Settings.width fun d _ x => asWidth? d = some x := by
  refine ⟨by decide +kernel, ?_, ?_⟩ <;> simp [renderMembers]

/-- The section for the output has a member for the root. -/
theorem hasPart_root : HasPart outputMembers "root" Settings.outputRoot fun d _ x => asText? d = some x := by
  refine ⟨by decide +kernel, ?_, ?_⟩ <;> simp [outputMembers]

/-- The members of the journal section are for different parts of the settings. -/
theorem hasPart_journal :
    HasPart journalMembers "level" JournalSettings.level (fun d _ x => asText? d = some x) ∧
      HasPart journalMembers "format" JournalSettings.format (fun d _ x => asText? d = some x) ∧
      HasPart journalMembers "output" JournalSettings.output (fun d _ x => asText? d = some x) ∧
      HasPart journalMembers "file" JournalSettings.file (fun d _ x => asText? d = some x) ∧
      HasPart journalMembers "color" JournalSettings.color (fun d _ x => asBool? d = some x) ∧
      HasPart journalMembers "modules" JournalSettings.modules (fun d _ x => readModules d = some x) := by
  refine ⟨⟨?_, ?_, ?_⟩, ⟨?_, ?_, ?_⟩, ⟨?_, ?_, ?_⟩, ⟨?_, ?_, ?_⟩, ⟨?_, ?_, ?_⟩, ⟨?_, ?_, ?_⟩⟩
  all_goals simp [journalMembers, lookup_cons_eq, -Bool.exists_bool, -Bool.forall_bool]

/-- What becomes of a part of the settings that a section has a member for. -/
def InSection {τ : Type} (name : String) (R : Document → τ → τ → Prop) (d : Document) (x x' : τ) : Prop :=
  Tidy d → Held.of d = .list ∨ Held.of d = .table ∧ Becomes R ((entriesOf d).lookup name) x x'

/-- What holds for the three sections holds for all of them. -/
theorem forall_sections {P : Member Settings → Prop} (hrender : P ("render", readSection renderMembers))
    (houtput : P ("output", readSection outputMembers))
    (hlogging : P ("logging", fun d s => (readSection journalMembers d s.journal).map fun j => { s with journal := j })) :
    ∀ m ∈ sections, P m := by
  simp only [sections, List.forall_mem_cons]
  exact ⟨hrender, houtput, hlogging, fun _ h => absurd h List.not_mem_nil⟩

/-- The journal section changes the settings of the journal only. -/
theorem logging_keeps {τ : Type} {part : Settings → τ} (hpart : ∀ s j, part { s with journal := j } = part s) {d : Document}
    {s s' : Settings} (h : ((readSection journalMembers d s.journal).map fun j => { s with journal := j }) = some s') :
    part s' = part s := by
  obtain ⟨j, -, rfl⟩ := Option.map_eq_some_iff.1 h
  exact hpart s j

/-- The width is read from its section, and no other section changes it. -/
theorem hasPart_render :
    HasPart sections "render" Settings.width (InSection "width" fun d _ x => asWidth? d = some x) where
  found := by simp [sections]
  own := by
    refine forall_sections ?_ ?_ ?_
    · intro _ d s s' h hd
      exact hasPart_width.readSection hd h
    · intro h
      simp at h
    · intro h
      simp at h
  other := by
    refine forall_sections ?_ ?_ ?_
    · intro h
      simp at h
    · intro _ d s s' h
      exact readSection_keeps (by simp [outputMembers]) d h
    · intro _ d s s' h
      exact logging_keeps (fun _ _ => rfl) h

/-- The root is read from its section, and no other section changes it. -/
theorem hasPart_output :
    HasPart sections "output" Settings.outputRoot (InSection "root" fun d _ x => asText? d = some x) where
  found := by simp [sections, lookup_cons_eq]
  own := by
    refine forall_sections ?_ ?_ ?_
    · intro h
      simp at h
    · intro _ d s s' h hd
      exact hasPart_root.readSection hd h
    · intro h
      simp at h
  other := by
    refine forall_sections ?_ ?_ ?_
    · intro _ d s s' h
      exact readSection_keeps (by simp [renderMembers]) d h
    · intro h
      simp at h
    · intro _ d s s' h
      exact logging_keeps (fun _ _ => rfl) h

/-- A setting of the journal is read from its section, and no other section changes it. -/
theorem HasPart.logging {τ : Type} {name : String} {part : JournalSettings → τ} {R : Document → τ → τ → Prop}
    (hpart : HasPart journalMembers name part R) : HasPart sections "logging" (fun s => part s.journal) (InSection name R) where
  found := by simp [sections, lookup_cons_eq]
  own := by
    refine forall_sections ?_ ?_ ?_
    · intro h
      simp at h
    · intro h
      simp at h
    · intro _ d s s' h hd
      obtain ⟨j, hj, rfl⟩ := Option.map_eq_some_iff.1 h
      exact hpart.readSection hd hj
  other := by
    refine forall_sections ?_ ?_ ?_
    · intro _ d s s' h
      exact congrArg part (readSection_keeps (by simp [renderMembers]) d h)
    · intro _ d s s' h
      exact congrArg part (readSection_keeps (by simp [outputMembers]) d h)
    · intro h
      simp at h

/-! ## From the document to the settings -/

section

variable {d : Document} {s : Settings}

/-- What becomes of a part of the settings when a document is read. -/
theorem HasPart.ofDocument? {τ : Type} {name key : String} {part : Settings → τ} {R : Document → τ → τ → Prop}
    (hpart : HasPart sections name part (InSection key R)) (hd : Tidy d) (htable : Held.of d = .table)
    (hlist : held [name] (some d) ≠ .list) (h : ofDocument? d = some s) :
    (held [name] (some d) = .nothing ∨ held [name] (some d) = .table) ∧
      Becomes R (entryAt [name, key] (some d)) (part standard) (part s) := by
  rcases hpart.readSection hd h with hroot | ⟨-, hbecomes⟩
  · rw [htable] at hroot
    cases hroot
  · have hheld : held [name] (some d) = held [] ((entriesOf d).lookup name) := rfl
    have hentry : entryAt [name, key] (some d) = entryAt [key] ((entriesOf d).lookup name) := rfl
    rw [hheld] at hlist ⊢
    rw [hentry]
    cases hm : (entriesOf d).lookup name with
    | none =>
      rw [hm] at hbecomes
      generalize part s = x at *
      cases hbecomes
      exact ⟨.inl rfl, .kept _⟩
    | some m =>
      rw [hm] at hbecomes hlist
      cases hbecomes with
      | read hread =>
        rcases hread (hd.member hm) with hm' | ⟨hm', hkey⟩
        · exact absurd hm' hlist
        · exact ⟨.inr hm', hkey⟩

/-- What a part becomes by a reader of values is taken from what stands at its path. -/
theorem Becomes.taken {τ : Type} {read : Document → Option τ} {standard x : τ} (hread : TakesValues read) {path : List String}
    {o : Option Document} (h : Becomes (fun d _ x => read d = some x) (entryAt path o) standard x) :
    Taken read standard x (held path o) := by
  unfold held
  cases ho : entryAt path o with
  | none =>
    rw [ho] at h
    cases h
    exact .absent
  | some m =>
    rw [ho] at h
    cases h with
    | read h => exact hread.taken h

/-- What is taken at a path is read from what stands there. -/
theorem Taken.read_at {τ : Type} {read : Document → Option τ} {standard x : τ} {path : List String} {o : Option Document} {v : Document}
    (h : Taken read standard x (held path o)) (hv : entryAt path o = some v) : read v = some x := by
  unfold held at h
  rw [hv] at h
  exact h.read_eq

/-- What is taken at a path can be read. -/
theorem Taken.isSome_map {σ τ : Type} {read : Document → Option τ} {standard x : τ} {path : List String} {o : Option Document}
    {v : Document} (h : Taken read standard x (held path o)) (hv : entryAt path o = some v) (f : τ → σ) : ((read v).map f).isSome := by
  rw [h.read_at hv]
  rfl

/-- What stands in a tidy document is tidy. -/
theorem Tidy.entryAt (hd : Tidy d) {path : List String} {m : Document} (h : entryAt path (some d) = some m) : Tidy m := by
  induction path generalizing d with
  | nil =>
    cases h
    exact hd
  | cons name path ih =>
    have hpath : entryAt path ((entriesOf d).lookup name) = some m := h
    cases hm : (entriesOf d).lookup name with
    | none =>
      rw [hm, entryAt_none] at hpath
      cases hpath
    | some member =>
      rw [hm] at hpath
      exact ih (hd.member hm) hpath

/-! ## Levels of parts of the program -/

/-- A map of entries gives what is found in the list of entries, if each name stands once. -/
theorem getElem?_ofList_eq_lookup {ts : List (String × String)} (hts : (ts.map Prod.fst).Nodup) (k : String) :
    (Std.ExtTreeMap.ofList ts)[k]? = ts.lookup k := by
  cases hk : ts.lookup k with
  | none =>
    apply Std.ExtTreeMap.getElem?_ofList_of_contains_eq_false
    simp only [List.contains_eq_mem, List.mem_map, decide_eq_false_iff_not]
    rintro ⟨e, he, rfl⟩
    simpa using List.lookup_eq_none_iff.1 hk e he
  | some v =>
    refine Std.ExtTreeMap.getElem?_ofList_of_mem (k := k) (Std.LawfulEqOrd.compare_eq_iff_eq.2 rfl) ?_ (mem_of_lookup hk)
    exact (List.pairwise_map.1 hts).imp fun hne he => hne (Std.LawfulEqOrd.compare_eq_iff_eq.1 he)

/-- What is read of a table of texts under a name. -/
theorem readTexts_becomes {es : List (String × Document)} {ts : List (String × String)} (h : readTexts es = some ts) :
    ts.map Prod.fst = es.map Prod.fst ∧
      ∀ k, Becomes (fun d _ x => (asText? d).map some = some x) (es.lookup k) none (ts.lookup k) := by
  induction es generalizing ts with
  | nil =>
    cases h
    exact ⟨rfl, fun k => .kept _⟩
  | cons e es ih =>
    obtain ⟨name, d⟩ := e
    obtain ⟨text, htext, h⟩ := Option.bind_eq_some_iff.1 h
    obtain ⟨rest, hrest, h⟩ := Option.bind_eq_some_iff.1 h
    cases h
    obtain ⟨hnames, hrest⟩ := ih hrest
    refine ⟨by rw [List.map_cons, List.map_cons, hnames], fun k => ?_⟩
    rw [lookup_cons_eq, lookup_cons_eq]
    split
    · exact .read (by rw [htext]; rfl)
    · exact hrest k

/-- The levels of single parts are read from a table, one for each entry. -/
theorem readModules_becomes (hd : Tidy d) {m : Std.ExtTreeMap String String} (h : readModules d = some m) :
    Held.of d = .table ∧ ∀ k, Becomes (fun d _ x => (asText? d).map some = some x) ((entriesOf d).lookup k) none m[k]? := by
  cases d with
  | table es =>
    obtain ⟨ts, hts, rfl⟩ := Option.map_eq_some_iff.1 h
    obtain ⟨hnames, hbecomes⟩ := readTexts_becomes hts
    refine ⟨rfl, fun k => ?_⟩
    rw [getElem?_ofList_eq_lookup (hnames ▸ hd.names)]
    exact hbecomes k
  | _ => cases h

theorem takesValues_some : TakesValues fun d => (asText? d).map some := takesValues_of_refuses (fun _ => rfl) (fun _ => rfl)

/-- The levels of single parts are taken from what stands at their paths. -/
theorem modules_taken (hd : Tidy d) {m : Std.ExtTreeMap String String}
    (h : Becomes (fun d _ x => readModules d = some x) (entryAt ["logging", "modules"] (some d)) ∅ m) :
    (held ["logging", "modules"] (some d) = .nothing ∨ held ["logging", "modules"] (some d) = .table) ∧
      ∀ k : String, Taken (fun d => (asText? d).map some) none m[k]? (held ["logging", "modules", k] (some d)) := by
  have hentry : ∀ k, entryAt ["logging", "modules", k] (some d) =
      (entryAt ["logging", "modules"] (some d)).bind fun d => (entriesOf d).lookup k := fun k => rfl
  unfold held
  cases ho : entryAt ["logging", "modules"] (some d) with
  | none =>
    rw [ho] at h
    cases h
    refine ⟨.inl rfl, fun k => ?_⟩
    rw [hentry, ho, Std.ExtTreeMap.getElem?_empty]
    exact .absent
  | some v =>
    rw [ho] at h
    cases h with
    | read h =>
      obtain ⟨htable, hbecomes⟩ := readModules_becomes (hd.entryAt ho) h
      refine ⟨.inr htable, fun k => Becomes.taken takesValues_some ?_⟩
      rw [hentry, ho]
      exact hbecomes k

/-- Entries can be read as texts if each of them can. -/
theorem isSome_readTexts {es : List (String × Document)} (h : ∀ e ∈ es, (asText? e.2).isSome) : (readTexts es).isSome := by
  induction es with
  | nil => rfl
  | cons e es ih =>
    rw [List.forall_mem_cons] at h
    obtain ⟨text, htext⟩ := Option.isSome_iff_exists.1 h.1
    obtain ⟨texts, htexts⟩ := Option.isSome_iff_exists.1 (ih h.2)
    rw [readTexts, htext, htexts]
    rfl

/-- The levels of single parts can be read if what stands at their paths can be taken. -/
theorem isSome_readModules (hd : Tidy d) {v : Document} (hv : entryAt ["logging", "modules"] (some d) = some v)
    (hsection : held ["logging", "modules"] (some d) = .nothing ∨ held ["logging", "modules"] (some d) = .table)
    {m : Std.ExtTreeMap String String}
    (h : ∀ k : String, Taken (fun d => (asText? d).map some) none m[k]? (held ["logging", "modules", k] (some d))) :
    (readModules v).isSome := by
  unfold held at hsection
  rw [hv] at hsection
  cases v with
  | table es =>
    rw [readModules, Option.isSome_map]
    refine isSome_readTexts fun e he => ?_
    have hentry : entryAt ["logging", "modules", e.1] (some d) =
        (entryAt ["logging", "modules"] (some d)).bind fun d => (entriesOf d).lookup e.1 := rfl
    rw [hv, Option.bind_some, lookup_of_mem (hd.entryAt hv).names he] at hentry
    have hread := (h e.1).read_at hentry
    obtain ⟨text, htext, -⟩ := Option.map_eq_some_iff.1 hread
    rw [htext]
    rfl
  | _ => rcases hsection with h | h <;> cases h

/-! ## All settings -/

/-- Settings that are read from a document are what stands there, unless a section is a list. -/
theorem takes_of_ofDocument? (hd : Tidy d) (htable : Held.of d = .table)
    (hlists : ∀ path ∈ sectionPaths, held path (some d) ≠ .list) (h : ofDocument? d = some s) :
    Takes (fun path => held path (some d)) s := by
  simp only [sectionPaths, List.forall_mem_cons] at hlists
  obtain ⟨hrender, houtput, hlogging, -⟩ := hlists
  obtain ⟨hlevel, hformat, hout, hfile, hcolor, hmodules⟩ := hasPart_journal
  obtain ⟨hrender, hwidth⟩ := hasPart_render.ofDocument? hd htable hrender h
  obtain ⟨houtput, hroot⟩ := hasPart_output.ofDocument? hd htable houtput h
  obtain ⟨hlogging', hlevel⟩ := hlevel.logging.ofDocument? hd htable hlogging h
  obtain ⟨-, hformat⟩ := hformat.logging.ofDocument? hd htable hlogging h
  obtain ⟨-, hout⟩ := hout.logging.ofDocument? hd htable hlogging h
  obtain ⟨-, hfile⟩ := hfile.logging.ofDocument? hd htable hlogging h
  obtain ⟨-, hcolor⟩ := hcolor.logging.ofDocument? hd htable hlogging h
  obtain ⟨-, hmodules⟩ := hmodules.logging.ofDocument? hd htable hlogging h
  obtain ⟨hsection, hmodules⟩ := modules_taken hd hmodules
  exact
    { sections := by
        simp only [sectionPaths, List.cons_append, List.nil_append, List.forall_mem_cons]
        exact ⟨hrender, houtput, hlogging', hsection, fun _ h => absurd h List.not_mem_nil⟩
      width := hwidth.taken takesValues_asWidth?
      root := hroot.taken takesValues_asText?
      level := hlevel.taken takesValues_asText?
      format := hformat.taken takesValues_asText?
      output := hout.taken takesValues_asText?
      file := hfile.taken takesValues_asText?
      color := hcolor.taken takesValues_asBool?
      modules := hmodules }

/-- What stands at the paths of the settings determines the settings. -/
theorem Takes.unique {stands : List String → Held} {s s' : Settings} (h : Takes stands s) (h' : Takes stands s') : s = s' := by
  obtain ⟨width, root, level, format, output, file, color, modules⟩ := s
  obtain ⟨width', root', level', format', output', file', color', modules'⟩ := s'
  have hmodules : modules = modules' := Std.ExtTreeMap.ext_getElem? fun {k} => (h.modules k).unique (h'.modules k)
  have hwidth := h.width.unique h'.width
  have hroot := h.root.unique h'.root
  have hlevel := h.level.unique h'.level
  have hformat := h.format.unique h'.format
  have houtput := h.output.unique h'.output
  have hfile := h.file.unique h'.file
  have hcolor := h.color.unique h'.color
  simp_all

/-- A section can be read if each of its members can. -/
theorem isSome_readSection {σ : Type} {members : List (Member σ)} {name : String} {m : Document} (hd : Tidy d)
    (hm : (entriesOf d).lookup name = some m) (hsection : held [name] (some d) = .nothing ∨ held [name] (some d) = .table)
    (hmembers : ∀ member ∈ members, ∀ v, entryAt [name, member.1] (some d) = some v → ∀ s, (member.2 v s).isSome) (s : σ) :
    (readSection members m s).isSome := by
  have hheld : held [name] (some d) = Held.of m := by
    show held [] ((entriesOf d).lookup name) = _
    rw [hm]
    rfl
  rw [hheld] at hsection
  cases m with
  | table es =>
    refine isSome_readEntries (hd.member hm).names (fun member hmember v hv s => hmembers member hmember v ?_ s) s
    show entryAt [member.1] ((entriesOf d).lookup name) = some v
    rw [hm]
    exact hv
  | _ => rcases hsection with h | h <;> cases h

/-- A document whose paths hold settings is read as these settings. -/
theorem ofDocument?_of_takes (hd : Tidy d) (htable : Held.of d = .table) (h : Takes (fun path => held path (some d)) s) :
    ofDocument? d = some s := by
  have hsections := h.sections
  simp only [sectionPaths, List.cons_append, List.nil_append, List.forall_mem_cons] at hsections
  obtain ⟨hrender, houtput, hlogging, hmodules, -⟩ := hsections
  have hsome : (ofDocument? d).isSome := by
    cases d with
    | table es =>
      refine isSome_readEntries hd.names (forall_sections ?_ ?_ ?_) standard
      · intro m hm
        refine isSome_readSection hd hm hrender ?_
        simp only [renderMembers, List.forall_mem_cons]
        exact ⟨fun v hv s => h.width.isSome_map hv _, fun _ h => absurd h List.not_mem_nil⟩
      · intro m hm
        refine isSome_readSection hd hm houtput ?_
        simp only [outputMembers, List.forall_mem_cons]
        exact ⟨fun v hv s => h.root.isSome_map hv _, fun _ h => absurd h List.not_mem_nil⟩
      · intro m hm s
        rw [Option.isSome_map]
        refine isSome_readSection hd hm hlogging ?_ s.journal
        simp only [journalMembers, List.forall_mem_cons]
        refine ⟨fun v hv s => h.level.isSome_map hv _, fun v hv s => h.format.isSome_map hv _, fun v hv s => h.output.isSome_map hv _,
          fun v hv s => h.file.isSome_map hv _, fun v hv s => h.color.isSome_map hv _, fun v hv s => ?_,
          fun _ h => absurd h List.not_mem_nil⟩
        rw [Option.isSome_map]
        exact isSome_readModules hd hv hmodules h.modules
    | _ => cases htable
  obtain ⟨s', hs'⟩ := Option.isSome_iff_exists.1 hsome
  have hlists : ∀ path ∈ sectionPaths, held path (some d) ≠ .list := by
    intro path hpath hlist
    rcases h.sections path (List.mem_append_left _ hpath) with hnothing | htable
    · rw [hnothing] at hlist
      cases hlist
    · rw [htable] at hlist
      cases hlist
  rw [hs', h.unique (takes_of_ofDocument? hd htable hlists hs')]

end

end DispatchTree.Settings
