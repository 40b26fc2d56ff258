import DispatchTree.Proofs.Settings.Loading

/-!
# Sections of settings do not see each other

A key is about one section of the settings. What it puts there depends on this section only (`AgreeOn.assign`), and all other sections
stay as they are (`agreeOn_of_assign`). So what layers leave of a section is what the parts of the layers that are about this section
leave (`agreeOn_of_merge`). Each section is also read by itself (`ofDocument?_eq`), and only the display and the output are checked.
Hence layers that differ in what they say about the journal give the same width and root, or fail for the same reason, as long as the
journal section can be read (`sameRest_ofSources`).
-/

namespace DispatchTree.Settings

/-! ## Keys and sections -/

/-- The section that a key is about. -/
def sectionOf (key : String) : String :=
  match pathOf key with
  | .name s :: _ => Text.lower s
  | _ => ""

/-- The part of a source that is about a section. -/
def Source.about (s : Source) (name : String) : Source := s.filter fun e => sectionOf e.1 = name

/-- What two sources one after the other say about a section. -/
theorem Source.about_append (s t : Source) (name : String) : Source.about (s ++ t) name = s.about name ++ t.about name :=
  List.filter_append s t

/-- Documents with the same section of a name, or both without it. -/
def AgreeOn (name : String) (d d' : Document) : Prop := (entriesOf d).lookup name = (entriesOf d').lookup name

/-- What a value at the end of a path leaves of a member that may have been missing. -/
def memberAfter (value : Document) (rest : List Step) (before : Option Document) : Except PlaceFault Document :=
  match rest with
  | [] => .ok (valueOver value before)
  | rest => assign value rest (before.getD .null)

/-- An assignment below a name changes the member of that name and puts it back. -/
theorem exists_of_assign {value under d : Document} {s : String} {rest : List Step} (h : assign value (.name s :: rest) under = .ok d) :
    ∃ m, memberAfter value rest ((entriesOf under).lookup (Text.lower s)) = .ok m ∧
      d = .table (putEntry (Text.lower s) m (entriesOf under)) := by
  cases rest with
  | nil =>
    cases h
    exact ⟨_, rfl, overlay_eq s value under⟩
  | cons next rest => exact exists_of_assign_name h

/-- If the member can be changed the assignment can be made. -/
theorem assign_of_memberAfter {value m under : Document} {s : String} {rest : List Step}
    (h : memberAfter value rest ((entriesOf under).lookup (Text.lower s)) = .ok m) :
    assign value (.name s :: rest) under = .ok (.table (putEntry (Text.lower s) m (entriesOf under))) := by
  cases rest with
  | nil =>
    cases h
    rw [assign, overlay_eq]
  | cons next rest =>
    have hrest : assign value (next :: rest) (((entriesOf under).lookup (Text.lower s)).getD .null) = .ok m := h
    rw [assign]
    · simp only [hrest, bind, Except.bind, pure, Except.pure]
    · intro hnil
      cases hnil

section

variable {value under under' d : Document} {s name : String} {rest : List Step}

/-- A value at the end of a path leaves the other sections as they are. -/
theorem agreeOn_of_assign (hname : Text.lower s ≠ name) (h : assign value (.name s :: rest) under = .ok d) : AgreeOn name d under := by
  obtain ⟨m, -, rfl⟩ := exists_of_assign h
  rw [AgreeOn, entriesOf, lookup_putEntry, if_neg hname.symm]

/-- What a value at the end of a path leaves of its section depends on the section only. -/
theorem AgreeOn.assign (hunder : AgreeOn (Text.lower s) under under') (h : assign value (.name s :: rest) under = .ok d) :
    ∃ d', Settings.assign value (.name s :: rest) under' = .ok d' ∧ AgreeOn (Text.lower s) d d' := by
  obtain ⟨m, hm, rfl⟩ := exists_of_assign h
  rw [hunder] at hm
  refine ⟨_, assign_of_memberAfter hm, ?_⟩
  rw [AgreeOn, entriesOf, entriesOf, lookup_putEntry, lookup_putEntry, if_pos rfl, if_pos rfl]

/-- What a source leaves of a section is what its part about the section leaves. -/
theorem AgreeOn.addSource {s : Source} (hunder : AgreeOn name under under') (h : addSource under s = .ok d) :
    ∃ d', Settings.addSource under' (s.about name) = .ok d' ∧ AgreeOn name d d' := by
  induction s generalizing under under' with
  | nil =>
    cases h
    exact ⟨under', rfl, hunder⟩
  | cons e s ih =>
    obtain ⟨first, hfirst, hrest⟩ := exists_of_addSource h
    obtain ⟨top, rest, hpath⟩ := exists_pathOf_eq e.1
    have htop : sectionOf e.1 = Text.lower top := by rw [sectionOf, hpath]
    rw [hpath] at hfirst
    by_cases hname : Text.lower top = name
    · subst hname
      obtain ⟨first', hfirst', hagree⟩ := hunder.assign hfirst
      obtain ⟨d', hd', hagree⟩ := ih hagree hrest
      refine ⟨d', ?_, hagree⟩
      rw [Source.about, List.filter_cons_of_pos (by simpa using htop)]
      exact addSource_cons_of_ok (hpath ▸ hfirst') hd'
    · rw [Source.about, List.filter_cons_of_neg (by simpa [htop] using hname)]
      exact ih ((agreeOn_of_assign hname hfirst).trans hunder) hrest

end

/-- The highest source is laid on top of what the others leave. -/
theorem exists_of_merge_append {under d : Document} {sources : List (Except String Source)} {s : Source}
    (h : merge under (sources ++ [.ok s]) = .ok d) : ∃ first, merge under sources = .ok first ∧ addSource first s = .ok d := by
  induction sources generalizing under with
  | nil =>
    obtain ⟨first, hfirst, hrest⟩ := addSource_of_merge h
    cases hrest
    exact ⟨under, rfl, hfirst⟩
  | cons o sources ih =>
    cases o with
    | error text => cases h
    | ok first =>
      rw [List.cons_append, merge] at h
      rw [merge]
      split at h
      · exact ih h
      · cases h

/-- If the others can be merged and the highest can be laid on top, all of them can be merged. -/
theorem merge_append_of_ok {under first d : Document} {sources : List (Except String Source)} {s : Source}
    (hfirst : merge under sources = .ok first) (h : addSource first s = .ok d) : merge under (sources ++ [.ok s]) = .ok d := by
  induction sources generalizing under with
  | nil =>
    cases hfirst
    rw [List.nil_append, merge, h]
    rfl
  | cons o sources ih =>
    cases o with
    | error text => cases hfirst
    | ok s =>
      obtain ⟨next, hnext, hrest⟩ := addSource_of_merge hfirst
      rw [List.cons_append, merge, hnext]
      exact ih hrest

/-- The same sources with one more leave the same of a section, if the last ones say the same about it. -/
theorem agreeOn_of_merge {under d d' : Document} {sources : List (Except String Source)} {s s' : Source} {name : String}
    (hs : s.about name = s'.about name) (h : merge under (sources ++ [.ok s]) = .ok d)
    (h' : merge under (sources ++ [.ok s']) = .ok d') : AgreeOn name d d' := by
  obtain ⟨first, hfirst, hd⟩ := exists_of_merge_append h
  obtain ⟨first', hfirst', hd'⟩ := exists_of_merge_append h'
  rw [hfirst] at hfirst'
  cases hfirst'
  have hself : AgreeOn name first first := rfl
  obtain ⟨e, he, hagree⟩ := hself.addSource hd
  obtain ⟨e', he', hagree'⟩ := hself.addSource hd'
  rw [hs, he'] at he
  cases he
  exact hagree.trans hagree'.symm

/-! ## Sections are read by themselves -/

/-- A part of something larger, which can be replaced. -/
structure Part (σ τ : Type) where
  get : σ → τ
  put : σ → τ → σ
  put_get : ∀ s, put s (get s) = s
  get_put : ∀ s x, get (put s x) = x
  put_put : ∀ s x y, put (put s x) y = put s y

/-- The width as a part of the settings. -/
def Part.width : Part Settings UInt16 where
  get := Settings.width
  put s w := { s with width := w }
  put_get _ := rfl
  get_put _ _ := rfl
  put_put _ _ _ := rfl

/-- The root as a part of the settings. -/
def Part.root : Part Settings String where
  get := Settings.outputRoot
  put s r := { s with outputRoot := r }
  put_get _ := rfl
  get_put _ _ := rfl
  put_put _ _ _ := rfl

section

variable {σ τ : Type} (p : Part σ τ)

/-- A member of a part as a member of the whole. -/
def Part.lift (m : Member τ) : Member σ := (m.1, fun d s => (m.2 d (p.get s)).map (p.put s))

/-- A lifted member is found under the same name. -/
theorem lookup_lift (members : List (Member τ)) (k : String) :
    (members.map p.lift).lookup k = (members.lookup k).map fun read d s => (read d (p.get s)).map (p.put s) := by
  induction members with
  | nil => rfl
  | cons m members ih =>
    rw [List.map_cons, Part.lift, lookup_cons_eq, ih, lookup_cons_eq m.1]
    split <;> rfl

theorem Part.put_comp (s : σ) (x : τ) : p.put (p.put s x) = p.put s := funext (p.put_put s x)

/-- Reading a table into the whole is reading it into the part. -/
theorem readEntries_lift (members : List (Member τ)) (es : List (String × Document)) (s : σ) :
    readEntries (members.map p.lift) es s = (readEntries members es (p.get s)).map (p.put s) := by
  induction es generalizing s with
  | nil => rw [readEntries, readEntries, Option.map_some, p.put_get]
  | cons e es ih =>
    rw [readEntries, readEntries, lookup_lift]
    cases members.lookup e.1 with
    | none => exact ih s
    | some read => cases hread : read e.2 (p.get s) <;> simp [hread, ih, p.get_put, p.put_comp]

/-- Reading a list into the whole is reading it into the part. -/
theorem readItems_lift (members : List (Member τ)) (items : List Document) (s : σ) :
    readItems (members.map p.lift) items s = (readItems members items (p.get s)).map (p.put s) := by
  induction members generalizing items s with
  | nil => cases items <;> simp [readItems, p.put_get]
  | cons m members ih =>
    cases items with
    | nil => simp [readItems, p.put_get]
    | cons d items =>
      rw [List.map_cons, Part.lift, readItems, readItems]
      cases m.2 d (p.get s) <;> simp [ih, p.get_put, p.put_comp]

/-- Reading a section into the whole is reading it into the part. -/
theorem readSection_lift (members : List (Member τ)) (d : Document) (s : σ) :
    readSection (members.map p.lift) d s = (readSection members d (p.get s)).map (p.put s) := by
  cases d with
  | table es => exact readEntries_lift p members es s
  | list items => exact readItems_lift p members items s
  | _ => rfl

end

/-- The members of the display section, for the width alone. -/
def widthMembers : List (Member UInt16) := [("width", fun d _ => asWidth? d)]

/-- The members of the output section, for the root alone. -/
def rootMembers : List (Member String) := [("root", fun d _ => asText? d)]

/-- The section for rendering is about the width only. -/
theorem readSection_render (d : Document) (s : Settings) :
    readSection renderMembers d s = (readSection widthMembers d s.width).map fun w => { s with width := w } :=
  readSection_lift .width widthMembers d s

/-- The section for the output is about the root only. -/
theorem readSection_output (d : Document) (s : Settings) :
    readSection outputMembers d s = (readSection rootMembers d s.outputRoot).map fun r => { s with outputRoot := r } :=
  readSection_lift .root rootMembers d s

/-- A part of the settings by its section, if there is one. -/
def readPart {τ : Type} (members : List (Member τ)) (o : Option Document) (x : τ) : Option τ :=
  match o with
  | none => some x
  | some d => readSection members d x

theorem lookup_sections (k : String) :
    sections.lookup k = if k = "render" then some (readSection renderMembers) else if k = "output" then some (readSection outputMembers)
      else if k = "logging" then some fun d s => (readSection journalMembers d s.journal).map fun j => { s with journal := j }
      else none := by
  simp only [sections, lookup_cons_eq, List.lookup_nil]

/-- The sections are read each by itself, in whatever order they stand. -/
theorem readEntries_sections {es : List (String × Document)} (hes : (es.map Prod.fst).Nodup) (s : Settings) :
    readEntries sections es s = (readPart widthMembers (es.lookup "render") s.width).bind fun w =>
      (readPart rootMembers (es.lookup "output") s.outputRoot).bind fun r =>
        (readPart journalMembers (es.lookup "logging") s.journal).map fun j => ⟨w, r, j⟩ := by
  induction es generalizing s with
  | nil => rfl
  | cons e es ih =>
    obtain ⟨k, d⟩ := e
    have hhead : es.lookup k = none := lookup_of_nodup hes
    have ih := ih (List.nodup_cons.1 hes).2
    rw [readEntries, lookup_sections]
    simp only [lookup_cons_eq]
    by_cases hrender : k = "render"
    · subst hrender
      cases hread : readSection widthMembers d s.width <;> simp [readSection_render, hread, ih, hhead, readPart]
    by_cases houtput : k = "output"
    · subst houtput
      -- the root is read before the width here
      cases hread : readSection rootMembers d s.outputRoot <;> simp [readSection_output, hread, ih, hhead, readPart]
    by_cases hlogging : k = "logging"
    · subst hlogging
      cases hread : readSection journalMembers d s.journal <;> simp [hread, ih, hhead, readPart]
    · simp [hrender, houtput, hlogging, Ne.symm hrender, Ne.symm houtput, Ne.symm hlogging, ih]

/-- The journal settings in a merged document. -/
def journalOf? (d : Document) : Option JournalSettings := readPart journalMembers ((entriesOf d).lookup "logging") .standard

/-- A document holds the three parts of the settings, each in its section. -/
theorem ofDocument?_eq {d : Document} (hd : Tidy d) (htable : Held.of d = .table) :
    ofDocument? d = (readPart widthMembers ((entriesOf d).lookup "render") standard.width).bind fun w =>
      (readPart rootMembers ((entriesOf d).lookup "output") standard.outputRoot).bind fun r =>
        (journalOf? d).map fun j => ⟨w, r, j⟩ := by
  cases d with
  | table es => exact readEntries_sections hd.names standard
  | _ => cases htable

/-! ## From layers to settings -/

/-- The document that sources give over the defaults. -/
def gathered (sources : List (Except String Source)) : Except SettingsFault Document := merge (.table []) (.ok defaults :: sources)

/-- The journal settings that sources give, whatever they say of the rest. -/
def journalIn? (sources : List (Except String Source)) : Option JournalSettings := (gathered sources).toOption.bind journalOf?

/-- Sources that can be merged are all readable. -/
theorem exists_layers_of_merge {under d : Document} {sources : List (Except String Source)} (h : merge under sources = .ok d) :
    ∃ layers : List Source, sources = layers.map .ok := by
  induction sources generalizing under with
  | nil => exact ⟨[], rfl⟩
  | cons o sources ih =>
    cases o with
    | error text => cases h
    | ok s =>
      obtain ⟨first, -, hrest⟩ := addSource_of_merge h
      obtain ⟨layers, rfl⟩ := ih hrest
      exact ⟨s :: layers, rfl⟩

/-- What sources give over the defaults is a tidy table, from which the settings are read. -/
theorem shape_of_gathered {sources : List (Except String Source)} {d : Document} (h : gathered sources = .ok d) :
    Tidy d ∧ Held.of d = .table ∧ ∀ misfit, ofSources misfit sources = checked misfit (ofDocument? d) := by
  obtain ⟨first, -, hrest⟩ := addSource_of_merge h
  obtain ⟨layers, rfl⟩ := exists_layers_of_merge hrest
  have hmerge : merge (.table []) ((defaults :: layers).map .ok) = .ok d := h
  have hempty : Tidy (.table []) := .of_entriesOf rfl
  exact ⟨tidy_merge hempty hmerge, table_of_merge rfl hmerge, fun misfit => ofSources_of_ok hmerge⟩

theorem exists_of_toOption_bind {ε α β : Type} {r : Except ε α} {f : α → Option β} {b : β} (h : r.toOption.bind f = some b) :
    ∃ a, r = .ok a ∧ f a = some b := by
  cases r with
  | error e => cases h
  | ok a => exact ⟨a, rfl, h⟩

/-- Results of loading that differ in the journal settings, or in the words for a value that is not of its kind. -/
inductive SameRest (j j' : JournalSettings) : Except SettingsFault Settings → Except SettingsFault Settings → Prop
  | loaded (w : UInt16) (r : String) : SameRest j j' (.ok ⟨w, r, j⟩) (.ok ⟨w, r, j'⟩)
  | invalid (faults : List SettingFault) : SameRest j j' (.error (.invalid faults)) (.error (.invalid faults))
  | unreadable (text text' : String) : SameRest j j' (.error (.unreadable text)) (.error (.unreadable text'))

/-- Sources that differ in what the last of them says about the journal give the same width and root, or fail for the same reason, if
the journal settings can be read. -/
theorem sameRest_ofSources {sources : List (Except String Source)} {s s' : Source} (hrender : s.about "render" = s'.about "render")
    (houtput : s.about "output" = s'.about "output") {j j' : JournalSettings} (hj : journalIn? (sources ++ [.ok s]) = some j)
    (hj' : journalIn? (sources ++ [.ok s']) = some j') (misfit misfit' : String) :
    SameRest j j' (ofSources misfit (sources ++ [.ok s])) (ofSources misfit' (sources ++ [.ok s'])) := by
  obtain ⟨d, hd, hj⟩ := exists_of_toOption_bind hj
  obtain ⟨d', hd', hj'⟩ := exists_of_toOption_bind hj'
  obtain ⟨htidy, htable, hsources⟩ := shape_of_gathered hd
  obtain ⟨htidy', htable', hsources'⟩ := shape_of_gathered hd'
  have hmerge : merge (.table []) ((.ok defaults :: sources) ++ [.ok s]) = .ok d := hd
  have hwidth : AgreeOn "render" d d' := agreeOn_of_merge hrender hmerge hd'
  have hroot : AgreeOn "output" d d' := agreeOn_of_merge houtput hmerge hd'
  rw [hsources, hsources', ofDocument?_eq htidy htable, ofDocument?_eq htidy' htable', hj, hj', ← hwidth, ← hroot]
  cases readPart widthMembers ((entriesOf d).lookup "render") standard.width with
  | none => exact .unreadable misfit misfit'
  | some w =>
    cases readPart rootMembers ((entriesOf d).lookup "output") standard.outputRoot with
    | none => exact .unreadable misfit misfit'
    | some r =>
      -- the faults of settings do not depend on the journal
      have hfaults : (⟨w, r, j⟩ : Settings).faults = (⟨w, r, j'⟩ : Settings).faults := rfl
      simp only [Option.bind_some, Option.map_some, checked, hfaults]
      split
      · exact .loaded w r
      · exact .invalid _

/-- Settings do not depend on the words for a value that is not of its kind. -/
theorem ofSources_of_ofSources {misfit misfit' : String} {sources : List (Except String Source)} {s : Settings}
    (h : ofSources misfit sources = .ok s) : ofSources misfit' sources = .ok s := by
  cases hd : gathered sources with
  | error f =>
    rw [gathered] at hd
    rw [ofSources, hd] at h
    cases h
  | ok d =>
    obtain ⟨-, -, hsources⟩ := shape_of_gathered hd
    rw [hsources] at h ⊢
    cases hs : ofDocument? d with
    | none =>
      rw [hs] at h
      cases h
    | some s' =>
      rw [hs] at h
      exact h

/-- Sources that give settings give the journal settings among them. -/
theorem journalIn?_of_ok {misfit : String} {sources : List (Except String Source)} {s : Settings}
    (h : ofSources misfit sources = .ok s) : journalIn? sources = some s.journal := by
  cases hd : gathered sources with
  | error f =>
    rw [gathered] at hd
    rw [ofSources, hd] at h
    cases h
  | ok d =>
    obtain ⟨htidy, htable, hsources⟩ := shape_of_gathered hd
    rw [hsources] at h
    cases hs : ofDocument? d with
    | none =>
      rw [hs] at h
      cases h
    | some s' =>
      rw [hs, checked_some] at h
      split at h
      · cases h
      · cases h
        rw [ofDocument?_eq htidy htable] at hs
        obtain ⟨w, -, hs⟩ := Option.bind_eq_some_iff.1 hs
        obtain ⟨r, -, hs⟩ := Option.bind_eq_some_iff.1 hs
        obtain ⟨j, hj, rfl⟩ := Option.map_eq_some_iff.1 hs
        rw [journalIn?, hd]
        exact hj

end DispatchTree.Settings
