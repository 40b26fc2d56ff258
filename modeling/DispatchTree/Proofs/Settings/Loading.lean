import DispatchTree.Proofs.Files.Extension
import DispatchTree.Proofs.Settings.Precedence
import DispatchTree.Proofs.Settings.Reading

/-!
# Loading settings

Settings are loaded from layers: the defaults, the global file, the two files of the workspace or else a single file, and the
environment. The entries of each layer are gone through in some order. The settings are what stands at their paths after all layers,
the highest layer that gives a value deciding, and only these settings are checked (`highest_layer_decides`). Nothing else can
happen unless an entry asks for a place in a list that cannot be had (`error_of_addSource_iff`). A file whose name is an extension
and nothing else is passed over, although it is there (`nameless_file_passed_over`).
-/

namespace DispatchTree.Settings

/-! ## The layers -/

section

variable (lib : Library) (env : Environment) (disk : Disk)

/-- The layer of a settings file: nothing if there is no such file, and otherwise what its text says. -/
inductive FileLayer (path : String) : Source → Prop
  | absent (h : disk.pathExists path = false) : FileLayer path []
  | present {reader : Reader} {text : String} {s : Source} (hreader : lib.readers.lookup "toml" = some reader)
      (htext : disk.readText path = .ok text) (hs : reader path text = .ok s) : FileLayer path s

/-- The layer of the global settings file. It lies in the directory that one variable names or, if that one is not set or empty, in
the home directory. -/
inductive GlobalLayer : Source → Prop
  | given {dir : String} {s : Source} (hdir : env.get? "XDG_CONFIG_HOME" = some dir) (hne : dir ≠ "")
      (hs : FileLayer lib disk (Path.join (Path.join dir "tapelink") "config.toml") s) : GlobalLayer s
  | home {dir : String} {s : Source} (hgiven : ∀ dir, env.get? "XDG_CONFIG_HOME" = some dir → dir = "")
      (hdir : env.get? "HOME" = some dir)
      (hs : FileLayer lib disk (Path.join (Path.join (Path.join dir ".config") "tapelink") "config.toml") s) : GlobalLayer s
  | nowhere (hgiven : ∀ dir, env.get? "XDG_CONFIG_HOME" = some dir → dir = "") (hdir : env.get? "HOME" = none) : GlobalLayer []

/-- The layer of a file that is given: what the text of the file that is meant says. -/
def ExplicitLayer (file : String) (s : Source) : Prop :=
  ∃ path reader text, lib.locate disk file = .ok (path, reader) ∧ disk.readText path = .ok text ∧ reader path text = .ok s

end

/-- The name of the environment. -/
def environmentName (env : Environment) : String := (env.get? "TAPELINK_ENV").getD "development"

/-- The item at a place of a list, which may be counted from the end. There is nothing where the list is too short. -/
def itemAt (ds : List Document) (i : Int) : Document := (ds[if i < 0 then ds.length - i.natAbs else i.toNat]?).getD .null

/-- The places in lists that a path leads through can be had: none is counted from the end of a list that has fewer items. -/
def HasPlaces : List Step → Document → Prop
  | [], _ => True
  | .name s :: rest, d => HasPlaces rest (((entriesOf d).lookup (Text.lower s)).getD .null)
  | .index i :: rest, d => -i ≤ (itemsOf d).length ∧ HasPlaces rest (itemAt (itemsOf d) i)

/-- An entry of the layers asks for a place in a list that cannot be had after the entries in front of it. -/
def Misplaced (layers : List Source) : Prop :=
  ∃ front e rest d, layers.flatten = front ++ e :: rest ∧ addSource (.table []) front = .ok d ∧ ¬HasPlaces (pathOf e.1) d

/-- Whether a step is counted from the beginning, if it leads to a place in a list. -/
def Step.isForward : Step → Bool
  | .name _ => true
  | .index i => 0 ≤ i

/-- A source that asks for no place counted from the end of a list. -/
def Source.Forward (s : Source) : Prop := ∀ e ∈ s, ∀ step ∈ pathOf e.1, step.isForward = true

instance (s : Source) : Decidable s.Forward := inferInstanceAs (Decidable (∀ e ∈ s, _))

/-- The outcome of loading is decided by layers: the settings are what stands after them, and only these settings are checked. The one
exception is an entry that asks for a place in a list that cannot be had. -/
structure DecidedBy (layers : List Source) (result : Except SettingsFault Settings) : Prop where
  place : (∃ fault, result = .error (.place fault)) ↔ Misplaced layers
  settings : ¬Misplaced layers → ∀ s, Takes (heldBy layers) s →
    result = if s.width.toNat < minWidth ∨ s.outputRoot = "" then .error (.invalid s.faults) else .ok s
  /-- Settings that are loaded, or found faulty, are those, unless a list stands in the place of a section. -/
  only : (∀ path ∈ sectionPaths, heldBy layers path ≠ .list) →
    (∀ s, result = .ok s → Takes (heldBy layers) s) ∧
      ∀ faults, result = .error (.invalid faults) → ∃ s, Takes (heldBy layers) s ∧ (s.width.toNat < minWidth ∨ s.outputRoot = "")

/-! ## Files that are there -/

/-- A file that can be read is there. -/
theorem isFile_of_readText {disk : Disk} {path text : String} (h : disk.readText path = .ok text) :
    disk.isFile path = true ∧ disk.pathExists path = true := by
  unfold Disk.readText Disk.readBytes at h
  unfold Disk.isFile Disk.pathExists
  cases hfind : disk.find true path with
  | error f => simp [hfind, bind, Except.bind] at h
  | ok found =>
    obtain ⟨l, e⟩ := found
    cases e with
    | file content => exact ⟨rfl, rfl⟩
    | _ => simp [hfind, bind, Except.bind] at h

/-- What a file adds: nothing if it is not there, and otherwise its source. -/
def Adds (lib : Library) (disk : Disk) (path : String) (s : Source) : Prop :=
  (disk.pathExists path = false ∧ s = []) ∨ (disk.pathExists path = true ∧ lib.fileSource disk false path = .ok s)

section

variable {lib : Library} {env : Environment} {disk : Disk}

/-- A file of the workspace adds its layer, unless its name is an extension and nothing else. -/
theorem FileLayer.adds (dir name : String) {s : Source} (h : FileLayer lib disk (Path.join dir (name ++ ".toml")) s) :
    Adds lib disk (Path.join dir (name ++ ".toml")) (if Path.Bare name then [] else s) := by
  cases h with
  | absent h =>
    refine .inl ⟨h, ?_⟩
    split <;> rfl
  | present hreader htext hs =>
    obtain ⟨hfile, hthere⟩ := isFile_of_readText htext
    refine .inr ⟨hthere, ?_⟩
    unfold Library.fileSource Library.locate
    rw [if_pos hfile, Path.extension?_join_toml]
    by_cases hbare : Path.Bare name
    · rw [if_pos hbare, if_pos hbare]
      rfl
    · simp only [if_neg hbare, Option.bind_some, hreader, htext, hs]

/-- Layers of all files, with their entries in order, are laid over each other like those of the files that are there. -/
theorem exists_merge_files (orders : Orders) {files : List (FileKind × String)} {layers : List Source}
    (h : List.Forall₂ (fun file s => Adds lib disk file.2 s) files layers) :
    ∃ layers', Arranged layers layers' ∧ ∀ under rest,
      merge under (((files.filter fun file => disk.pathExists file.2).map (fileLayer lib orders disk false)).map Prod.snd ++ rest) =
        merge under (layers'.map .ok ++ rest) := by
  induction h with
  | nil => exact ⟨[], .nil, fun _ _ => rfl⟩
  | @cons file s _ _ hadds _ ih =>
    obtain ⟨layers', harranged, hmerge⟩ := ih
    rcases hadds with ⟨habsent, rfl⟩ | ⟨hthere, hsource⟩
    · refine ⟨[] :: layers', .cons ⟨.listed, rfl⟩ harranged, fun under rest => ?_⟩
      rw [List.filter_cons_of_neg (by simp [habsent]), hmerge]
      rfl
    · refine ⟨(orders.source (.file file.1 file.2)).source s :: layers', .cons ⟨_, rfl⟩ harranged, fun under rest => ?_⟩
      have hlayer : (fileLayer lib orders disk false file).2 = .ok ((orders.source (.file file.1 file.2)).source s) := by
        rw [fileLayer, hsource]
        rfl
      rw [List.filter_cons_of_pos (by simpa using hthere), List.map_cons, List.map_cons, hlayer, List.map_cons, List.cons_append,
        List.cons_append, merge, merge]
      split
      · exact hmerge _ _
      · rfl

/-- The global file lies in the home directory if no other directory is named. -/
theorem globalPath?_of_empty {env : Environment} (h : ∀ dir, env.get? "XDG_CONFIG_HOME" = some dir → dir = "") : globalPath? env =
    (env.get? "HOME").map fun dir => Path.join (Path.join (Path.join dir ".config") "tapelink") "config.toml" := by
  unfold globalPath?
  cases hgiven : env.get? "XDG_CONFIG_HOME" with
  | none => simp [Function.comp_def]
  | some dir => simp [h dir hgiven, Function.comp_def]

/-- The file of the workspace has a name of its own. -/
theorem not_bare_config : ¬Path.Bare "config" := by decide +kernel

/-- A file with the common name adds its layer. -/
theorem FileLayer.adds_config {dir : String} {s : Source} (h : FileLayer lib disk (Path.join dir "config.toml") s) :
    Adds lib disk (Path.join dir "config.toml") s := by
  have hadds := FileLayer.adds dir "config" h
  rwa [if_neg not_bare_config] at hadds

/-- The global file adds its layer, if there is a directory for it. -/
theorem GlobalLayer.adds {g : Source} (h : GlobalLayer lib env disk g) :
    (globalPath? env = none ∧ g = []) ∨ ∃ path, globalPath? env = some path ∧ Adds lib disk path g := by
  cases h with
  | given hdir hne hs =>
    refine .inr ⟨_, ?_, hs.adds_config⟩
    simp [globalPath?, hdir, hne]
  | home hgiven hdir hs =>
    refine .inr ⟨_, ?_, hs.adds_config⟩
    rw [globalPath?_of_empty hgiven, hdir, Option.map_some]
  | nowhere hgiven hdir =>
    refine .inl ⟨?_, rfl⟩
    rw [globalPath?_of_empty hgiven, hdir, Option.map_none]

/-- Sources that are merged alike give the same settings. -/
theorem ofSources_congr (misfit : String) {sources sources' : List (Except String Source)}
    (h : ∀ under, merge under sources = merge under sources') : ofSources misfit sources = ofSources misfit sources' := by
  have hmerge : merge (.table []) (.ok defaults :: sources) = merge (.table []) (.ok defaults :: sources') := by
    rw [merge, merge]
    split
    · exact h _
    · rfl
  rw [ofSources, ofSources, hmerge]

/-- Loading the settings of a workspace is gathering its layers, with their entries in some order. -/
theorem exists_load_eq (orders : Orders) {workspace : String} {g c e : Source} (hg : GlobalLayer lib env disk g)
    (hc : FileLayer lib disk (Path.join (Path.join workspace "config") "config.toml") c)
    (he : FileLayer lib disk (Path.join (Path.join workspace "config") (environmentName env ++ ".toml")) e) :
    ∃ misfit layers, Arranged [g, c, if Path.Bare (environmentName env) then [] else e, env.source] layers ∧
      load lib orders env disk workspace = ofSources misfit (layers.map .ok) := by
  -- the layers of the files, and on top of them the variables
  obtain ⟨layers, harranged, hmerge⟩ : ∃ layers, Arranged [g, c, if Path.Bare (environmentName env) then [] else e] layers ∧
      ∀ under rest, merge under ((presentLayers lib orders env disk workspace).map Prod.snd ++ rest) =
        merge under (layers.map .ok ++ rest) := by
    have hfiles := List.Forall₂.cons (R := fun file s => Adds lib disk (Prod.snd file) s) (a := (FileKind.base, _)) hc.adds_config
      (.cons (a := (FileKind.environment, _)) (FileLayer.adds _ _ he) .nil)
    unfold presentLayers workspaceFiles
    rcases hg.adds with ⟨hnone, rfl⟩ | ⟨path, hsome, hadds⟩
    · rw [hnone]
      obtain ⟨layers, harranged, hmerge⟩ := exists_merge_files orders hfiles
      exact ⟨[] :: layers, .cons ⟨.listed, rfl⟩ harranged, hmerge⟩
    · rw [hsome]
      exact exists_merge_files orders (.cons (a := (FileKind.global, path)) hadds hfiles)
  refine ⟨_, layers ++ [(orders.source .variables).source env.source], ?_, ofSources_congr _ fun under => ?_⟩
  · exact harranged.append (.cons ⟨_, rfl⟩ .nil)
  · rw [List.map_append, hmerge, List.map_append]
    rfl

/-- Loading the settings of a file is gathering its layer and the variables, with their entries in some order. -/
theorem exists_loadFile_eq (orders : Orders) {file : String} {f : Source} (hf : ExplicitLayer lib disk file f) :
    ∃ misfit layers, Arranged [f, env.source] layers ∧ loadFile lib orders env disk file = ofSources misfit (layers.map .ok) := by
  obtain ⟨path, reader, text, hlocate, htext, hs⟩ := hf
  refine ⟨_, [(orders.source (.file .given file)).source f, (orders.source .variables).source env.source],
    .cons ⟨_, rfl⟩ (.cons ⟨_, rfl⟩ .nil), ofSources_congr _ fun under => ?_⟩
  simp only [fileLayer, Library.fileSource, hlocate, htext, hs]
  rfl

end

/-! ## Places in lists -/

/-- Filling up a list does not change what stands at a place. -/
theorem getD_padded (ds : List Document) (k n : Nat) : ((ds ++ List.replicate k .null)[n]?).getD .null = (ds[n]?).getD .null := by
  rw [List.getElem?_append]
  split
  · rfl
  · rename_i hn
    rw [List.getElem?_eq_none (Nat.not_lt.1 hn), List.getElem?_replicate]
    split <;> rfl

/-- A place in a list can be had unless it is counted from the end of a list that has fewer items. -/
theorem placeIn_eq (length : Nat) (i : Int) : placeIn length i =
    if -i ≤ length then .ok (if i < 0 then length - i.natAbs else i.toNat) else .error .beforeFirst := by
  unfold placeIn
  by_cases hi : i < 0
  · by_cases hlength : length < i.natAbs
    · rw [if_pos hi, if_pos hlength, if_neg (by omega)]
    · rw [if_pos hi, if_neg hlength, if_pos (by omega), if_pos hi]
  · rw [if_neg hi, if_pos (by omega), if_neg hi]

/-- An item of a list can be changed exactly if its place can be had and the change can be made. -/
theorem exists_changeItem_iff {ds : List Document} {i : Int} {f : Document → Except PlaceFault Document} :
    (∃ items, changeItem ds i f = .ok items) ↔ -i ≤ ds.length ∧ ∃ d, f (itemAt ds i) = .ok d := by
  unfold changeItem itemAt
  rw [placeIn_eq]
  by_cases hi : -i ≤ ds.length
  · rw [if_pos hi]
    simp only [bind, Except.bind, getD_padded]
    generalize (ds[if i < 0 then ds.length - i.natAbs else i.toNat]?).getD .null = item
    cases hf : f item with
    | error fault => simp
    | ok d => simp [hi, pure, Except.pure]
  · simp [hi, bind, Except.bind]

/-- A value can be put at the end of a path exactly if the places on the way can be had. -/
theorem exists_assign_iff (value : Document) (steps : List Step) (under : Document) :
    (∃ d, assign value steps under = .ok d) ↔ HasPlaces steps under := by
  induction steps generalizing under with
  | nil => exact ⟨fun _ => trivial, fun _ => ⟨value, rfl⟩⟩
  | cons step rest ih =>
    cases step with
    | name s =>
      rw [HasPlaces]
      cases rest with
      | nil => exact ⟨fun _ => trivial, fun _ => ⟨_, rfl⟩⟩
      | cons next rest =>
        rw [← ih]
        constructor
        · rintro ⟨d, hd⟩
          obtain ⟨member, hmember, -⟩ := exists_of_assign_name hd
          exact ⟨member, hmember⟩
        · rintro ⟨member, hmember⟩
          refine ⟨.table (putEntry (Text.lower s) member (entriesOf under)), ?_⟩
          rw [assign]
          · simp only [hmember, bind, Except.bind, pure, Except.pure]
          · intro hnil
            cases hnil
    | index i =>
      have hitems : (∃ d, assign value (.index i :: rest) under = .ok d) ↔
          ∃ items, changeItem (itemsOf under) i (assign value rest) = .ok items := by
        have hassign : assign value (.index i :: rest) under =
            do return .list (← changeItem (itemsOf under) i (assign value rest)) := by
          cases rest <;> rfl
        rw [hassign]
        cases changeItem (itemsOf under) i (assign value rest) with
        | error fault => simp [bind, Except.bind]
        | ok items => simp [bind, Except.bind, pure, Except.pure]
      rw [hitems, exists_changeItem_iff, ih, HasPlaces]

/-- A source cannot be laid over a document exactly if one of its entries asks for a place that cannot be had after those in front of
it. -/
theorem error_of_addSource_iff (under : Document) (s : Source) :
    (∃ fault, addSource under s = .error fault) ↔
      ∃ front e rest d, s = front ++ e :: rest ∧ addSource under front = .ok d ∧ ¬HasPlaces (pathOf e.1) d := by
  constructor
  · rintro ⟨fault, hfault⟩
    induction s generalizing under with
    | nil => cases hfault
    | cons e s ih =>
      by_cases hplaces : HasPlaces (pathOf e.1) under
      · obtain ⟨first, hfirst⟩ := (exists_assign_iff e.2 _ under).2 hplaces
        have hrest : addSource first s = .error fault := by
          rw [addSource, List.foldlM_cons] at hfault
          rw [addSource]
          simpa only [hfirst, bind, Except.bind] using hfault
        obtain ⟨front, e', rest, d, rfl, hd, hmissing⟩ := ih first hrest
        exact ⟨e :: front, e', rest, d, rfl, addSource_cons_of_ok hfirst hd, hmissing⟩
      · exact ⟨[], e, s, under, rfl, rfl, hplaces⟩
  · rintro ⟨front, e, rest, d, rfl, hd, hmissing⟩
    cases hall : addSource under (front ++ e :: rest) with
    | error fault => exact ⟨fault, rfl⟩
    | ok all =>
      obtain ⟨first, hfirst, hlast⟩ := exists_of_addSource_append hall
      rw [hd] at hfirst
      cases hfirst
      obtain ⟨next, hnext, -⟩ := exists_of_addSource hlast
      exact absurd ((exists_assign_iff e.2 _ d).1 ⟨next, hnext⟩) hmissing

/-- Merging layers is laying all their entries over each other. -/
theorem merge_eq (under : Document) (layers : List Source) :
    merge under (layers.map .ok) = (addSource under layers.flatten).mapError .place := by
  induction layers generalizing under with
  | nil => rfl
  | cons s layers ih =>
    rw [List.map_cons, merge, List.flatten_cons]
    cases hs : addSource under s with
    | error fault =>
      rw [addSource] at hs
      rw [addSource, List.foldlM_append, hs]
      rfl
    | ok first =>
      simp only [ih]
      rw [addSource] at hs
      rw [addSource, addSource, List.foldlM_append, hs]
      rfl

/-- Merging fails exactly if an entry asks for a place that cannot be had. -/
theorem error_of_merge_iff (layers : List Source) :
    (∃ fault, merge (.table []) (layers.map .ok) = .error fault) ↔ Misplaced layers := by
  rw [Misplaced, ← error_of_addSource_iff, merge_eq]
  cases addSource (.table []) layers.flatten with
  | error fault => exact ⟨fun _ => ⟨fault, rfl⟩, fun _ => ⟨.place fault, rfl⟩⟩
  | ok d => exact ⟨nofun, nofun⟩

/-- Places that are counted from the beginning can be had. -/
theorem hasPlaces_of_forward {steps : List Step} (h : ∀ step ∈ steps, step.isForward = true) (d : Document) : HasPlaces steps d := by
  induction steps generalizing d with
  | nil => trivial
  | cons step rest ih =>
    rw [List.forall_mem_cons] at h
    cases step with
    | name s => exact ih h.2 _
    | index i =>
      have hi : 0 ≤ i := by simpa [Step.isForward] using h.1
      exact ⟨by omega, ih h.2 _⟩

/-- The entries of a source in order have the keys of the source. -/
theorem exists_mem_of_mem_source {o : Order} {s : Source} {e : String × Document} (h : e ∈ o.source s) : ∃ d, (e.1, d) ∈ s := by
  have hmembers : e ∈ o.members [] s := ((o.table []).perm _).mem_iff.1 h
  clear h
  induction s with
  | nil => cases hmembers
  | cons first s ih =>
    rw [Order.members] at hmembers
    rcases List.mem_cons.1 hmembers with rfl | hrest
    · exact ⟨first.2, List.mem_cons_self⟩
    · obtain ⟨d, hd⟩ := ih hrest
      exact ⟨d, List.mem_cons_of_mem _ hd⟩

/-- No entry is misplaced in any order if all places are counted from the beginning. -/
theorem not_misplaced_of_forward {layers layers' : List Source} (harranged : Arranged layers layers') (h : ∀ s ∈ layers, s.Forward) :
    ¬Misplaced layers' := by
  have hforward : ∀ s ∈ layers', s.Forward := by
    induction harranged with
    | nil => exact nofun
    | cons hs _ ih =>
      obtain ⟨o, rfl⟩ := hs
      rw [List.forall_mem_cons] at h ⊢
      refine ⟨fun e he => ?_, ih h.2⟩
      obtain ⟨d, hd⟩ := exists_mem_of_mem_source he
      exact h.1 (e.1, d) hd
  rintro ⟨front, e, rest, d, hlayers, -, hmissing⟩
  have he : e ∈ layers'.flatten := by simp [hlayers]
  obtain ⟨s, hs, he⟩ := List.mem_flatten.1 he
  exact hmissing (hasPlaces_of_forward (hforward s hs e he) d)

/-! ## From layers to the result -/

/-- An assignment to a name leaves a table. -/
theorem table_of_assign_name {value under d : Document} {s : String} {rest : List Step}
    (h : assign value (.name s :: rest) under = .ok d) : Held.of d = .table := by
  cases rest with
  | nil =>
    cases h
    rw [overlay_eq]
    rfl
  | cons next rest =>
    obtain ⟨member, -, rfl⟩ := exists_of_assign_name h
    rfl

/-- Layers over a table leave a table. -/
theorem table_of_merge {under d : Document} {layers : List Source} (hunder : Held.of under = .table)
    (h : merge under (layers.map .ok) = .ok d) : Held.of d = .table := by
  refine merge_keeps (P := fun d => Held.of d = .table) (fun e under d _ h => ?_) hunder h
  obtain ⟨name, rest, hpath⟩ := exists_pathOf_eq e.1
  rw [hpath] at h
  exact table_of_assign_name h

/-- The settings that were read, if there are any and nothing is wrong with them. -/
def checked (misfit : String) : Option Settings → Except SettingsFault Settings
  | none => .error (.unreadable misfit)
  | some s => if s.faults.isEmpty then .ok s else .error (.invalid s.faults)

/-- Settings that were read are acceptable if the width is large enough and the root is not empty. -/
theorem checked_some (misfit : String) (s : Settings) :
    checked misfit (some s) =
      if s.width.toNat < minWidth ∨ s.outputRoot = "" then .error (.invalid s.faults) else .ok s := by
  unfold checked faults
  by_cases hwidth : s.width.toNat < minWidth <;> by_cases hroot : s.outputRoot = "" <;> simp [hwidth, hroot]

/-- Settings that were read are not refused for a place in a list. -/
theorem checked_ne_place (misfit : String) (o : Option Settings) (fault : PlaceFault) : checked misfit o ≠ .error (.place fault) := by
  cases o with
  | none => exact nofun
  | some s =>
    rw [checked_some]
    split <;> exact nofun

/-- Layers that cannot be merged give no settings, for the same reason. -/
theorem ofSources_of_error {misfit : String} {layers : List Source} {f : SettingsFault}
    (h : merge (.table []) ((defaults :: layers).map .ok) = .error f) : ofSources misfit (layers.map .ok) = .error f := by
  rw [ofSources, ← List.map_cons, h]
  rfl

/-- Layers that can be merged give the settings in the merged document. -/
theorem ofSources_of_ok {misfit : String} {layers : List Source} {d : Document}
    (h : merge (.table []) ((defaults :: layers).map .ok) = .ok d) :
    ofSources misfit (layers.map .ok) = checked misfit (ofDocument? d) := by
  rw [ofSources, ← List.map_cons, h]
  simp only [bind, Except.bind]
  cases ofDocument? d <;> rfl

/-- What is loaded from layers over the defaults is decided by the layers. -/
theorem decidedBy_ofSources (misfit : String) (layers : List Source) :
    DecidedBy (defaults :: layers) (ofSources misfit (layers.map .ok)) := by
  have hmisplaced := error_of_merge_iff (defaults :: layers)
  cases hmerge : merge (.table []) ((defaults :: layers).map .ok) with
  | error f =>
    have hmissing : Misplaced (defaults :: layers) := hmisplaced.1 ⟨f, hmerge⟩
    obtain ⟨fault, rfl⟩ : ∃ fault, f = .place fault := by
      rw [merge_eq] at hmerge
      cases hall : addSource (.table []) (defaults :: layers).flatten with
      | error fault =>
        rw [hall] at hmerge
        exact ⟨fault, (Except.error.inj hmerge).symm⟩
      | ok d =>
        rw [hall] at hmerge
        cases hmerge
    rw [ofSources_of_error hmerge]
    exact ⟨⟨fun _ => hmissing, fun _ => ⟨fault, rfl⟩⟩, fun hno => absurd hmissing hno, fun _ => ⟨nofun, nofun⟩⟩
  | ok d =>
    have hplaced : ¬Misplaced (defaults :: layers) := by
      rw [← hmisplaced, hmerge]
      rintro ⟨fault, hfault⟩
      cases hfault
    -- what stands in the merged document is what stands after the layers
    have htidy : Tidy d := tidy_merge (.of_entriesOf rfl) hmerge
    have htable : Held.of d = .table := table_of_merge rfl hmerge
    have hheld : heldBy (defaults :: layers) = fun path => held path (some d) := funext fun path => (held_merge hmerge path).symm
    rw [ofSources_of_ok hmerge]
    refine ⟨⟨?_, fun hmissing => absurd hmissing hplaced⟩, fun _ s hs => ?_, fun hlists => ?_⟩
    · rintro ⟨fault, hfault⟩
      exact absurd hfault (checked_ne_place misfit _ fault)
    · rw [hheld] at hs
      rw [ofDocument?_of_takes htidy htable hs, checked_some]
    · rw [hheld] at hlists ⊢
      cases hs : ofDocument? d with
      | none => exact ⟨nofun, nofun⟩
      | some s =>
        have htakes := takes_of_ofDocument? htidy htable hlists hs
        rw [checked_some]
        split
        · rename_i hfaulty
          exact ⟨nofun, fun _ _ => ⟨s, htakes, hfaulty⟩⟩
        · refine ⟨?_, nofun⟩
          rintro _ ⟨⟩
          exact htakes

/-- The defaults lie under layers that are arranged. -/
theorem Arranged.defaults {layers layers' : List Source} (h : Arranged layers layers') :
    Arranged (Settings.defaults :: layers) (Settings.defaults :: layers') := .cons ⟨.listed, rfl⟩ h

/-- Settings come from the highest layer that gives a value. The layers are, from the lowest: the defaults, the global file, the base
file and the environment's file of the workspace, and the variables; or, with a file that is given, the defaults, this file and the
variables. Formats and their readers may be any, and the entries of each layer may be gone through in any order.

What stands at a path after layers is the value of the highest layer that gives one, if those above say nothing of the path, and
nothing if none says anything. Only where a layer contradicts itself does the order of its entries matter. The environment's file does
not count, even if it is there, if the name of the environment leaves nothing in front of the extension. -/
theorem highest_layer_decides (lib : Library) (orders : Orders) (env : Environment) (disk : Disk) :
    (∀ lower s higher layers path v, Arranged (lower ++ s :: higher) layers → Source.Gives s path v →
      (∀ h ∈ higher, Source.Silent h path) → heldBy layers path = .value v) ∧
    (∀ layers layers' name path, Arranged layers layers' → (∀ s ∈ layers, Source.Silent s (name :: path)) →
      heldBy layers' (name :: path) = .nothing) ∧
    (∀ layers layers', Arranged layers layers' →
      ((∀ s ∈ layers, s.Coherent) → heldBy layers' = heldBy layers) ∧ ((∀ s ∈ layers, s.Forward) → ¬Misplaced layers')) ∧
    (∀ workspace g c e, GlobalLayer lib env disk g →
      FileLayer lib disk (Path.join (Path.join workspace "config") "config.toml") c →
      FileLayer lib disk (Path.join (Path.join workspace "config") (environmentName env ++ ".toml")) e →
      ∃ layers, Arranged [defaults, g, c, if Path.Bare (environmentName env) then [] else e, env.source] layers ∧
        DecidedBy layers (load lib orders env disk workspace)) ∧
    ∀ file f, ExplicitLayer lib disk file f →
      ∃ layers, Arranged [defaults, f, env.source] layers ∧ DecidedBy layers (loadFile lib orders env disk file) := by
  refine ⟨fun _ _ _ _ _ _ harranged => heldBy_of_highest harranged, fun _ _ _ _ harranged => heldBy_of_silent harranged,
    fun _ _ harranged => ⟨heldBy_of_coherent harranged, not_misplaced_of_forward harranged⟩, ?_, ?_⟩
  · intro workspace g c e hg hc he
    obtain ⟨misfit, layers, harranged, hload⟩ := exists_load_eq orders hg hc he
    rw [hload]
    exact ⟨_, harranged.defaults, decidedBy_ofSources misfit layers⟩
  · intro file f hf
    obtain ⟨misfit, layers, harranged, hload⟩ := exists_loadFile_eq orders hf
    rw [hload]
    exact ⟨_, harranged.defaults, decidedBy_ofSources misfit layers⟩

/-! ## Layers of every kind -/

/-- The layer of a settings text. -/
def textLayer (text : String) : Source := (sourceOf? readToml? text).getD []

/-- A file with a settings text has the layer of the text. -/
theorem fileLayer_text {disk : Disk} {path text : String} (htext : disk.readText path = .ok text)
    (hs : (sourceOf? readToml? text).isSome) : FileLayer .standard disk path (textLayer text) := by
  obtain ⟨s, hs⟩ := Option.isSome_iff_exists.1 hs
  have hreader : Library.standard.readers.lookup "toml" = some (readerOf readToml?) := rfl
  refine .present hreader htext ?_
  rw [readerOf, textLayer, hs]
  rfl

/-- A width that is too small, and a root. -/
def globalText : String := "[render]\nwidth = 2\n\n[output]\nroot = \"a\"\n"

/-- A root and a level. -/
def baseText : String := "[output]\nroot = \"b\"\n\n[logging]\nlevel = \"debug\"\n"

/-- An empty section, and a level. -/
def developmentText : String := "[render]\n\n[logging]\nlevel = \"warn\"\n"

/-- A disk with all settings files. -/
def layeredDisk : Disk :=
  [(["x"], Entry.directory), (["x", "tapelink"], .directory), (["x", "tapelink", "config.toml"], .file globalText.toUTF8),
    (["config"], .directory), (["config", "config.toml"], .file baseText.toUTF8),
    (["config", "development.toml"], .file developmentText.toUTF8)].foldl (fun disk e => disk.put e.1 e.2) (.workingIn [])

/-- An environment that names the directory of the global file, and sets the width. -/
def layeredEnv : Environment := ⟨[("XDG_CONFIG_HOME", "x"), ("TAPELINK__RENDER__WIDTH", "80")]⟩

theorem variableKey?_width : Environment.variableKey? "TAPELINK__RENDER__WIDTH" = some "render.width" := by decide +kernel

/-- The width is the only variable that is a setting. -/
theorem source_layeredEnv : layeredEnv.source = [("render.width", .integer 80)] := by
  have hother : Environment.variableKey? "XDG_CONFIG_HOME" = none := by decide +kernel
  have hlower : Text.lower "80" = "80" := by decide +kernel
  have hvalue : Environment.variableValue "80" = .integer 80 := by
    rw [Environment.variableValue]
    simp only [hlower]
    rw [if_neg (by decide), if_neg (by decide), show int64OfText? "80" = some 80 by decide +kernel]
  simp only [Environment.source, layeredEnv, List.filterMap_cons, List.filterMap_nil, hother, variableKey?_width, hvalue,
    Option.map_none, Option.map_some]
  rfl

/-- All layers, the variables last. -/
def layeredLayers : List Source :=
  [defaults, textLayer globalText, textLayer baseText, textLayer developmentText, [("render.width", .integer 80)]]

/-- The width of the variable, the root of the base file and the level of the environment's file. -/
def layeredSettings : Settings := ⟨80, "b", { JournalSettings.standard with level := "warn" }⟩

/-- What stands at the paths of the settings. It is stated of all paths at once, so that the texts are read once. -/
theorem taken_layered : (∀ path ∈ sectionPaths ++ [["logging", "modules"]],
    heldBy layeredLayers path = .nothing ∨ heldBy layeredLayers path = .table) ∧
    Taken asWidth? standard.width layeredSettings.width (heldBy layeredLayers ["render", "width"]) ∧
    Taken asText? standard.outputRoot layeredSettings.outputRoot (heldBy layeredLayers ["output", "root"]) ∧
    Taken asText? standard.journal.level layeredSettings.journal.level (heldBy layeredLayers ["logging", "level"]) ∧
    Taken asText? standard.journal.format layeredSettings.journal.format (heldBy layeredLayers ["logging", "format"]) ∧
    Taken asText? standard.journal.output layeredSettings.journal.output (heldBy layeredLayers ["logging", "output"]) ∧
    Taken asText? standard.journal.file layeredSettings.journal.file (heldBy layeredLayers ["logging", "file"]) ∧
    Taken asBool? standard.journal.color layeredSettings.journal.color (heldBy layeredLayers ["logging", "color"]) := by decide +kernel

/-- None of the layers says anything of single parts of the program. -/
theorem silent_layered : ∀ s ∈ layeredLayers, Source.Silent s ["logging", "modules"] := by decide +kernel

/-- What the three layers leave is these settings. -/
theorem takes_layered : Takes (heldBy layeredLayers) layeredSettings where
  sections := taken_layered.1
  width := taken_layered.2.1
  root := taken_layered.2.2.1
  level := taken_layered.2.2.2.1
  format := taken_layered.2.2.2.2.1
  output := taken_layered.2.2.2.2.2.1
  file := taken_layered.2.2.2.2.2.2.1
  color := taken_layered.2.2.2.2.2.2.2
  modules name := by
    have hnothing : heldBy layeredLayers ["logging", "modules", name] = .nothing :=
      heldBy_of_silent (.refl _) fun s hs => (silent_layered s hs).below [name]
    rw [hnothing, layeredSettings, JournalSettings.standard, Std.ExtTreeMap.getElem?_empty]
    exact .absent

/-- No layer contradicts itself, and none asks for a place in a list. -/
theorem coherent_layered : ∀ s ∈ layeredLayers, s.Coherent ∧ s.Forward := by decide +kernel

instance (h : Held) (n : Int) : Decidable (h = .value (.integer n)) :=
  match h with
  | .value (.integer m) => decidable_of_iff (m = n) (by simp)
  | .value .null | .value (.boolean _) | .value (.float _) | .value (.string _) | .value (.date _) | .value (.list _) |
    .value (.table _) | .nothing | .list | .table => isFalse nofun

instance (w : Write) (path : List String) (n : Int) : Decidable (w.Puts path (.integer n)) := inferInstanceAs (Decidable (_ ∧ _))

instance (s : Source) (path : List String) (n : Int) : Decidable (s.Gives path (.integer n)) := inferInstanceAs (Decidable (_ ∧ _))

/-- The variable gives the width a value. -/
theorem gives_width : Source.Gives [("render.width", .integer 80)] ["render", "width"] (.integer 80) := by decide +kernel

/-- With a file of every kind and a variable, each setting comes from the highest layer that has it, in whatever order the entries of
the layers are gone through. The width of the global file, which is too small, does no harm. -/
theorem layered_settings_load :
    (∀ layers, Arranged layeredLayers layers →
      heldBy layers ["render", "width"] = .value (.integer 80) ∧ heldBy layers ["logging", "modules"] = .nothing) ∧
      ∀ orders, load .standard orders layeredEnv layeredDisk "." = .ok layeredSettings := by
  obtain ⟨hhighest, hsilent, harranged, -, -⟩ := highest_layer_decides .standard .listed layeredEnv layeredDisk
  refine ⟨fun layers h => ⟨?_, hsilent _ _ _ _ h silent_layered⟩, fun orders => ?_⟩
  · exact hhighest [defaults, textLayer globalText, textLayer baseText, textLayer developmentText] [("render.width", .integer 80)] []
      layers ["render", "width"] (.integer 80) h gives_width nofun
  · obtain ⟨-, -, -, hload, -⟩ := highest_layer_decides .standard orders layeredEnv layeredDisk
    have hglobal : GlobalLayer .standard layeredEnv layeredDisk (textLayer globalText) :=
      .given (show layeredEnv.get? "XDG_CONFIG_HOME" = some "x" by decide +kernel) (by decide)
        (fileLayer_text (by decide +kernel) (by decide +kernel))
    obtain ⟨layers, h, hdecided⟩ := hload "." (textLayer globalText) (textLayer baseText) (textLayer developmentText) hglobal
      (fileLayer_text (by decide +kernel) (by decide +kernel)) (fileLayer_text (by decide +kernel) (by decide +kernel))
    rw [if_neg (by decide +kernel), source_layeredEnv] at h
    have hheld := (harranged _ _ h).1 fun s hs => (coherent_layered s hs).1
    have hplaced := (harranged _ _ h).2 fun s hs => (coherent_layered s hs).2
    have htakes : Takes (heldBy layers) layeredSettings := by
      rw [hheld]
      exact takes_layered
    rw [hdecided.settings hplaced layeredSettings htakes, if_neg (by decide)]

/-- A width. -/
def widthText : String := "[render]\nwidth = 80\n"

/-- A disk with a settings file that has an extension for a name. -/
def namelessDisk : Disk :=
  [(["config"], Entry.directory), (["config", ".toml"], .file widthText.toUTF8)].foldl (fun disk e => disk.put e.1 e.2) (.workingIn [])

/-- An environment with an empty name. -/
def namelessEnv : Environment := ⟨[("TAPELINK_ENV", "")]⟩

/-- The variable that names the environment is no setting. -/
theorem source_namelessEnv : namelessEnv.source = [] := by
  have hother : Environment.variableKey? "TAPELINK_ENV" = none := by decide +kernel
  simp only [Environment.source, namelessEnv, List.filterMap_cons, List.filterMap_nil, hother, Option.map_none]
  rfl

/-- The environment's file is there and gives a width, and the variables say nothing of it; but the width stays as it is by default.
-/
theorem nameless_file_passed_over :
    FileLayer .standard namelessDisk (Path.join (Path.join "." "config") (environmentName namelessEnv ++ ".toml")) (textLayer widthText) ∧
      Source.Gives (textLayer widthText) ["render", "width"] (.integer 80) ∧ namelessEnv.source.Silent ["render", "width"] ∧
      load .standard .listed namelessEnv namelessDisk "." = .ok standard ∧ standard.width = 120 := by
  have hfile : FileLayer .standard namelessDisk (Path.join (Path.join "." "config") (environmentName namelessEnv ++ ".toml"))
      (textLayer widthText) := fileLayer_text (by decide +kernel) (by decide +kernel)
  refine ⟨hfile, by decide +kernel, ?_, by decide +kernel, by decide⟩
  rw [source_namelessEnv]
  exact nofun

end DispatchTree.Settings
