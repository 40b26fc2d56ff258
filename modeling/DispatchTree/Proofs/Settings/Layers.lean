import DispatchTree.Settings

/-!
# What stands where after layers are laid over each other

A layer of settings is a list of writes: paths of names, and what is put there. What stands at a path after some layers is what the
writes leave there, one after the other (`heldBy`). The merged document is seen through its paths only, and at each path it holds
what the writes leave there (`held_merge`). Its tables name every entry once (`tidy_merge`).
-/

namespace DispatchTree.Settings

/-- What stands at a path. -/
inductive Held where
  | nothing
  /-- A value that is neither a list nor a table. -/
  | value (d : Document)
  | list
  | table

namespace Held

/-- What a document is. -/
def of : Document → Held
  | .list _ => .list
  | .table _ => .table
  | d => .value d

/-- What stands at a path after something is put there. A table without entries replaces nothing. -/
def onto : Held → Held → Held
  | .table, .nothing => .table
  | .table, before => before
  | h, _ => h

/-- Whether there can be anything below. -/
def isTable : Held → Bool
  | .table => true
  | _ => false

instance (h : Held) : Decidable (h = .nothing) :=
  match h with
  | .nothing => isTrue rfl
  | .value _ => isFalse nofun
  | .list => isFalse nofun
  | .table => isFalse nofun

instance (h : Held) : Decidable (h = .table) :=
  match h with
  | .nothing => isFalse nofun
  | .value _ => isFalse nofun
  | .list => isFalse nofun
  | .table => isTrue rfl

end Held

/-- The document that a path of names leads to. -/
def entryAt : List String → Option Document → Option Document
  | [], o => o
  | name :: path, o => entryAt path (o.bind fun d => (entriesOf d).lookup name)

/-- What stands at a path of names in a document, or in none. -/
def held (path : List String) (o : Option Document) : Held :=
  match entryAt path o with
  | none => .nothing
  | some d => .of d

/-- A path of names, and what is put there: a value, a list, or a table without entries. -/
structure Write where
  path : List String
  held : Held

namespace Write

/-- The write, seen from the table above. -/
def under (name : String) (w : Write) : Write := { w with path := name :: w.path }

/-- What stands at a path after a write. Above the path of the write there are tables. Below it there is nothing any more, unless a
table was put there. -/
def after (w : Write) (path : List String) (before : Held) : Held :=
  if w.path = path then w.held.onto before
  else if path.isPrefixOf w.path then .table
  else if w.path.isPrefixOf path && !w.held.isTable then .nothing
  else before

end Write

/-- What stands at a path after some writes. -/
def laid (ws : List Write) (path : List String) (before : Held) : Held := ws.foldl (fun h w => w.after path h) before

mutual

/-- The writes of a value, seen from where it is put. -/
def valueWrites : Document → List Write
  | .table [] => [⟨[], .table⟩]
  | .table (e :: es) => entriesWrites (e :: es)
  | d => [⟨[], .of d⟩]

/-- The writes of the entries of a table. -/
def entriesWrites : List (String × Document) → List Write
  | [] => []
  | (name, d) :: es => (valueWrites d).map (.under (Text.lower name)) ++ entriesWrites es

end

/-- The writes of a value at the end of a path. A path that leads into a list puts a list there. -/
def pathWrites (value : Document) : List Step → List Write
  | [] => valueWrites value
  | .name s :: rest => (pathWrites value rest).map (.under (Text.lower s))
  | .index _ :: _ => [⟨[], .list⟩]

/-- The writes of a source. -/
def Source.writes (s : Source) : List Write := s.flatMap fun e => pathWrites e.2 (pathOf e.1)

/-- What stands at a path after layers are laid over an empty table, the lowest first. -/
def heldBy (layers : List Source) (path : List String) : Held :=
  laid (layers.flatMap Source.writes) path (held path (some (.table [])))

/-! ## Writes under a name -/

/-- A write below a name leaves a table above it. -/
theorem Write.after_under_nil (w : Write) (name : String) (before : Held) : (w.under name).after [] before = .table := by
  simp [after, under]

/-- Below its name a write is what it was. -/
theorem Write.after_under_self (w : Write) (name : String) (path : List String) (before : Held) :
    (w.under name).after (name :: path) before = w.after path before := by
  simp [after, under]

/-- Below another name a write changes nothing. -/
theorem Write.after_under_of_ne (w : Write) {name k : String} (h : k ≠ name) (path : List String) (before : Held) :
    (w.under name).after (k :: path) before = before := by
  have h' : name ≠ k := h.symm
  simp [after, under, h, h']

/-- A write at the top decides what stands there. -/
theorem Write.after_top_nil (h before : Held) : (⟨[], h⟩ : Write).after [] before = h.onto before := by simp [after]

/-- A write at the top takes away everything below, unless it puts a table there. -/
theorem Write.after_top_cons (h before : Held) (k : String) (path : List String) :
    (⟨[], h⟩ : Write).after (k :: path) before = if h.isTable then before else .nothing := by
  cases h <;> simp [after, Held.isTable]

theorem laid_append (ws ws' : List Write) (path : List String) (before : Held) :
    laid (ws ++ ws') path before = laid ws' path (laid ws path before) := List.foldl_append

/-- Writes below a name leave a table above it. -/
theorem laid_under_nil {ws : List Write} (h : ws ≠ []) (name : String) (before : Held) :
    laid (ws.map (.under name)) [] before = .table := by
  rcases List.eq_nil_or_concat ws with rfl | ⟨front, w, rfl⟩
  · exact absurd rfl h
  · rw [List.concat_eq_append, List.map_append, laid_append]
    exact w.after_under_nil name (laid (front.map (.under name)) [] before)

/-- Below their name writes are what they were. -/
theorem laid_under_self (ws : List Write) (name : String) (path : List String) (before : Held) :
    laid (ws.map (.under name)) (name :: path) before = laid ws path before := by
  simp only [laid, List.foldl_map, Write.after_under_self]

/-- Below another name writes change nothing. -/
theorem laid_under_of_ne (ws : List Write) {name k : String} (h : k ≠ name) (path : List String) (before : Held) :
    laid (ws.map (.under name)) (k :: path) before = before := by
  simp only [laid, List.foldl_map, Write.after_under_of_ne _ h]
  induction ws with
  | nil => rfl
  | cons w ws ih => exact ih

/-! ## Entries of tables -/

theorem lookup_cons_eq {β : Type} (n k : String) (v : β) (es : List (String × β)) :
    ((n, v) :: es).lookup k = if k = n then some v else es.lookup k := by
  rw [List.lookup_cons]
  split <;> simp_all

/-- What is found under a name is an entry. -/
theorem mem_of_lookup {β : Type} {es : List (String × β)} {k : String} {v : β} (h : es.lookup k = some v) : (k, v) ∈ es := by
  obtain ⟨front, rest, rfl, -⟩ := List.lookup_eq_some_iff.1 h
  simp

/-- An entry is found under its name, if each name stands once. -/
theorem lookup_of_mem {β : Type} {es : List (String × β)} (hes : (es.map Prod.fst).Nodup) {k : String} {v : β} (h : (k, v) ∈ es) :
    es.lookup k = some v := by
  obtain ⟨front, rest, rfl⟩ := List.append_of_mem h
  refine List.lookup_eq_some_iff.2 ⟨front, rest, rfl, fun e he => ?_⟩
  rw [List.map_append, List.map_cons, List.nodup_append] at hes
  have hne := hes.2.2 e.1 (List.mem_map_of_mem he) k List.mem_cons_self
  simpa using Ne.symm hne

/-- Where names stand once, no later entry has the name of the first. -/
theorem lookup_of_nodup {β : Type} {k : String} {v : β} {es : List (String × β)} (hes : (((k, v) :: es).map Prod.fst).Nodup) :
    es.lookup k = none := by
  rw [List.map_cons, List.nodup_cons] at hes
  cases hl : es.lookup k with
  | none => rfl
  | some d => exact absurd (List.mem_map_of_mem (mem_of_lookup hl)) hes.1

/-- A name stands in a table if something is found under it. -/
theorem any_eq_isSome_lookup (name : String) (es : List (String × Document)) :
    es.any (·.1 == name) = (es.lookup name).isSome := by
  induction es with
  | nil => rfl
  | cons e es ih =>
    rw [List.any_cons, ih, lookup_cons_eq]
    by_cases h : name = e.1
    · simp [h]
    · simp [h, Ne.symm h]

/-- A value is replaced where its name stands and nowhere else. -/
theorem lookup_replaced (name k : String) (d : Document) (es : List (String × Document)) :
    (es.map fun e => if e.1 == name then (name, d) else e).lookup k =
      if k = name then (es.lookup name).map fun _ => d else es.lookup k := by
  induction es with
  | nil => simp
  | cons e es ih =>
    rw [List.map_cons, lookup_cons_eq e.1 name, lookup_cons_eq e.1 k]
    by_cases hn : e.1 = name
    · rw [if_pos (by simpa using hn), lookup_cons_eq, ih]
      split <;> simp_all
    · rw [if_neg (by simpa using hn), lookup_cons_eq, ih, if_neg (Ne.symm hn)]
      split <;> simp_all

/-- The table answers with the new entry under its name, and as before under all others. -/
theorem lookup_putEntry (name k : String) (d : Document) (es : List (String × Document)) :
    (putEntry name d es).lookup k = if k = name then some d else es.lookup k := by
  unfold putEntry
  rw [any_eq_isSome_lookup]
  cases h : es.lookup name with
  | none =>
    rw [if_neg (by simp), List.lookup_append, lookup_cons_eq, List.lookup_nil]
    split
    · rename_i hk
      rw [hk, h, Option.none_or]
    · rw [Option.or_none]
  | some v => rw [if_pos (by simp), lookup_replaced, h, Option.map_some]

/-- Where there is no document nothing is at any path. -/
theorem entryAt_none (path : List String) : entryAt path none = none := by
  induction path with
  | nil => rfl
  | cons name path ih => exact ih

theorem held_none (path : List String) : held path none = .nothing := by rw [held, entryAt_none]

/-- What stands at a path is what stands at the rest of it below the entry of its first name. -/
theorem held_cons (name : String) (path : List String) (o : Option Document) :
    held (name :: path) o = held path ((entriesOf (o.getD .null)).lookup name) := by
  cases o <;> rfl

/-- What stands in a table with a new entry, if the entry holds what some writes leave of the one before. -/
theorem held_putEntry (name : String) {ws : List Write} (hws : ws ≠ []) {d : Document} {o : Option Document}
    (h : ∀ path, held path (some d) = laid ws path (held path ((entriesOf (o.getD .null)).lookup name))) (path : List String) :
    held path (some (.table (putEntry name d (entriesOf (o.getD .null))))) = laid (ws.map (.under name)) path (held path o) := by
  cases path with
  | nil => exact (laid_under_nil hws name _).symm
  | cons k path =>
    rw [held_cons, Option.getD_some, entriesOf, lookup_putEntry]
    split
    · rename_i hk
      rw [hk, laid_under_self, h, held_cons]
    · rename_i hk
      rw [laid_under_of_ne ws hk, held_cons]

/-! ## Merging -/

/-- What a value leaves where something may have been before. -/
def valueOver (value : Document) (o : Option Document) : Document :=
  match value with
  | .table es => overlayAll es (o.getD (.table []))
  | v => v

/-- A value is laid over a table under the small letters of its name. -/
theorem overlay_eq (name : String) (value under : Document) : overlay name value under =
    .table (putEntry (Text.lower name) (valueOver value ((entriesOf under).lookup (Text.lower name))) (entriesOf under)) := by
  cases value <;> simp only [overlay, valueOver]

/-- Every value writes something, even an empty table. -/
theorem valueWrites_ne_nil (d : Document) : valueWrites d ≠ [] := by
  cases d with
  | table es =>
    cases es with
    | nil => simp [valueWrites]
    | cons e es =>
      obtain ⟨name, d⟩ := e
      simp [valueWrites, entriesWrites, valueWrites_ne_nil d]
  | _ => simp [valueWrites]

/-- Entries make a table of what they are laid over. -/
theorem laid_entriesWrites_nil (e : String × Document) (es : List (String × Document)) (before : Held) :
    laid (entriesWrites (e :: es)) [] before = .table := by
  induction es generalizing e before with
  | nil => rw [entriesWrites, entriesWrites, List.append_nil, laid_under_nil (valueWrites_ne_nil e.2)]
  | cons e' es ih => rw [entriesWrites, laid_append, ih]

mutual

/-- A value that is put somewhere leaves there what its writes leave. -/
theorem held_valueOver (value : Document) (path : List String) (o : Option Document) :
    held path (some (valueOver value o)) = laid (valueWrites value) path (held path o) := by
  cases value with
  | table es =>
    cases es with
    | nil =>
      -- an empty table is put where nothing is, and nowhere else
      show held path (some (o.getD (.table []))) = (⟨[], .table⟩ : Write).after path (held path o)
      cases path with
      | nil =>
        rw [Write.after_top_nil]
        cases o with
        | none => rfl
        | some d => cases d <;> rfl
      | cons k path =>
        rw [Write.after_top_cons]
        cases o with
        | none => exact (held_none _).trans (held_none _).symm
        | some d => rfl
    | cons e es =>
      rw [valueOver, valueWrites, held_overlayAll (e :: es)]
      cases o with
      | some d => rfl
      | none =>
        cases path with
        | nil => rw [laid_entriesWrites_nil, laid_entriesWrites_nil]
        | cons k path => exact congrArg _ ((held_none _).trans (held_none _).symm)
  | _ =>
    cases path with
    | nil => rfl
    | cons k path => simp [valueWrites, laid, Write.after_top_cons, Held.of, Held.isTable, valueOver, held_cons, entriesOf, held_none]

/-- What stands at a path after entries are laid over a document is what their writes leave there. -/
theorem held_overlayAll (es : List (String × Document)) (path : List String) (under : Document) :
    held path (some (overlayAll es under)) = laid (entriesWrites es) path (held path (some under)) := by
  match es with
  | [] => rw [overlayAll, entriesWrites, laid, List.foldl_nil]
  | (name, value) :: es =>
    have hvalue := held_putEntry (Text.lower name) (valueWrites_ne_nil value) (o := some under) fun path =>
      held_valueOver value path ((entriesOf under).lookup (Text.lower name))
    rw [overlayAll, held_overlayAll es, entriesWrites, laid_append, overlay_eq]
    exact congrArg _ (hvalue path)

end

/-- A value at the end of a path writes something. -/
theorem pathWrites_ne_nil (value : Document) (steps : List Step) : pathWrites value steps ≠ [] := by
  induction steps with
  | nil => exact valueWrites_ne_nil value
  | cons step rest ih => cases step <;> simp [pathWrites, ih]

/-- An assignment below a name goes on in the entry of that name and puts it back. -/
theorem exists_of_assign_name {value under d : Document} {s : String} {next : Step} {rest : List Step}
    (h : assign value (.name s :: next :: rest) under = .ok d) :
    ∃ member, assign value (next :: rest) (((entriesOf under).lookup (Text.lower s)).getD .null) = .ok member ∧
      d = .table (putEntry (Text.lower s) member (entriesOf under)) := by
  rw [assign] at h
  · cases hmember : assign value (next :: rest) (((entriesOf under).lookup (Text.lower s)).getD .null) with
    | error f => simp [hmember, bind, Except.bind] at h
    | ok member =>
      simp only [hmember, bind, Except.bind, pure, Except.pure, Except.ok.injEq] at h
      exact ⟨member, rfl, h.symm⟩
  · exact nofun

/-- What begins as a list is a list. -/
theorem exists_items {x : Except PlaceFault (List Document)} {d : Document} (h : (do return Document.list (← x)) = .ok d) :
    ∃ items, d = .list items := by
  cases x with
  | error f => cases h
  | ok items => exact ⟨items, (Except.ok.inj h).symm⟩

/-- An assignment into a list leaves a list. -/
theorem exists_of_assign_index {value under d : Document} {i : Int} {rest : List Step}
    (h : assign value (.index i :: rest) under = .ok d) : ∃ items, d = .list items := by
  cases rest with
  | nil => exact exists_items h
  | cons next rest => exact exists_items h

/-- A value at the end of a path leaves what its writes leave. -/
theorem held_assign {value : Document} {steps : List Step} (hsteps : steps ≠ []) {o : Option Document} {d : Document}
    (h : assign value steps (o.getD .null) = .ok d) (path : List String) :
    held path (some d) = laid (pathWrites value steps) path (held path o) := by
  induction steps generalizing o d path with
  | nil => exact absurd rfl hsteps
  | cons step rest ih =>
    cases step with
    | name s =>
      cases rest with
      | nil =>
        cases h
        rw [overlay_eq]
        exact held_putEntry _ (valueWrites_ne_nil value) (fun path => held_valueOver value path _) path
      | cons next rest =>
        obtain ⟨member, hmember, rfl⟩ := exists_of_assign_name h
        exact held_putEntry _ (pathWrites_ne_nil value (next :: rest)) (fun path => ih (by simp) hmember path) path
    | index i =>
      obtain ⟨items, rfl⟩ := exists_of_assign_index h
      cases path with
      | nil => rfl
      | cons k path => simp [pathWrites, laid, Write.after_top_cons, Held.isTable, held_cons, entriesOf, held_none]

/-- A path starts with a name. -/
theorem exists_pathOf_eq (key : String) : ∃ s rest, pathOf key = .name s :: rest := by
  rw [pathOf]
  cases h : pathOf? (Text.lower key) with
  | none => exact ⟨_, _, rfl⟩
  | some steps =>
    unfold pathOf? at h
    dsimp only at h
    split at h
    · cases h
    · obtain ⟨rest, -, rfl⟩ := Option.map_eq_some_iff.1 h
      exact ⟨_, rest, rfl⟩

/-- No key is an empty path. -/
theorem pathOf_ne_nil (key : String) : pathOf key ≠ [] := by
  obtain ⟨s, rest, h⟩ := exists_pathOf_eq key
  simp [h]

/-- The first entry of a source is assigned first, and then the others. -/
theorem exists_of_addSource {under d : Document} {e : String × Document} {s : Source} (h : addSource under (e :: s) = .ok d) :
    ∃ first, assign e.2 (pathOf e.1) under = .ok first ∧ addSource first s = .ok d := by
  rw [addSource, List.foldlM_cons] at h
  cases hfirst : assign e.2 (pathOf e.1) under with
  | error f => simp [hfirst, bind, Except.bind] at h
  | ok first =>
    simp only [hfirst, bind, Except.bind] at h
    exact ⟨first, rfl, h⟩

/-- If the first entry and then the others can be assigned, so can all of them. -/
theorem addSource_cons_of_ok {under first d : Document} {e : String × Document} {s : Source}
    (hfirst : assign e.2 (pathOf e.1) under = .ok first) (h : addSource first s = .ok d) : addSource under (e :: s) = .ok d := by
  rw [addSource, List.foldlM_cons]
  simp only [hfirst, bind, Except.bind]
  exact h

/-- The first entries of a source are assigned before the later ones. -/
theorem exists_of_addSource_append {under d : Document} {s t : Source} (h : addSource under (s ++ t) = .ok d) :
    ∃ first, addSource under s = .ok first ∧ addSource first t = .ok d := by
  induction s generalizing under with
  | nil => exact ⟨under, rfl, h⟩
  | cons e s ih =>
    obtain ⟨next, hnext, hrest⟩ := exists_of_addSource h
    obtain ⟨first, hfirst, hlast⟩ := ih hrest
    exact ⟨first, addSource_cons_of_ok hnext hfirst, hlast⟩

/-- If the first entries and then the later ones can be assigned, so can all of them. -/
theorem addSource_append_of_ok {under first d : Document} {s t : Source} (hfirst : addSource under s = .ok first)
    (h : addSource first t = .ok d) : addSource under (s ++ t) = .ok d := by
  rw [addSource] at hfirst
  rw [addSource, List.foldlM_append, hfirst]
  exact h

/-- A source leaves what its writes leave. -/
theorem held_addSource {under d : Document} {s : Source} (h : addSource under s = .ok d) (path : List String) :
    held path (some d) = laid s.writes path (held path (some under)) := by
  induction s generalizing under with
  | nil =>
    cases h
    rfl
  | cons e s ih =>
    obtain ⟨first, hfirst, hrest⟩ := exists_of_addSource h
    have hwrites : Source.writes (e :: s) = pathWrites e.2 (pathOf e.1) ++ Source.writes s := List.flatMap_cons
    rw [ih hrest, hwrites, laid_append, held_assign (o := some under) (pathOf_ne_nil e.1) hfirst]

/-- The lowest layer is laid down first, and then the others on top of it. -/
theorem addSource_of_merge {under d : Document} {s : Source} {rest : List (Except String Source)}
    (h : merge under (.ok s :: rest) = .ok d) : ∃ first, addSource under s = .ok first ∧ merge first rest = .ok d := by
  rw [merge] at h
  split at h
  · rename_i first hfirst
    exact ⟨first, hfirst, h⟩
  · cases h

/-- What stands in the merged document is what the writes of the layers leave. -/
theorem held_merge {under d : Document} {layers : List Source} (h : merge under (layers.map .ok) = .ok d) (path : List String) :
    held path (some d) = laid (layers.flatMap Source.writes) path (held path (some under)) := by
  induction layers generalizing under with
  | nil =>
    cases h
    rfl
  | cons s layers ih =>
    obtain ⟨first, hfirst, hrest⟩ := addSource_of_merge h
    rw [ih hrest, List.flatMap_cons, laid_append, held_addSource hfirst]

/-- What every value that is put at a path keeps, a source keeps. -/
theorem addSource_keeps {P : Document → Prop}
    (hassign : ∀ (e : String × Document) (under d : Document), P under → assign e.2 (pathOf e.1) under = .ok d → P d)
    {under d : Document} {s : Source} (hunder : P under) (h : addSource under s = .ok d) : P d := by
  induction s generalizing under with
  | nil =>
    cases h
    exact hunder
  | cons e s ih =>
    obtain ⟨first, hfirst, hrest⟩ := exists_of_addSource h
    exact ih (hassign e under first hunder hfirst) hrest

/-- What every value that is put at a path keeps, merging keeps. -/
theorem merge_keeps {P : Document → Prop}
    (hassign : ∀ (e : String × Document) (under d : Document), P under → assign e.2 (pathOf e.1) under = .ok d → P d)
    {under d : Document} {layers : List Source} (hunder : P under) (h : merge under (layers.map .ok) = .ok d) : P d := by
  induction layers generalizing under with
  | nil =>
    cases h
    exact hunder
  | cons s layers ih =>
    obtain ⟨first, hfirst, hrest⟩ := addSource_of_merge h
    exact ih (addSource_keeps hassign hunder hfirst) hrest

/-! ## Names that stand once -/

/-- Every table that is reached through tables names each of its entries once. -/
inductive Tidy : Document → Prop
  | intro {d : Document} (names : ((entriesOf d).map Prod.fst).Nodup) (entries : ∀ e ∈ entriesOf d, Tidy e.2) : Tidy d

namespace Tidy

theorem names {d : Document} : Tidy d → ((entriesOf d).map Prod.fst).Nodup
  | .intro names _ => names

theorem entries {d : Document} : Tidy d → ∀ e ∈ entriesOf d, Tidy e.2
  | .intro _ entries => entries

/-- What has no entries is tidy. -/
theorem of_entriesOf {d : Document} (h : entriesOf d = []) : Tidy d := by
  constructor <;> simp [h]

/-- The entries of a tidy document are tidy. -/
theorem member {d m : Document} (h : Tidy d) {name : String} (hm : (entriesOf d).lookup name = some m) : Tidy m :=
  h.entries _ (mem_of_lookup hm)

/-- An entry of a tidy document, or something tidy in its place, is tidy. -/
theorem memberD {d other : Document} (h : Tidy d) (hother : Tidy other) (name : String) :
    Tidy (((entriesOf d).lookup name).getD other) := by
  cases hm : (entriesOf d).lookup name with
  | none => exact hother
  | some m => exact h.member hm

/-- A tidy entry can be put into a tidy document. -/
theorem put {d under : Document} (hunder : Tidy under) (hd : Tidy d) (name : String) :
    Tidy (.table (putEntry name d (entriesOf under))) := by
  unfold putEntry
  split
  · have hnames : ((entriesOf under).map fun e => if e.1 == name then (name, d) else e).map Prod.fst = (entriesOf under).map Prod.fst := by
      rw [List.map_map]
      refine List.map_congr_left fun e _ => ?_
      by_cases he : e.1 = name <;> simp [he]
    refine .intro (hnames ▸ hunder.names) fun e he => ?_
    obtain ⟨e', he', rfl⟩ := List.mem_map.1 he
    split
    · exact hd
    · exact hunder.entries e' he'
  · rename_i hany
    refine .intro ?_ fun e he => ?_
    · rw [entriesOf, List.map_append, List.nodup_append]
      refine ⟨hunder.names, by simp, ?_⟩
      rintro k hk k' hk' rfl
      obtain ⟨e, he, rfl⟩ := List.mem_map.1 hk
      exact hany (List.any_eq_true.2 ⟨e, he, by simpa using hk'⟩)
    · rcases List.mem_append.1 he with he | he
      · exact hunder.entries e he
      · rw [List.mem_singleton.1 he]
        exact hd

end Tidy

mutual

/-- A value that is laid over a tidy document leaves a tidy document. -/
theorem tidy_valueOver (value : Document) {o : Option Document} (h : Tidy (o.getD (.table []))) : Tidy (valueOver value o) := by
  cases value with
  | table es => exact tidy_overlayAll es h
  | _ => exact .of_entriesOf rfl

/-- Entries that are laid over a tidy document leave a tidy document. -/
theorem tidy_overlayAll (es : List (String × Document)) {under : Document} (h : Tidy under) : Tidy (overlayAll es under) := by
  cases es with
  | nil => exact h
  | cons e es =>
    obtain ⟨name, value⟩ := e
    rw [overlayAll, overlay_eq]
    exact tidy_overlayAll es (h.put (tidy_valueOver value (h.memberD (.of_entriesOf rfl) _)) _)

end

/-- An assignment into a tidy document leaves a tidy document. -/
theorem tidy_assign {value under d : Document} {steps : List Step} (hsteps : steps ≠ []) (hunder : Tidy under)
    (h : assign value steps under = .ok d) : Tidy d := by
  induction steps generalizing under d with
  | nil => exact absurd rfl hsteps
  | cons step rest ih =>
    cases step with
    | name s =>
      cases rest with
      | nil =>
        cases h
        rw [overlay_eq]
        exact hunder.put (tidy_valueOver value (hunder.memberD (.of_entriesOf rfl) _)) _
      | cons next rest =>
        obtain ⟨member, hmember, rfl⟩ := exists_of_assign_name h
        exact hunder.put (ih (by simp) (hunder.memberD (.of_entriesOf rfl) _) hmember) _
    | index i =>
      obtain ⟨items, rfl⟩ := exists_of_assign_index h
      exact .of_entriesOf rfl

/-- The tables of the merged document name each of their entries once. -/
theorem tidy_merge {under d : Document} {layers : List Source} (hunder : Tidy under) (h : merge under (layers.map .ok) = .ok d) :
    Tidy d :=
  merge_keeps (fun e _ _ hunder h => tidy_assign (pathOf_ne_nil e.1) hunder h) hunder h

end DispatchTree.Settings
