import Mathlib.Data.List.Pairwise
import DispatchTree.Proofs.Settings.Layers

/-!
# The highest layer decides

A layer that gives a path a value decides what stands there, whatever the layers below say (`laid_of_puts`), as long as the layers
above it say nothing of the path. Where no layer says anything there is nothing. Neither depends on the order in which the entries of
a layer are gone through (`heldBy_of_highest`, `heldBy_of_silent`), since an order changes nothing but the order of the writes
(`perm_writes`). Of layers that do not contradict themselves all paths hold the same in every order (`heldBy_of_coherent`).
-/

namespace DispatchTree.Settings

/-- A write that leaves a path alone: it puts nothing there nor below, and on the way there at most an empty table. -/
def Write.Apart (w : Write) (path : List String) : Prop := ¬path <+: w.path ∧ (w.path <+: path → w.held.isTable = true)

/-- A write that puts a value at a path. -/
def Write.Puts (w : Write) (path : List String) (v : Document) : Prop := w.path = path ∧ w.held = .value v

/-- Writes that do not contradict each other: neither is above the other, unless it is an empty table. -/
def Write.Suits (w w' : Write) : Prop :=
  (w.path <+: w'.path → w.held.isTable = true) ∧ (w'.path <+: w.path → w'.held.isTable = true)

/-- A layer says nothing of a path. -/
def Source.Silent (s : Source) (path : List String) : Prop := ∀ w ∈ s.writes, w.Apart path

/-- A layer gives a path a value, and says nothing else of the path. -/
def Source.Gives (s : Source) (path : List String) (v : Document) : Prop :=
  (∃ w ∈ s.writes, w.Puts path v) ∧ ∀ w ∈ s.writes, w.Puts path v ∨ w.Apart path

/-- A layer does not contradict itself. -/
def Source.Coherent (s : Source) : Prop := s.writes.Pairwise Write.Suits

/-- Layers with the entries of each of them in some order. -/
def Arranged (layers layers' : List Source) : Prop := List.Forall₂ (fun s s' => ∃ o : Order, s' = o.source s) layers layers'

instance (w : Write) (path : List String) : Decidable (w.Apart path) := inferInstanceAs (Decidable (_ ∧ _))

instance (w w' : Write) : Decidable (w.Suits w') := inferInstanceAs (Decidable (_ ∧ _))

instance (s : Source) (path : List String) : Decidable (s.Silent path) := inferInstanceAs (Decidable (∀ w ∈ s.writes, w.Apart path))

instance (s : Source) : Decidable s.Coherent := inferInstanceAs (Decidable (s.writes.Pairwise _))

/-! ## Writes that leave a path alone -/

/-- A layer that says nothing of a path says nothing of what is below. -/
theorem Source.Silent.below {s : Source} {path : List String} (h : s.Silent path) (rest : List String) : s.Silent (path ++ rest) := by
  intro w hw
  obtain ⟨habove, hway⟩ := h w hw
  have hpath : path <+: path ++ rest := List.prefix_append path rest
  refine ⟨fun hp => habove (hpath.trans hp), fun hp => ?_⟩
  rcases List.prefix_or_prefix_of_prefix hp hpath with hp | hp
  · exact hway hp
  · exact absurd hp habove

/-- A write that leaves a path alone changes nothing there. -/
theorem Write.after_of_apart {w : Write} {path : List String} (h : w.Apart path) (before : Held) : w.after path before = before := by
  have hne : w.path ≠ path := by
    rintro rfl
    exact h.1 (List.prefix_refl _)
  unfold after
  rw [if_neg hne, if_neg (by simpa using h.1), if_neg]
  simpa using h.2

/-- Writes that leave a path alone change nothing there. -/
theorem laid_of_apart {ws : List Write} {path : List String} (h : ∀ w ∈ ws, w.Apart path) (before : Held) :
    laid ws path before = before := by
  induction ws with
  | nil => rfl
  | cons w ws ih =>
    rw [show laid (w :: ws) path before = laid ws path (w.after path before) from rfl,
      Write.after_of_apart (h w List.mem_cons_self), ih fun w hw => h w (List.mem_cons_of_mem _ hw)]

/-- What no layer says anything of, none of their writes touches. -/
theorem apart_of_silent {layers : List Source} {path : List String} (h : ∀ s ∈ layers, s.Silent path) :
    ∀ w ∈ layers.flatMap Source.writes, w.Apart path := by
  intro w hw
  obtain ⟨s, hs, hw⟩ := List.mem_flatMap.1 hw
  exact h s hs w hw

/-! ## Writes that decide -/

/-- There is nothing in an empty table. -/
theorem held_empty (name : String) (path : List String) : held (name :: path) (some (.table [])) = .nothing := held_none path

/-- A write that puts a value at a path leaves it there. -/
theorem Write.Puts.after {w : Write} {path : List String} {v : Document} (h : w.Puts path v) (before : Held) :
    w.after path before = .value v := by
  rw [Write.after, if_pos h.1, h.2]
  rfl

/-- Writes that put a value at a path or leave it alone keep the value. -/
theorem laid_of_kept {ws : List Write} {path : List String} {v : Document} (h : ∀ w ∈ ws, w.Puts path v ∨ w.Apart path) :
    laid ws path (.value v) = .value v := by
  induction ws with
  | nil => rfl
  | cons w ws ih =>
    rw [List.forall_mem_cons] at h
    have hfirst : w.after path (.value v) = .value v := by
      rcases h.1 with hputs | hapart
      · exact hputs.after _
      · exact Write.after_of_apart hapart _
    rw [show laid (w :: ws) path (.value v) = laid ws path (w.after path (.value v)) from rfl, hfirst, ih h.2]

/-- Writes of which one puts a value at a path, and none anything else, leave the value there. -/
theorem laid_of_puts {ws : List Write} {path : List String} {v : Document} (hputs : ∃ w ∈ ws, w.Puts path v)
    (h : ∀ w ∈ ws, w.Puts path v ∨ w.Apart path) (before : Held) : laid ws path before = .value v := by
  obtain ⟨w, hw, hput⟩ := hputs
  obtain ⟨front, rest, rfl⟩ := List.append_of_mem hw
  have hrest : ∀ w ∈ rest, w.Puts path v ∨ w.Apart path := fun w hw => h w (by simp [hw])
  rw [laid_append, show laid (w :: rest) path (laid front path before) = laid rest path (w.after path (laid front path before)) from rfl,
    hput.after, laid_of_kept hrest]

/-! ## Writes that suit each other -/

/-- There is a table above the path of a write. -/
theorem Write.after_of_above {w : Write} {path : List String} (h : path <+: w.path) (hne : w.path ≠ path) (before : Held) :
    w.after path before = .table := by
  rw [after, if_neg hne, if_pos (by simpa using h)]

/-- An empty table leaves a table where there is one. -/
theorem Write.after_of_isTable {w : Write} (h : w.held.isTable = true) : w.after w.path .table = .table := by
  rw [after, if_pos rfl]
  cases hw : w.held with
  | table => rfl
  | _ => simp [hw, Held.isTable] at h

theorem Held.eq_table_of_isTable {h : Held} (ht : h.isTable = true) : h = .table := by
  cases h with
  | table => rfl
  | _ => cases ht

/-- A write touches a path if it is there or below, or if it is above and no empty table. -/
theorem Write.not_apart_iff {w : Write} {path : List String} :
    ¬w.Apart path ↔ path <+: w.path ∨ w.path <+: path ∧ w.held.isTable = false := by
  unfold Apart
  rw [not_and_or, not_not, Classical.not_imp, Bool.not_eq_true]

/-- It does not matter in which order two writes are made that do not contradict each other. -/
theorem Write.Suits.after_after {w w' : Write} (h : w.Suits w') (path : List String) (before : Held) :
    w'.after path (w.after path before) = w.after path (w'.after path before) := by
  obtain ⟨habove, hbelow⟩ := h
  by_cases hp : w.Apart path
  · rw [after_of_apart hp, after_of_apart hp]
  by_cases hp' : w'.Apart path
  · rw [after_of_apart hp', after_of_apart hp']
  rcases not_apart_iff.1 hp with hp | ⟨hp, hvalue⟩
  · rcases not_apart_iff.1 hp' with hp' | ⟨hp', hvalue⟩
    · by_cases hw : w.path = path
      · subst hw
        by_cases hw' : w'.path = w.path
        · -- both are empty tables in the same place
          have hheld := Held.eq_table_of_isTable (habove hp')
          have hheld' := Held.eq_table_of_isTable (hbelow (hw' ▸ hp))
          have hsame : w'.after w.path = w.after w.path := by
            funext before
            rw [after, after, if_pos rfl, if_pos hw', hheld, hheld']
          rw [hsame]
        · rw [after_of_above hp' hw', after_of_above hp' hw', after_of_isTable (habove hp')]
      · by_cases hw' : w'.path = path
        · subst hw'
          rw [after_of_above hp hw, after_of_above hp hw, after_of_isTable (hbelow hp)]
        · rw [after_of_above hp hw, after_of_above hp' hw', after_of_above hp' hw', after_of_above hp hw]
    · rw [hbelow (hp'.trans hp)] at hvalue
      cases hvalue
  · rcases not_apart_iff.1 hp' with hp' | ⟨hp', hvalue'⟩
    · rw [habove (hp.trans hp')] at hvalue
      cases hvalue
    · -- both are above the path, so that one is above the other
      rcases List.prefix_or_prefix_of_prefix hp hp' with hpp | hpp
      · rw [habove hpp] at hvalue
        cases hvalue
      · rw [hbelow hpp] at hvalue'
        cases hvalue'

instance : Std.Symm Write.Suits := ⟨fun _ _ h => ⟨h.2, h.1⟩⟩

/-- Writes of which no two contradict each other leave the same in every order. -/
theorem laid_of_perm {ws ws' : List Write} (hws : ws.Pairwise Write.Suits) (h : ws.Perm ws') (path : List String) (before : Held) :
    laid ws path before = laid ws' path before := by
  -- every order comes about by exchanging two writes at a time
  refine h.foldl_eq' (fun w hw w' hw' held => ?_) before
  by_cases heq : w = w'
  · rw [heq]
  · exact (hws.forall hw hw' heq).after_after path held

/-! ## Layers in order -/

/-- The writes of a table with entries are those of its entries. -/
theorem valueWrites_table {es : List (String × Document)} (h : es ≠ []) : valueWrites (.table es) = entriesWrites es := by
  cases es with
  | nil => exact absurd rfl h
  | cons e es => rfl

theorem entriesWrites_eq_flatMap (es : List (String × Document)) :
    entriesWrites es = es.flatMap fun e => (valueWrites e.2).map (.under (Text.lower e.1)) := by
  induction es with
  | nil => rfl
  | cons e es ih => rw [entriesWrites, List.flatMap_cons, ih]

/-- Entries in another order make the same writes in another order. -/
theorem entriesWrites_of_perm {es es' : List (String × Document)} (h : es.Perm es') : (entriesWrites es).Perm (entriesWrites es') := by
  rw [entriesWrites_eq_flatMap, entriesWrites_eq_flatMap]
  exact h.flatMap_right _

mutual

/-- A value in order makes the same writes in another order. -/
theorem perm_valueWrites (o : Order) (path : List String) (d : Document) :
    (valueWrites (o.document path d)).Perm (valueWrites d) := by
  cases d with
  | table es =>
    rw [Order.document]
    have harranged := (o.table path).perm (o.members path es)
    -- an empty table is a write by itself, and stays empty
    cases es with
    | nil =>
      rw [Order.members] at harranged ⊢
      rw [harranged.eq_nil]
    | cons e es =>
      have hne : (o.table path).arrange (o.members path (e :: es)) ≠ [] := by
        intro hnil
        rw [hnil] at harranged
        cases harranged.symm.eq_nil
      rw [valueWrites_table hne, valueWrites_table (List.cons_ne_nil e es)]
      exact (entriesWrites_of_perm harranged).trans (perm_entriesWrites o path (e :: es))
  | _ => exact .refl _

/-- Entries whose values are in order make the same writes in another order. -/
theorem perm_entriesWrites (o : Order) (path : List String) (es : List (String × Document)) :
    (entriesWrites (o.members path es)).Perm (entriesWrites es) := by
  match es with
  | [] => exact .refl _
  | (name, d) :: es =>
    rw [Order.members, entriesWrites, entriesWrites]
    exact ((perm_valueWrites o (name :: path) d).map _).append (perm_entriesWrites o path es)

end

/-- A value in order at the end of a path makes the same writes in another order. -/
theorem perm_pathWrites (o : Order) (path : List String) (d : Document) (steps : List Step) :
    (pathWrites (o.document path d) steps).Perm (pathWrites d steps) := by
  induction steps with
  | nil => exact perm_valueWrites o path d
  | cons step steps ih =>
    cases step with
    | name s => exact ih.map _
    | index i => exact .refl _

/-- A source in order makes the same writes in another order. -/
theorem perm_writes (o : Order) (s : Source) : (o.source s).writes.Perm s.writes := by
  have hmembers : (Source.writes (o.members [] s)).Perm s.writes := by
    induction s with
    | nil => exact .refl _
    | cons e s ih =>
      obtain ⟨key, d⟩ := e
      rw [Order.members, Source.writes, Source.writes, List.flatMap_cons, List.flatMap_cons]
      exact (perm_pathWrites o [key] d (pathOf key)).append ih
  exact (((o.table []).perm (o.members [] s)).flatMap_right _).trans hmembers

/-- What a layer says nothing of, it says nothing of in every order. -/
theorem Source.Silent.source {s : Source} {path : List String} (h : s.Silent path) (o : Order) : (o.source s).Silent path :=
  fun w hw => h w ((perm_writes o s).mem_iff.1 hw)

/-- What a layer gives, it gives in every order. -/
theorem Source.Gives.source {s : Source} {path : List String} {v : Document} (h : s.Gives path v) (o : Order) :
    (o.source s).Gives path v := by
  obtain ⟨⟨w, hw, hputs⟩, hothers⟩ := h
  exact ⟨⟨w, (perm_writes o s).mem_iff.2 hw, hputs⟩, fun w hw => hothers w ((perm_writes o s).mem_iff.1 hw)⟩

mutual

/-- Nothing changes if entries are gone through as they are listed. -/
theorem document_listed (path : List String) (d : Document) : Order.listed.document path d = d := by
  cases d with
  | table es =>
    rw [Order.document, members_listed]
    rfl
  | _ => rfl

theorem members_listed (path : List String) (es : List (String × Document)) : Order.listed.members path es = es := by
  match es with
  | [] => rfl
  | (name, d) :: es => rw [Order.members, document_listed, members_listed]

end

namespace Arranged

/-- Layers are arranged as they are listed. -/
theorem refl (layers : List Source) : Arranged layers layers := by
  induction layers with
  | nil => exact .nil
  | cons s layers ih =>
    refine .cons ⟨.listed, ?_⟩ ih
    rw [Order.source, members_listed]
    rfl

/-- Layers that are arranged say nothing of what the layers say nothing of. -/
theorem silent {layers layers' : List Source} (h : Arranged layers layers') {path : List String}
    (hsilent : ∀ s ∈ layers, s.Silent path) : ∀ s ∈ layers', s.Silent path := by
  induction h with
  | nil => exact nofun
  | cons hs _ ih =>
    obtain ⟨o, rfl⟩ := hs
    rw [List.forall_mem_cons] at hsilent ⊢
    exact ⟨hsilent.1.source o, ih hsilent.2⟩

/-- Layers and those above them are arranged by themselves. -/
theorem append {lower higher lower' higher' : List Source} (hlower : Arranged lower lower') (hhigher : Arranged higher higher') :
    Arranged (lower ++ higher) (lower' ++ higher') := by
  induction hlower with
  | nil => exact hhigher
  | cons hs _ ih => exact .cons hs ih

/-- A layer and those above it are arranged each by itself. -/
theorem exists_append {lower higher layers' : List Source} {s : Source} (h : Arranged (lower ++ s :: higher) layers') :
    ∃ lower' o higher', layers' = lower' ++ Order.source o s :: higher' ∧ Arranged higher higher' := by
  induction lower generalizing layers' with
  | nil =>
    cases h with
    | cons hs hrest =>
      obtain ⟨o, rfl⟩ := hs
      exact ⟨[], o, _, rfl, hrest⟩
  | cons first lower ih =>
    cases h with
    | @cons _ first' _ rest' _ hrest =>
      obtain ⟨lower', o, higher', rfl, hhigher⟩ := ih hrest
      exact ⟨first' :: lower', o, higher', rfl, hhigher⟩

end Arranged

/-- Where no layer says anything there is nothing, whatever order their entries are in. -/
theorem heldBy_of_silent {layers layers' : List Source} (harranged : Arranged layers layers') {name : String} {path : List String}
    (h : ∀ s ∈ layers, s.Silent (name :: path)) : heldBy layers' (name :: path) = .nothing :=
  (laid_of_apart (apart_of_silent (harranged.silent h)) _).trans (held_empty name path)

/-- The highest layer that says anything of a path decides, if it gives a value, whatever order its entries are in. -/
theorem heldBy_of_highest {lower higher layers' : List Source} {s : Source} (harranged : Arranged (lower ++ s :: higher) layers')
    {path : List String} {v : Document} (hs : s.Gives path v) (h : ∀ s ∈ higher, s.Silent path) :
    heldBy layers' path = .value v := by
  obtain ⟨lower', o, higher', rfl, hhigher⟩ := harranged.exists_append
  obtain ⟨hputs, hothers⟩ := hs.source o
  rw [heldBy, List.flatMap_append, List.flatMap_cons, laid_append, laid_append, laid_of_apart (apart_of_silent (hhigher.silent h)),
    laid_of_puts hputs hothers]

/-- Layers that do not contradict themselves leave the same in every order. -/
theorem heldBy_of_coherent {layers layers' : List Source} (harranged : Arranged layers layers') (h : ∀ s ∈ layers, s.Coherent) :
    heldBy layers' = heldBy layers := by
  -- the induction goes up the layers, over whatever the lower ones leave
  have hlaid : ∀ path before, laid (layers'.flatMap Source.writes) path before = laid (layers.flatMap Source.writes) path before := by
    intro path
    induction harranged with
    | nil => exact fun _ => rfl
    | cons hs _ ih =>
      obtain ⟨o, rfl⟩ := hs
      intro before
      rw [List.forall_mem_cons] at h
      rw [List.flatMap_cons, List.flatMap_cons, laid_append, laid_append, ih h.2, laid_of_perm h.1 (perm_writes o _).symm]
  funext path
  exact hlaid path _

end DispatchTree.Settings
