import DispatchTree.Catalog

/-!
# What a catalog numbers

Interning keeps every place already given (`place?_intern_of_some`) and adds one action at most (`isSome_get?_intern`). A run of
interns therefore numbers the actions it was given and those that had a number before (`isSome_get?_internAll`), and the catalog of
a table numbers the actions of its transitions (`isSome_get?_ofTable`). As long as there are numbers enough, the number of an action
is its place, and so no two actions share one (`get?_eq_some_iff`).
-/

namespace DispatchTree

namespace Catalog

variable {c : Catalog} {a : Action} {i : Nat}

/-- An action has a place exactly where it stands in the list of actions. -/
theorem place?_eq_some_iff (c : Catalog) (a : Action) (i : Nat) : c.place? a = some i ↔ c.toList[i]? = some a := by
  rw [place?, toList, c.agree a i, Array.getElem?_toList]

/-- The list of actions is as long as the catalog is large. -/
theorem length_toList (c : Catalog) : c.toList.length = c.size := Array.length_toList

/-- The empty catalog lists nothing. -/
theorem toList_empty : empty.toList = [] := rfl

/-- An action has a number exactly if it has a place. -/
theorem isSome_get? (c : Catalog) (a : Action) : (c.get? a).isSome = (c.place? a).isSome := Option.isSome_map

/-- An action without a number has no place. -/
theorem get?_eq_none_iff (c : Catalog) (a : Action) : c.get? a = none ↔ c.place? a = none := Option.map_eq_none_iff

/-! ## Numbers and places -/

/-- A place that fits into a word is its own number. -/
theorem number_of_lt (h : i < capacity) : number i = i := Nat.mod_eq_of_lt h

/-- Every number fits into a word. -/
theorem number_lt (i : Nat) : number i < capacity := Nat.mod_lt i (by decide)

/-- While there are numbers enough, every place in the list is its own number. -/
theorem number_of_lt_length (hc : c.size ≤ capacity) (h : i < c.toList.length) : number i = i := by
  rw [length_toList] at h
  exact number_of_lt (Nat.lt_of_lt_of_le h hc)

/-- While there are numbers enough, the number of an action is its place. -/
theorem get?_eq_place? (hc : c.size ≤ capacity) (a : Action) : c.get? a = c.place? a := by
  rw [get?]
  cases hplace : c.place? a with
  | none => rfl
  | some i =>
    have hi := (List.getElem?_eq_some_iff.1 ((c.place?_eq_some_iff a i).1 hplace)).1
    rw [Option.map_some, number_of_lt_length hc hi]

/-- While there are numbers enough, an action has a number exactly where it stands in the list of actions. -/
theorem get?_eq_some_iff (hc : c.size ≤ capacity) (a : Action) (id : Nat) : c.get? a = some id ↔ c.toList[id]? = some a := by
  rw [get?_eq_place? hc, place?_eq_some_iff]

/-- An action in the list has a number. -/
theorem isSome_get?_of_getElem? (h : c.toList[i]? = some a) : (c.get? a).isSome := by
  rw [isSome_get?, (c.place?_eq_some_iff a i).2 h]
  rfl

/-- The actions in the list are those that have a number. -/
theorem mem_toList : a ∈ c.toList ↔ (c.get? a).isSome := by
  constructor
  · intro h
    obtain ⟨i, hi⟩ := List.mem_iff_getElem?.1 h
    exact isSome_get?_of_getElem? hi
  · intro h
    rw [isSome_get?] at h
    obtain ⟨i, hi⟩ := Option.isSome_iff_exists.1 h
    exact List.mem_of_getElem? ((c.place?_eq_some_iff a i).1 hi)

/-- No action stands in the list twice, since it has one place. -/
theorem nodup_toList (c : Catalog) : c.toList.Nodup := by
  rw [List.Nodup, List.pairwise_iff_getElem]
  intro i j hi hj hij he
  have hplace := (c.place?_eq_some_iff _ i).2 (List.getElem?_eq_getElem hi)
  rw [he, (c.place?_eq_some_iff _ j).2 (List.getElem?_eq_getElem hj), Option.some.injEq] at hplace
  omega

/-! ## One intern -/

/-- Interning an action that has a place changes nothing. -/
theorem intern_of_some (h : c.place? a = some i) : c.intern a = (number i, c) := by
  unfold intern
  split
  · rename_i place hplace
    rw [h] at hplace
    cases hplace
    rfl
  · rename_i hplace
    rw [h] at hplace
    cases hplace

/-- Interning an action that has no place puts it behind the others and gives it the number of its place. -/
theorem intern_of_none (h : c.place? a = none) : c.intern a = (number c.size, c.add a h) := by
  unfold intern
  split
  · rename_i place hplace
    rw [h] at hplace
    cases hplace
  · rfl

/-- Interning an action that has no place gives it the next one. -/
theorem place?_intern_of_none (h : c.place? a = none) (b : Action) :
    (c.intern a).2.place? b = if a = b then some c.size else c.place? b := by
  rw [intern_of_none h]
  simp only [place?, add, Std.ExtTreeMap.getElem?_insert, Std.LawfulEqOrd.compare_eq_iff_eq]
  rfl

/-- A place that was given stays. -/
theorem place?_intern_of_some (c : Catalog) (a : Action) {b : Action} (h : c.place? b = some i) :
    (c.intern a).2.place? b = some i := by
  cases ha : c.place? a with
  | some j =>
    rw [intern_of_some ha]
    exact h
  | none =>
    have hne : a ≠ b := fun e => by
      rw [e, h] at ha
      cases ha
    rw [place?_intern_of_none ha, if_neg hne, h]

/-- After an intern the numbered actions are the one interned and those that had a number. -/
theorem isSome_get?_intern (c : Catalog) (a b : Action) :
    ((c.intern a).2.get? b).isSome ↔ b = a ∨ (c.get? b).isSome := by
  rw [isSome_get?, isSome_get?]
  cases ha : c.place? a with
  | some i =>
    rw [intern_of_some ha]
    constructor
    · exact Or.inr
    · rintro (rfl | h)
      · simp [ha]
      · exact h
  | none =>
    rw [place?_intern_of_none ha]
    by_cases hab : a = b
    · simp [hab]
    · simp [hab, Ne.symm hab]

/-- An action that has no place is put behind the others. -/
theorem toList_intern (c : Catalog) (a : Action) :
    (c.intern a).2.toList = if a ∈ c.toList then c.toList else c.toList ++ [a] := by
  cases ha : c.place? a with
  | some i =>
    rw [intern_of_some ha, if_pos (List.mem_of_getElem? ((c.place?_eq_some_iff a i).1 ha))]
  | none =>
    have hmem : a ∉ c.toList := by
      intro hmem
      obtain ⟨i, hi⟩ := List.mem_iff_getElem?.1 hmem
      rw [(c.place?_eq_some_iff a i).2 hi] at ha
      cases ha
    rw [if_neg hmem, intern_of_none ha]
    exact Array.toList_push

/-! ## Runs of interns -/

/-- After a run of interns the numbered actions are those of the run and those that had a number. -/
theorem isSome_get?_internAll (as : List Action) (b : Action) :
    ∀ c : Catalog, ((c.internAll as).get? b).isSome ↔ b ∈ as ∨ (c.get? b).isSome := by
  induction as with
  | nil => intro c; simp [internAll]
  | cons a as ih =>
    intro c
    have h := ih (c.intern a).2
    rw [isSome_get?_intern] at h
    rw [show c.internAll (a :: as) = (c.intern a).2.internAll as from rfl, h, List.mem_cons]
    constructor
    · rintro (h | h | h)
      · exact Or.inl (Or.inr h)
      · exact Or.inl (Or.inl h)
      · exact Or.inr h
    · rintro ((h | h) | h)
      · exact Or.inr (Or.inl h)
      · exact Or.inl h
      · exact Or.inr (Or.inr h)

/-- Actions that a change keeps apart are numbered in the same order once they are changed. -/
theorem toList_internAll_map {f : Action → Action} (as : List Action) : ∀ c c' : Catalog, c'.toList = c.toList.map f →
    (∀ a ∈ c.toList ++ as, ∀ b ∈ c.toList ++ as, f a = f b → a = b) →
    (c'.internAll (as.map f)).toList = (c.internAll as).toList.map f := by
  induction as with
  | nil => exact fun c c' h _ => h
  | cons a as ih =>
    intro c c' h hf
    refine ih (c.intern a).2 (c'.intern (f a)).2 ?_ ?_
    · have hmem : f a ∈ c.toList.map f ↔ a ∈ c.toList := by
        constructor
        · intro hmem
          obtain ⟨b, hb, hab⟩ := List.mem_map.1 hmem
          rwa [← hf b (List.mem_append_left _ hb) a (by simp) hab]
        · exact List.mem_map_of_mem
      rw [toList_intern, toList_intern, h]
      by_cases ha : a ∈ c.toList
      · rw [if_pos ha, if_pos (hmem.2 ha)]
      · rw [if_neg ha, if_neg fun h => ha (hmem.1 h), List.map_append, List.map_singleton]
    · have hsub : ∀ b ∈ (c.intern a).2.toList ++ as, b ∈ c.toList ++ a :: as := by
        intro b hb
        rw [toList_intern] at hb
        split at hb
        · rcases List.mem_append.1 hb with hb | hb
          · exact List.mem_append_left _ hb
          · exact List.mem_append_right _ (List.mem_cons_of_mem _ hb)
        · rwa [List.append_assoc] at hb
      exact fun b hb b' hb' => hf b (hsub b hb) b' (hsub b' hb')

end Catalog

/-! ## The catalog of a table -/

/-- The transitions of a table are its answers. -/
theorem Table.mem_entries (t : Table) (state : String) (p : SymbolPair) (a : Action) :
    (state, p, a) ∈ t.entries ↔ t.lookup state p = some a := by
  simp only [Table.entries, Table.lookup, List.mem_flatMap, List.mem_map, Prod.exists, Prod.mk.injEq,
    Std.ExtTreeMap.mem_toList_iff_getElem?_eq_some, Option.bind_eq_some_iff]
  constructor
  · rintro ⟨s, row, hr, p', a', ha, rfl, rfl, rfl⟩
    exact ⟨row, hr, ha⟩
  · rintro ⟨row, hr, ha⟩
    exact ⟨state, row, hr, p, a, ha, rfl, rfl, rfl⟩

/-- The catalog of a table numbers the actions of its transitions. -/
theorem Catalog.isSome_get?_ofTable (t : Table) (a : Action) :
    ((Catalog.ofTable t).get? a).isSome ↔ ∃ (state : String) (p : SymbolPair), t.lookup state p = some a := by
  unfold Catalog.ofTable
  rw [isSome_get?_internAll]
  have he : (Catalog.empty.get? a).isSome = false := by simp [Catalog.get?, Catalog.place?, Catalog.empty]
  rw [he]
  simp only [List.mem_map, Prod.exists, Bool.false_eq_true, or_false]
  constructor
  · rintro ⟨s, p, b, h, rfl⟩
    exact ⟨s, p, (t.mem_entries s p b).1 h⟩
  · rintro ⟨s, p, h⟩
    exact ⟨s, p, a, (t.mem_entries s p a).2 h, rfl⟩

end DispatchTree
