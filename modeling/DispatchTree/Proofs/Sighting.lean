import Mathlib.Data.Set.Card
import DispatchTree.Proofs.Renaming.Order
import DispatchTree.Proofs.Totality

/-!
# Numbers in the order of first sighting

Actions that are interned one after the other are listed without repetitions, in the order in which they came
(`toList_internAll_empty`). While there are numbers enough, this one equation says which numbers are in use, which action has which
number, and that of two actions the one that came first has the smaller number. The scan of a table meets its transitions in the
order of states and pairs (`pairwise_entries`), so that the numbers of its actions follow the order in which the scan first meets
them.
-/

namespace DispatchTree

/-! ## Lists without repetitions -/

section Repetitions

variable {α : Type} [DecidableEq α] {l : List α} {a b : α}

/-- One more member is new or a repetition. -/
theorem eraseDups_concat (l : List α) (a : α) :
    (l ++ [a]).eraseDups = if a ∈ l then l.eraseDups else l.eraseDups ++ [a] := by
  rw [List.eraseDups_append]
  by_cases h : a ∈ l
  · simp [h, List.removeAll]
  · simp [h, List.removeAll, List.eraseDups_cons]

/-- Without repetitions every member stands once. -/
theorem nodup_eraseDups (l : List α) : l.eraseDups.Nodup := by
  induction l using List.reverseRecOn with
  | nil => exact List.nodup_nil
  | append_singleton l a ih =>
    rw [eraseDups_concat]
    split
    · exact ih
    · rename_i h
      refine List.nodup_append.2 ⟨ih, List.nodup_singleton a, fun b hb c hc hbc => h ?_⟩
      rw [← List.mem_singleton.1 hc, ← hbc]
      exact List.mem_eraseDups.1 hb

/-- There are as many members without repetitions as there are different ones. -/
theorem length_eraseDups (l : List α) : l.eraseDups.length = l.toFinset.card := by
  have hset : l.eraseDups.toFinset = l.toFinset := by
    ext a
    rw [List.mem_toFinset, List.mem_toFinset, List.mem_eraseDups]
  rw [← List.toFinset_card_of_nodup (nodup_eraseDups l), hset]

theorem length_eraseDups_le (l : List α) : l.eraseDups.length ≤ l.length := by
  rw [length_eraseDups]
  exact List.toFinset_card_le l

/-- A list is longer than without repetitions exactly if it has some. -/
theorem length_eraseDups_lt_iff (l : List α) : l.eraseDups.length < l.length ↔ ¬ l.Nodup := by
  have heq : l.eraseDups.length = l.length ↔ l.Nodup := by
    rw [length_eraseDups]
    exact Multiset.toFinset_card_eq_card_iff_nodup (m := (l : Multiset α))
  rw [Nat.lt_iff_le_and_ne, ne_eq, heq]
  exact and_iff_right (length_eraseDups_le l)

theorem idxOf_concat_self (h : a ∉ l) : (l ++ [a]).idxOf a = l.length := by
  rw [List.idxOf_append, if_neg h, List.idxOf_cons_self, Nat.zero_add]

theorem idxOf_concat_of_mem (h : a ∈ l) (b : α) : (l ++ [b]).idxOf a = l.idxOf a := by
  rw [List.idxOf_append, if_pos h]

/-- Without repetitions, the members of a list stand in the order of their first occurrences. -/
theorem idxOf_eraseDups_lt_iff (ha : a ∈ l) (hb : b ∈ l) :
    l.eraseDups.idxOf a < l.eraseDups.idxOf b ↔ l.idxOf a < l.idxOf b := by
  induction l using List.reverseRecOn with
  | nil => cases ha
  | append_singleton l x ih =>
    rw [eraseDups_concat]
    by_cases hx : x ∈ l
    · have hold : ∀ {c}, c ∈ l ++ [x] → c ∈ l := by
        intro c hc
        rcases List.mem_append.1 hc with hc | hc
        · exact hc
        · exact List.mem_singleton.1 hc ▸ hx
      rw [if_pos hx, idxOf_concat_of_mem (hold ha), idxOf_concat_of_mem (hold hb), ih (hold ha) (hold hb)]
    · -- the new member comes after all others, both in the list and among its members without repetitions
      have hx' : x ∉ l.eraseDups := fun h => hx (List.mem_eraseDups.1 h)
      rw [if_neg hx]
      rw [List.mem_append, List.mem_singleton] at ha hb
      rcases ha with ha | rfl <;> rcases hb with hb | rfl
      · rw [idxOf_concat_of_mem ha, idxOf_concat_of_mem hb, idxOf_concat_of_mem (List.mem_eraseDups.2 ha),
          idxOf_concat_of_mem (List.mem_eraseDups.2 hb), ih ha hb]
      · rw [idxOf_concat_of_mem ha, idxOf_concat_self hx, idxOf_concat_of_mem (List.mem_eraseDups.2 ha), idxOf_concat_self hx',
          List.idxOf_lt_length_iff, List.idxOf_lt_length_iff, List.mem_eraseDups]
      · have hlt := List.idxOf_lt_length_iff.2 hb
        have hlt' := List.idxOf_lt_length_iff.2 (List.mem_eraseDups.2 hb)
        rw [idxOf_concat_of_mem hb, idxOf_concat_self hx, idxOf_concat_of_mem (List.mem_eraseDups.2 hb), idxOf_concat_self hx']
        omega
      · rw [lt_self_iff_false, lt_self_iff_false]

/-- In a list that is in order, a value first occurs before another one if one of its occurrences comes before all of the other's. -/
theorem idxOf_map_lt_iff {β : Type} {items : List β} {before : β → β → Prop} (f : β → α) (hsorted : items.Pairwise before)
    (hasymm : ∀ x y, before x y → ¬ before y x) (ha : a ∈ items.map f) (hb : b ∈ items.map f) :
    (items.map f).idxOf a < (items.map f).idxOf b ↔
      ∃ x ∈ items, f x = a ∧ ∀ y ∈ items, f y = b → before x y := by
  induction items with
  | nil => cases ha
  | cons first items ih =>
    obtain ⟨hfirst, hrest⟩ := List.pairwise_cons.1 hsorted
    rw [List.map_cons] at ha hb ⊢
    rw [List.mem_cons] at ha hb
    by_cases hfa : f first = a
    · by_cases hfb : f first = b
      · obtain rfl := hfa.symm.trans hfb
        refine iff_of_false (Nat.lt_irrefl _) ?_
        rintro ⟨x, hx, hxa, hbefore⟩
        exact hasymm x x (hbefore x hx hxa) (hbefore x hx hxa)
      · rw [hfa, List.idxOf_cons_self, List.idxOf_cons_ne _ (hfa ▸ hfb)]
        refine iff_of_true (Nat.succ_pos _) ⟨first, List.mem_cons_self, hfa, fun y hy hyb => ?_⟩
        rcases List.mem_cons.1 hy with rfl | hy
        · exact absurd hyb hfb
        · exact hfirst y hy
    · rw [List.idxOf_cons_ne _ hfa]
      by_cases hfb : f first = b
      · rw [hfb, List.idxOf_cons_self]
        refine iff_of_false (Nat.not_lt_zero _) ?_
        rintro ⟨x, hx, hxa, hbefore⟩
        rcases List.mem_cons.1 hx with rfl | hx
        · exact hfa hxa
        · exact hasymm _ _ (hfirst x hx) (hbefore first List.mem_cons_self hfb)
      · rw [List.idxOf_cons_ne _ hfb, Nat.succ_lt_succ_iff,
          ih hrest (ha.resolve_left (Ne.symm hfa)) (hb.resolve_left (Ne.symm hfb))]
        simp [hfa, hfb]

end Repetitions

/-! ## Interned actions -/

namespace Catalog

/-- What a catalog knows once actions were interned one after the other. -/
structure Numbers (c : Catalog) (calls : List Action) : Prop where
  inUse : ∀ id, (∃ a, c.get? a = some id) ↔ id < c.size
  /-- A word of 32 bits holds every number. -/
  word : ∀ a id, c.get? a = some id → id < 2 ^ 32
  inverse : ∀ a id, c.get? a = some id ↔ c.action? id = some a
  interned : ∀ a, (c.get? a).isSome ↔ a ∈ calls
  listed : c.toList = calls.eraseDups
  /-- Of two actions, the one that was interned first has the smaller number. -/
  sighted : ∀ a b i j, c.get? a = some i → c.get? b = some j → (i < j ↔ calls.idxOf a < calls.idxOf b)
  known : ∀ a ∈ calls, ∃ id, c.get? a = some id ∧ c.intern a = (id, c)
  new : ∀ a ∉ calls, (c.intern a).1 = c.size ∧ (c.intern a).2.get? a = some c.size
  kept : ∀ (later : List Action) (a : Action) (id : Nat), c.get? a = some id → (c.internAll later).get? a = some id

variable {calls : List Action} {a b : Action} {i j : Nat}

/-- The catalog holds the actions that were interned, each at its first sighting. -/
theorem toList_internAll_empty (calls : List Action) : (empty.internAll calls).toList = calls.eraseDups := by
  induction calls using List.reverseRecOn with
  | nil => rfl
  | append_singleton calls a ih =>
    have hlast : empty.internAll (calls ++ [a]) = ((empty.internAll calls).intern a).2 := List.foldl_append
    simp only [hlast, toList_intern, ih, eraseDups_concat, List.mem_eraseDups]

/-- The catalog has as many numbers as there are different actions. -/
theorem size_internAll_empty (calls : List Action) : (empty.internAll calls).size = calls.eraseDups.length := by
  rw [← toList_internAll_empty]
  exact Array.length_toList.symm

/-- Fewer actions than numbers. -/
theorem size_internAll_le (hcalls : calls.eraseDups.length < 2 ^ 32) : (empty.internAll calls).size ≤ capacity := by
  rw [size_internAll_empty]
  exact Nat.le_of_lt hcalls

/-- Exactly the actions that were interned have a number. -/
theorem isSome_get?_internAll_empty (calls : List Action) (a : Action) : ((empty.internAll calls).get? a).isSome ↔ a ∈ calls := by
  have hnone : empty.get? a = none := by simp [get?, place?, empty]
  rw [isSome_get?_internAll, hnone]
  simp

/-- Exactly the actions that were not interned have no number. -/
theorem get?_internAll_empty_eq_none_iff (calls : List Action) (a : Action) :
    (empty.internAll calls).get? a = none ↔ a ∉ calls := by
  rw [← isSome_get?_internAll_empty, Option.not_isSome_iff_eq_none]

/-- The place of an action that was interned is that among the actions without repetitions. -/
theorem place?_internAll_empty (h : a ∈ calls) : (empty.internAll calls).place? a = some (calls.eraseDups.idxOf a) := by
  rw [place?_eq_some_iff, toList_internAll_empty]
  exact List.getElem?_idxOf (List.mem_eraseDups.2 h)

/-- A number was given to an action that was interned. -/
theorem mem_of_get? (h : (empty.internAll calls).get? a = some i) : a ∈ calls :=
  (isSome_get?_internAll_empty calls a).1 (by rw [h]; rfl)

/-- While there are numbers enough, the number of an action that was interned is its place. -/
theorem eq_idxOf_of_get? (hcalls : (empty.internAll calls).size ≤ capacity) (h : (empty.internAll calls).get? a = some i) :
    i = calls.eraseDups.idxOf a := by
  have hmem := mem_of_get? h
  rw [get?_eq_place? hcalls, place?_internAll_empty hmem] at h
  exact (Option.some.inj h).symm

/-- While there are numbers enough, they follow the order in which the actions were first interned. -/
theorem lt_iff_idxOf_lt (hcalls : (empty.internAll calls).size ≤ capacity) (ha : (empty.internAll calls).get? a = some i)
    (hb : (empty.internAll calls).get? b = some j) : i < j ↔ calls.idxOf a < calls.idxOf b := by
  rw [eq_idxOf_of_get? hcalls ha, eq_idxOf_of_get? hcalls hb]
  exact idxOf_eraseDups_lt_iff (mem_of_get? ha) (mem_of_get? hb)

/-- A place that was given stays through a run of interns. -/
theorem place?_internAll_of_some (later : List Action) :
    ∀ c : Catalog, c.place? a = some i → (c.internAll later).place? a = some i := by
  induction later with
  | nil => exact fun _ h => h
  | cons b later ih => exact fun c h => ih (c.intern b).2 (place?_intern_of_some c b h)

/-- A number that was given stays through a run of interns. -/
theorem get?_internAll_of_some (later : List Action) (c : Catalog) (h : c.get? a = some i) :
    (c.internAll later).get? a = some i := by
  obtain ⟨place, hplace, rfl⟩ := Option.map_eq_some_iff.1 h
  rw [get?, place?_internAll_of_some later c hplace, Option.map_some]

/-- Interned actions have numbers of their own while there are fewer than there are numbers. -/
theorem numbers_internAll (hcalls : calls.eraseDups.length < 2 ^ 32) : (empty.internAll calls).Numbers calls where
  inUse id := by
    simp only [get?_eq_some_iff (size_internAll_le hcalls), toList_internAll_empty, size_internAll_empty]
    constructor
    · rintro ⟨a, ha⟩
      exact (List.getElem?_eq_some_iff.1 ha).1
    · intro hid
      exact ⟨_, List.getElem?_eq_getElem hid⟩
  word a id h := by
    obtain ⟨place, -, rfl⟩ := Option.map_eq_some_iff.1 h
    exact number_lt place
  inverse a id := by
    rw [get?_eq_some_iff (size_internAll_le hcalls)]
    exact iff_of_eq (congrArg (· = some a) (Array.getElem?_toList ..))
  interned := isSome_get?_internAll_empty calls
  listed := toList_internAll_empty calls
  sighted a b i j ha hb := lt_iff_idxOf_lt (size_internAll_le hcalls) ha hb
  known a ha := by
    have hplace := place?_internAll_empty ha
    exact ⟨_, by rw [get?, hplace, Option.map_some], intern_of_some hplace⟩
  new a ha := by
    have hnone := (get?_eq_none_iff _ a).1 ((get?_internAll_empty_eq_none_iff calls a).2 ha)
    have hsize : number (empty.internAll calls).size = (empty.internAll calls).size :=
      number_of_lt (by rw [size_internAll_empty]; exact hcalls)
    refine ⟨?_, ?_⟩
    · rw [intern_of_none hnone, hsize]
    · rw [get?, place?_intern_of_none hnone, if_pos rfl, Option.map_some, hsize]
  kept later a id h := get?_internAll_of_some later _ h

end Catalog

/-! ## The scan of a table -/

namespace Table

/-- One transition is scanned before another: states go by their bytes, and the pairs of a state by their place among all pairs. -/
def ScannedBefore (x y : String × SymbolPair) : Prop :=
  utf8Bytes x.1 < utf8Bytes y.1 ∨ x.1 = y.1 ∧ SymbolPair.all.idxOf x.2 < SymbolPair.all.idxOf y.2

/-- The first transition with an action is scanned before the first one with another action. -/
def SightedBefore (t : Table) (a b : Action) : Prop :=
  ∃ state p, t.lookup state p = some a ∧ ∀ state' p', t.lookup state' p' = some b → ScannedBefore (state, p) (state', p')

/-- What the catalog of a table knows of its actions. -/
structure Numbered (t : Table) (c : Catalog) : Prop where
  actions : ∀ a, (c.get? a).isSome ↔ ∃ state p, t.lookup state p = some a
  size : c.size = {a : Action | ∃ state p, t.lookup state p = some a}.ncard
  bound : c.size ≤ 9 * t.rows.size
  /-- Fewer numbers than transitions are needed exactly if two transitions have the same action. -/
  shared : c.size < 9 * t.rows.size ↔ ∃ a state p state' p', (state, p) ≠ (state', p') ∧
    t.lookup state p = some a ∧ t.lookup state' p' = some a
  /-- With at most `2 ^ 32` actions, the one that is scanned first has the smaller number. -/
  order : c.size ≤ Catalog.capacity → ∀ a b i j, c.get? a = some i → c.get? b = some j → (i < j ↔ t.SightedBefore a b)

/-- Pairs are ordered as they are listed. -/
theorem compare_pair_lt_iff (p q : SymbolPair) : compare p q = .lt ↔ SymbolPair.all.idxOf p < SymbolPair.all.idxOf q := by
  have hall : ∀ p ∈ SymbolPair.all, ∀ q ∈ SymbolPair.all,
      (compare p q = .lt ↔ SymbolPair.all.idxOf p < SymbolPair.all.idxOf q) := by decide
  exact hall p (SymbolPair.mem_all p) q (SymbolPair.mem_all q)

/-- Of two transitions at most one is scanned before the other. -/
theorem not_scannedBefore (x y : String × SymbolPair) (h : ScannedBefore x y) : ¬ ScannedBefore y x := by
  unfold ScannedBefore at *
  rintro (h' | ⟨hs', h'⟩)
  · rcases h with h | ⟨hs, -⟩
    · exact List.lt_asymm h h'
    · rw [hs] at h'
      exact List.lt_irrefl _ h'
  · rcases h with h | ⟨-, h⟩
    · rw [hs'] at h
      exact List.lt_irrefl _ h
    · exact Nat.lt_asymm h h'

/-- The transitions of a table stand in the order of the scan. -/
theorem pairwise_entries (t : Table) : t.entries.Pairwise fun e e' => ScannedBefore (e.1, e.2.1) (e'.1, e'.2.1) := by
  refine List.pairwise_flatMap.2 ⟨fun x _ => ?_, ?_⟩
  · refine List.pairwise_map.2 ((Std.ExtTreeMap.ordered_keys_toList (t := x.2)).imp fun h => ?_)
    exact .inr ⟨rfl, (compare_pair_lt_iff _ _).1 h⟩
  · refine (Std.ExtTreeMap.ordered_keys_toList (t := t.rows)).imp fun h x hx y hy => ?_
    obtain ⟨_, _, rfl⟩ := List.mem_map.1 hx
    obtain ⟨_, _, rfl⟩ := List.mem_map.1 hy
    exact .inl (utf8Bytes_lt_iff.2 (compareOfLessAndEq_eq_lt.1 h))

/-- The actions of a table in the order of the scan. -/
def scan (t : Table) : List Action := t.entries.map fun e => e.2.2

/-- The scan sees the actions that the table has. -/
theorem mem_scan (t : Table) (a : Action) : a ∈ t.scan ↔ ∃ state p, t.lookup state p = some a := by
  simp only [scan, List.mem_map, Prod.exists, mem_entries]
  constructor
  · rintro ⟨state, p, _, h, rfl⟩
    exact ⟨state, p, h⟩
  · rintro ⟨state, p, h⟩
    exact ⟨state, p, a, h, rfl⟩

/-- The scan first meets one action before another if its first transition is scanned before that of the other. -/
theorem idxOf_scan_lt_iff {t : Table} {a b : Action} (ha : a ∈ t.scan) (hb : b ∈ t.scan) :
    t.scan.idxOf a < t.scan.idxOf b ↔ t.SightedBefore a b := by
  have hasymm : ∀ e e' : String × SymbolPair × Action, ScannedBefore (e.1, e.2.1) (e'.1, e'.2.1) →
      ¬ ScannedBefore (e'.1, e'.2.1) (e.1, e.2.1) := fun e e' h => not_scannedBefore _ _ h
  rw [scan, idxOf_map_lt_iff _ t.pairwise_entries hasymm ha hb]
  simp only [Prod.exists, mem_entries, Prod.forall, SightedBefore]
  constructor
  · rintro ⟨state, p, _, hlookup, rfl, hbefore⟩
    exact ⟨state, p, hlookup, fun state' p' h => hbefore state' p' b h rfl⟩
  · rintro ⟨state, p, hlookup, hbefore⟩
    refine ⟨state, p, a, hlookup, rfl, fun state' p' _ h hb => hbefore state' p' ?_⟩
    rw [h, hb]

/-- The scan meets an action twice if two transitions have it. -/
theorem not_nodup_scan_iff (t : Table) : ¬ t.scan.Nodup ↔ ∃ a state p state' p', (state, p) ≠ (state', p') ∧
    t.lookup state p = some a ∧ t.lookup state' p' = some a := by
  have hnodup : t.entries.Nodup := by
    refine t.pairwise_entries.imp fun {e e'} h he => ?_
    rw [he] at h
    exact not_scannedBefore _ _ h h
  rw [scan, List.nodup_map_iff_inj_on hnodup]
  simp only [Prod.forall, mem_entries]
  push Not
  constructor
  · rintro ⟨state, p, a, h, state', p', _, h', rfl, hne⟩
    exact ⟨a, state, p, state', p', fun he => hne (by rw [Prod.mk.injEq] at he; rw [he.1, he.2]), h, h'⟩
  · rintro ⟨a, state, p, state', p', hne, h, h'⟩
    refine ⟨state, p, a, h, state', p', a, h', rfl, fun he => hne ?_⟩
    rw [Prod.mk.injEq, Prod.mk.injEq] at he
    rw [he.1, he.2.1]

end Table

/-- A row of a completed table has nine transitions. -/
theorem Machine.length_scan_complete (m : Machine) : m.complete.scan.length = 9 * m.complete.rows.size := by
  have hrow : ∀ x ∈ m.complete.rows.toList, x.2.toList.length = 9 := by
    rintro ⟨state, row⟩ hx
    have hkeys := m.completes_complete.pairs state row (Std.ExtTreeMap.mem_toList_iff_getElem?_eq_some.1 hx)
    rw [Std.ExtTreeMap.length_toList, ← Std.ExtTreeMap.length_keys, hkeys]
    rfl
  rw [Table.scan, List.length_map, Table.entries, List.length_flatMap]
  simp only [List.length_map]
  rw [List.map_congr_left hrow, List.map_const', List.sum_replicate_nat, Std.ExtTreeMap.length_toList, Nat.mul_comm]

/-- The catalog of the completed table numbers its actions by their first sighting. -/
theorem Machine.numbered_complete (m : Machine) : m.complete.Numbered (Catalog.ofTable m.complete) := by
  have hcatalog : Catalog.ofTable m.complete = Catalog.empty.internAll m.complete.scan := rfl
  have hsize : (Catalog.ofTable m.complete).size = m.complete.scan.eraseDups.length := Catalog.size_internAll_empty _
  rw [hcatalog] at hsize ⊢
  refine ⟨fun a => ?_, ?_, ?_, ?_, fun hm a b i j ha hb => ?_⟩
  · rw [Catalog.isSome_get?_internAll_empty, Table.mem_scan]
  · have hset : {a : Action | ∃ state p, m.complete.lookup state p = some a} = m.complete.scan.toFinset := by
      ext a
      rw [Set.mem_ofPred_eq, ← Table.mem_scan, Finset.mem_coe, List.mem_toFinset]
    rw [hsize, length_eraseDups, hset, Set.ncard_coe_finset]
  · rw [hsize, ← m.length_scan_complete]
    exact length_eraseDups_le _
  · rw [hsize, ← m.length_scan_complete, length_eraseDups_lt_iff, Table.not_nodup_scan_iff]
  · rw [Catalog.lt_iff_idxOf_lt hm ha hb]
    exact Table.idxOf_scan_lt_iff (Catalog.mem_of_get? ha) (Catalog.mem_of_get? hb)

/-- Catalogs are bijections that grow in the order of first sighting, as long as there are no more actions than words of 32 bits. -/
theorem numbering_by_first_sighting :
    (∀ calls : List Action, calls.eraseDups.length < 2 ^ 32 → (Catalog.empty.internAll calls).Numbers calls) ∧
      ∀ m : Machine, m.complete.Numbered (Catalog.ofTable m.complete) :=
  ⟨fun _ hcalls => Catalog.numbers_internAll hcalls, Machine.numbered_complete⟩

/-- Three interns, the last of an action that is known. -/
def sightings : List Action := [⟨"B", .idle, .idle⟩, .invalid, ⟨"B", .idle, .idle⟩]

/-- The action that was interned twice has the first number, and the other one the second. -/
theorem numbering_of_sightings :
    sightings.eraseDups.length < 2 ^ 32 ∧ (Catalog.empty.internAll sightings).Numbers sightings ∧
      (Catalog.empty.internAll sightings).get? .invalid = some 1 := by
  have hcalls : sightings.eraseDups.length < 2 ^ 32 := by decide
  have hnumbers := numbering_by_first_sighting.1 sightings hcalls
  refine ⟨hcalls, hnumbers, ?_⟩
  rw [Catalog.get?_eq_some_iff (Catalog.size_internAll_le hcalls), hnumbers.listed]
  decide

end DispatchTree
