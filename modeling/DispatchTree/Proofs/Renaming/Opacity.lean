import DispatchTree.Proofs.Fingerprint.Identity
import DispatchTree.Proofs.Renaming.Graph
import DispatchTree.Proofs.Renaming.Order

/-!
# The names of states do not matter

Numbers are given in the order of states. A renaming that keeps the order of the states therefore keeps the numbers
(`Renames.toList_catalog`), and then the graphs of a machine and of the renamed machine have the same image: the same fingerprint on
every display, and the same tree at every fresh root.
-/

namespace DispatchTree

namespace Machine

/-- A renaming that keeps the order of the states' bytes. -/
def KeepsOrder (m : Machine) (r : String → String) : Prop :=
  ∀ s ∈ m.mentioned, ∀ t ∈ m.mentioned, utf8Bytes s < utf8Bytes t → utf8Bytes (r s) < utf8Bytes (r t)

end Machine

/-- A map that has the changed values of another one under keys in the same order lists them in the same order. -/
theorem toList_eq_map_of_order {β γ : Type} {r : String → String} {f : β → γ} {t : Std.ExtTreeMap String β}
    {t' : Std.ExtTreeMap String γ} (hkeys : ∀ k w, t'[k]? = some w ↔ ∃ s v, t[s]? = some v ∧ k = r s ∧ w = f v)
    (horder : ∀ a b v w, t[a]? = some v → t[b]? = some w → compare a b = .lt → compare (r a) (r b) = .lt) :
    t'.toList = t.toList.map fun e => (r e.1, f e.2) := by
  have hsorted : (t.toList.map fun e => (r e.1, f e.2)).Pairwise fun a b => compare a.1 b.1 = .lt := by
    rw [List.pairwise_map]
    refine (Std.ExtTreeMap.ordered_keys_toList (t := t)).imp_of_mem fun {a b} ha hb hlt => ?_
    exact horder _ _ _ _ (Std.ExtTreeMap.mem_toList_iff_getElem?_eq_some.1 ha)
      (Std.ExtTreeMap.mem_toList_iff_getElem?_eq_some.1 hb) hlt
  have hsorted' : t'.toList.Pairwise fun a b => compare a.1 b.1 = .lt := Std.ExtTreeMap.ordered_keys_toList
  have hne : ∀ {a b : String × γ}, compare a.1 b.1 = .lt → a ≠ b := by
    rintro a b hlt rfl
    rw [Std.LawfulEqOrd.compare_eq_iff_eq.2 rfl] at hlt
    cases hlt
  refine List.Perm.eq_of_pairwise ?_ hsorted' hsorted ?_
  · intro a b _ _ hab hba
    rw [Std.OrientedOrd.eq_swap, hba] at hab
    cases hab
  · rw [List.perm_ext_iff_of_nodup (hsorted'.imp hne) (hsorted.imp hne)]
    rintro ⟨k, w⟩
    rw [Std.ExtTreeMap.mem_toList_iff_getElem?_eq_some, hkeys, List.mem_map]
    constructor
    · rintro ⟨s, v, hv, rfl, rfl⟩
      exact ⟨(s, v), Std.ExtTreeMap.mem_toList_iff_getElem?_eq_some.2 hv, rfl⟩
    · rintro ⟨⟨s, v⟩, hv, he⟩
      cases he
      exact ⟨s, v, Std.ExtTreeMap.mem_toList_iff_getElem?_eq_some.1 hv, rfl, rfl⟩

namespace Machine

variable {m : Machine} {r : String → String}

/-- A full row is renamed action by action. -/
theorem Renames.fullRow_rename (h : m.Renames r) {s : String} (hs : s ∈ m.mentioned) :
    (m.rename r).fullRow (r s) = (m.fullRow s).map fun _ => Action.rename r := by
  refine Std.ExtTreeMap.ext_getElem? fun p => ?_
  rw [Std.ExtTreeMap.getElem?_map, fullRow_getElem?, fullRow_getElem?, h.getD_rename hs]
  rfl

/-- The rows of the renamed machine's table. -/
theorem Renames.rows_eq_some (h : m.Renames r) (k : String) (row' : Row) : (m.rename r).complete.rows[k]? = some row' ↔
    ∃ s row, m.complete.rows[s]? = some row ∧ k = r s ∧ row' = row.map fun _ => Action.rename r := by
  have hrow : ∀ (m : Machine) (k : String) (row : Row), m.complete.rows[k]? = some row ↔
      (k ∈ m.mentioned ∧ m.stops k = false) ∧ m.fullRow k = row := by
    intro m k row
    rw [complete_rows_getElem?, ← mem_rowStates]
    split
    · rename_i hk
      simp [hk]
    · rename_i hk
      simp [hk]
  simp only [hrow]
  constructor
  · rintro ⟨⟨hk, hstops⟩, rfl⟩
    obtain ⟨s, hs, rfl⟩ := h.mem_mentioned_rename.1 hk
    rw [h.stops_rename hs] at hstops
    exact ⟨s, _, ⟨⟨hs, hstops⟩, rfl⟩, rfl, h.fullRow_rename hs⟩
  · rintro ⟨s, _, ⟨⟨hs, hstops⟩, rfl⟩, rfl, rfl⟩
    exact ⟨⟨h.mem_mentioned_rename.2 ⟨s, hs, rfl⟩, (h.stops_rename hs).trans hstops⟩, h.fullRow_rename hs⟩

/-- A renaming that keeps the order of bytes keeps the order in which states are gone through. -/
theorem KeepsOrder.compare_rename (h : m.KeepsOrder r) {s t : String} (hs : s ∈ m.mentioned) (ht : t ∈ m.mentioned)
    (hst : compare s t = .lt) : compare (r s) (r t) = .lt := by
  have hlt := compareOfLessAndEq_eq_lt.1 hst
  rw [← utf8Bytes_lt_iff] at hlt
  exact compareOfLessAndEq_eq_lt.2 (utf8Bytes_lt_iff.1 (h s hs t ht hlt))

/-- The transitions of the renamed machine's table are the renamed ones, in the same order. -/
theorem Renames.entries_rename (h : m.Renames r) (horder : m.KeepsOrder r) :
    (m.rename r).complete.entries = m.complete.entries.map fun e => (r e.1, e.2.1, e.2.2.rename r) := by
  have hmentioned : ∀ {s row}, m.complete.rows[s]? = some row → s ∈ m.mentioned := by
    intro s row hrow
    rw [complete_rows_getElem?] at hrow
    split at hrow
    · rename_i hs
      exact ((m.mem_rowStates s).1 hs).1
    · cases hrow
  have hrows := toList_eq_map_of_order h.rows_eq_some fun a b v w ha hb => horder.compare_rename (hmentioned ha) (hmentioned hb)
  rw [Table.entries, hrows, Table.entries, List.flatMap_map, List.map_flatMap]
  simp only [Std.ExtTreeMap.toList_map, List.map_map]
  rfl

/-- The renamed actions have the numbers of the actions. -/
theorem Renames.toList_catalog (h : m.Renames r) (horder : m.KeepsOrder r) :
    (m.rename r).catalog.toList = m.catalog.toList.map (Action.rename r) := by
  have hnumbered : ∀ a ∈ m.complete.entries.map (fun e => e.2.2), (m.catalog.get? a).isSome := by
    intro a ha
    obtain ⟨⟨s, p, b⟩, he, rfl⟩ := List.mem_map.1 ha
    exact m.isSome_catalog_get? s p b ((m.complete.mem_entries s p b).1 he)
  have hactions : (m.rename r).complete.entries.map (fun e => e.2.2) =
      (m.complete.entries.map fun e => e.2.2).map (Action.rename r) := by
    rw [h.entries_rename horder, List.map_map, List.map_map]
    rfl
  rw [catalog, Catalog.ofTable, hactions]
  refine Catalog.toList_internAll_map _ Catalog.empty Catalog.empty rfl fun a ha b hb => ?_
  rw [Catalog.toList_empty, List.nil_append] at ha hb
  exact h.rename_injective (hnumbered a ha) (hnumbered b hb)

/-- If the order of the states is kept, so are the numbers. -/
theorem Renames.renumber_eq (h : m.Renames r) (hm : m.catalog.size ≤ Catalog.capacity) (horder : m.KeepsOrder r) {i : Nat}
    (hi : i < m.graph.nodes.length) :
    m.renumber r i = i := by
  rw [graph_length] at hi
  have ha := List.getElem?_eq_getElem hi
  have hnumber := h.get?_rename hm ((Catalog.get?_eq_some_iff hm _ i).2 ha)
  have hsame : (m.rename r).catalog.get? (m.catalog.toList[i].rename r) = some i := by
    rw [Catalog.get?_eq_some_iff (h.numbered hm), h.toList_catalog horder, List.getElem?_map, ha]
    rfl
  exact Option.some.inj (hnumber.symm.trans hsame)

end Machine

/-- Closed graphs with the same numbers and the same prompt have the same image. -/
theorem Graph.Renumbers.image_eq {g g' : Graph} {number : Nat → Nat} (h : g.Renumbers number g') (hg : g.Closed) (hg' : g'.Closed)
    (hprompt : g.prompt = g'.prompt) (hnumber : ∀ i < g.nodes.length, number i = i) (d : Display) : g.image d = g'.image d := by
  have hlt : ∀ i, i < g.nodes.length ↔ i < g'.nodes.length := by
    intro i
    constructor
    · intro hi
      have hmaps : number i < g'.nodes.length := h.bijective.mapsTo hi
      rwa [hnumber i hi] at hmaps
    · intro hi
      obtain ⟨j, hj, rfl⟩ := h.bijective.surjOn hi
      have hj' : j < g.nodes.length := hj
      rwa [hnumber j hj']
  have hedges : ∀ {es es' : Edges}, (∀ (key : String) target, es[key]? = some target → target < g.nodes.length) →
      (∀ key : String, es'[key]? = es[key]?.map number) → es = es' := by
    intro es es' htarget hes
    refine Std.ExtTreeMap.ext_getElem? fun key => ?_
    rw [hes key]
    cases hkey : es[key]? with
    | none => rfl
    | some target => rw [Option.map_some, hnumber target (htarget key target hkey)]
  have hnode : ∀ (i : Nat) n, g.nodes[i]? = some n → ∃ n', g'.nodes[i]? = some n' ∧ nodeImage d n = nodeImage d n' := by
    intro i n hn
    obtain ⟨n', hn', hprogram, hkeys⟩ := h.nodes i n hn
    rw [hnumber i (List.getElem?_eq_some_iff.1 hn).1] at hn'
    refine ⟨n', hn', ?_⟩
    rw [nodeImage, nodeImage, NodeImage.mk.injEq]
    refine ⟨(hg.numbered i n hn).trans (hg'.numbered i n' hn').symm, by rw [hprogram], hedges (fun key target hkey => ?_) hkeys⟩
    refine hg.target (some n.id) key target ?_
    rw [hg.follow_node (List.mem_of_getElem? hn), hkey]
  rw [image, image, Image.mk.injEq]
  refine ⟨by rw [hprompt], rfl, hedges (hg.target none) h.rootEdges, List.ext_getElem? fun i => ?_⟩
  rw [List.getElem?_map, List.getElem?_map]
  cases hn : g.nodes[i]? with
  | none =>
    have hle : g'.nodes.length ≤ i := Nat.not_lt.1 fun hi => Nat.not_lt.2 (List.getElem?_eq_none_iff.1 hn) ((hlt i).2 hi)
    rw [List.getElem?_eq_none_iff.2 hle]
  | some n =>
    obtain ⟨n', hn', himage⟩ := hnode i n hn
    rw [hn', Option.map_some, Option.map_some, himage]

/-- The names of states do not matter, if there are at most `2 ^ 32` actions. For every renaming that keeps the states of a machine
apart and keeps the sink, the graphs of the machine and of the renamed machine differ in their numbers only, and the node of an
action goes to the node of the renamed action. If the renaming keeps the order of the states, the numbers are the same, the
fingerprints are the same on every display, and the trees are the same at any two fresh roots. -/
theorem state_names_opaque (m : Machine) (hm : m.catalog.size ≤ Catalog.capacity) (r : String → String) (hr : m.Renames r) :
    ∃ plan plan' number, m.plan = .ok plan ∧ (m.rename r).plan = .ok plan' ∧
      (∀ a i, plan.catalog.get? a = some i → plan'.catalog.get? (a.rename r) = some (number i)) ∧
      plan.graph.Renumbers number plan'.graph ∧
      (m.KeepsOrder r →
        (∀ i < plan.graph.nodes.length, number i = i) ∧
        (∀ d : Display, 0 < d.columns →
          ∃ text, plan.graph.fingerprint d = .ok text ∧ plan'.graph.fingerprint d = .ok text) ∧
        ∀ t t' : FreshTree, t.graph = plan.graph → t'.graph = plan'.graph → t.display = t'.display →
          Disk.SameTree t.after t.root t'.after t'.root) := by
  refine ⟨_, _, m.renumber r, m.plan_eq, (m.rename r).plan_eq, ?_⟩
  dsimp only
  refine ⟨fun a i ha => hr.get?_rename hm ha, hr.renumbers hm, fun horder => ?_⟩
  have hnumber : ∀ i < m.graph.nodes.length, m.renumber r i = i := fun i hi => hr.renumber_eq hm horder hi
  have hprompt : m.graph.prompt = (m.rename r).graph.prompt := by rw [Machine.graph, Machine.graph, Machine.rename]
  have himage := (hr.renumbers hm).image_eq (m.closed_graph hm) ((m.rename r).closed_graph (hr.numbered hm)) hprompt hnumber
  refine ⟨hnumber, fun d hd => ?_, fun t t' ht ht' hdisplay => ?_⟩
  · obtain ⟨text, htext⟩ := Graph.exists_fingerprint hd m.graph
    refine ⟨text, htext, ?_⟩
    rw [Graph.fingerprint, Graph.bytes_eq hd] at htext ⊢
    rwa [← himage d]
  · refine FreshTree.sameTree_of_image ?_
    rw [FreshTree.image, FreshTree.image, ht, ht', ← hdisplay]
    exact himage t.display

/-- A renaming of one state. -/
def renameA (s : String) : String := if s = "A" then "Z" else s

/-- The machine has one state and the sink. -/
theorem mem_mentioned_zeroing {s : String} (h : s ∈ zeroing.mentioned) : s = "A" ∨ s = sinkState := by
  have hlist : zeroing.mentioned.toList = ["A", sinkState] := by decide +kernel
  rw [← Std.ExtTreeSet.mem_toList, hlist] at h
  simpa using h

/-- The renaming keeps the two apart and the sink where it is. -/
theorem renames_renameA : zeroing.Renames renameA := by
  refine ⟨fun s hs t ht hst => ?_, by decide⟩
  rcases mem_mentioned_zeroing hs with rfl | rfl <;> rcases mem_mentioned_zeroing ht with rfl | rfl
  · rfl
  · exact absurd hst (by decide)
  · exact absurd hst (by decide)
  · rfl

/-- The file system takes the tree of the renamed machine. -/
theorem fits_rename_zeroing : ∀ item ∈ (zeroing.rename renameA).graph.items ⟨4⟩, Operation.Fits "copy" item := by
  have hnodes : (zeroing.rename renameA).graph.nodes.length = 2 := by
    have hcatalog : (zeroing.rename renameA).catalog.toList.length = 2 := by decide +kernel
    rw [Machine.graph_length, hcatalog]
  have hclosed := Machine.closed_graph _ (renames_renameA.numbered size_catalog_zeroing)
  refine Graph.fits_items (by decide) hclosed (Graph.fits_of_length hclosed (by decide) ?_ (by decide))
  rw [hnodes]
  decide

/-- The tree of the renamed machine, beside a file. -/
def renamedCopy : FreshTree :=
  .atName (zeroing.rename renameA).graph "copy" noteDisk wellFormed_noteDisk defects_noteDisk isName_copy get?_noteDisk_copy
    fits_rename_zeroing

/-- The renaming keeps the order, since both names come before the sink's. -/
theorem keepsOrder_renameA : zeroing.KeepsOrder renameA := by
  intro s hs t ht hlt
  rw [utf8Bytes_lt_iff] at hlt ⊢
  rcases mem_mentioned_zeroing hs with rfl | rfl <;> rcases mem_mentioned_zeroing ht with rfl | rfl
  · exact absurd hlt (by decide)
  · decide
  · exact absurd hlt (by decide)
  · exact absurd hlt (by decide)

/-- A machine whose only state is renamed has the same fingerprint and the same tree. -/
theorem zeroing_names_opaque :
    zeroing.catalog.size ≤ Catalog.capacity ∧ zeroing.Renames renameA ∧ zeroing.KeepsOrder renameA ∧
      (zeroing.rename renameA).initial = "Z" ∧
      (∃ text, zeroing.graph.fingerprint ⟨4⟩ = .ok text ∧ (zeroing.rename renameA).graph.fingerprint ⟨4⟩ = .ok text) ∧
      Disk.SameTree zeroingTree.after "tree" renamedCopy.after "copy" := by
  obtain ⟨plan, plan', number, hplan, hplan', -, -, hsame⟩ := state_names_opaque zeroing size_catalog_zeroing renameA renames_renameA
  obtain ⟨-, hfingerprint, htree⟩ := hsame keepsOrder_renameA
  rw [zeroing.plan_eq] at hplan
  rw [(zeroing.rename renameA).plan_eq] at hplan'
  have hgraph : plan.graph = zeroing.graph := congrArg Plan.graph (Except.ok.inj hplan).symm
  have hgraph' : plan'.graph = (zeroing.rename renameA).graph := congrArg Plan.graph (Except.ok.inj hplan').symm
  rw [hgraph, hgraph'] at hfingerprint htree
  -- each side by itself, since comparing the two trees would compare their graphs
  have hdisplay : zeroingTree.display = ⟨4⟩ := rfl
  have hdisplay' : renamedCopy.display = ⟨4⟩ := rfl
  exact ⟨size_catalog_zeroing, renames_renameA, keepsOrder_renameA, rfl, hfingerprint ⟨4⟩ (by decide),
    htree zeroingTree renamedCopy rfl rfl (hdisplay.trans hdisplay'.symm)⟩

end DispatchTree
