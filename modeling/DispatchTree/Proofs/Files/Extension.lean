import Mathlib.Data.String.Basic
import DispatchTree.Proofs.Files.Path

/-!
# The extension of a file name

A file that is named by adding an extension to a text has this extension (`extension?_join_toml`), whatever directory it is in,
unless the text leaves nothing in front of the extension: a name that starts with its only point has none.
-/

namespace DispatchTree.Path

/-- A text with nothing after its last slash. What is added to it is the whole name of a file. -/
def Bare (p : String) : Prop := p = "" ∨ p.endsWith "/" = true

instance (p : String) : Decidable (Bare p) := inferInstanceAs (Decidable (_ ∨ _))

/-- The parts of a text come last when it is joined to a path. -/
theorem exists_parts_join (base x : String) : ∃ front, parts (join base x) = front ++ parts x := by
  unfold join
  split
  · exact ⟨[], rfl⟩
  · split
    · rename_i h
      rw [Bool.or_eq_true] at h
      rcases h with h | h
      · refine ⟨[], ?_⟩
        rw [String.isEmpty_iff.1 h, String.empty_append, List.nil_append]
      · obtain ⟨stem, hstem⟩ := endsWith_iff.1 h
        have hbase : base = String.ofList stem ++ "/" := by
          rw [← String.toList_inj, String.toList_append, String.toList_ofList, hstem]
        exact ⟨parts (String.ofList stem), by rw [hbase, parts_append_slash]⟩
    · exact ⟨parts base, parts_append_slash base x⟩

/-- What is added to a text is added to its last part. -/
theorem parts_append {p x last : String} {front : List String} (hx : '/' ∉ x.toList) (h : parts p = front ++ [last]) :
    parts (p ++ x) = front ++ [last ++ x] := by
  have hslash : ∀ z ∈ front ++ [last], '/' ∉ z.toList := fun z hz => noSlash_of_mem_parts (h ▸ hz)
  have hlast : '/' ∉ (last ++ x).toList := by
    rw [String.toList_append, List.mem_append]
    exact not_or.2 ⟨hslash last (by simp), hx⟩
  have hp := intercalate_parts p
  rw [h] at hp
  by_cases hfront : front = []
  · subst hfront
    rw [← hp]
    simpa using parts_of_noSlash hlast
  · rw [intercalate_append hfront (by simp), String.intercalate_singleton] at hp
    rw [← hp, String.append_assoc, parts_append_slash, parts_of_noSlash hlast,
      parts_intercalate hfront fun z hz => hslash z (List.mem_append_left _ hz)]

/-- The last part is empty if nothing follows the last slash. -/
theorem last_eq_empty_iff {p last : String} {front : List String} (h : parts p = front ++ [last]) : last = "" ↔ Bare p := by
  have hempty : parts "" = [""] := by decide +kernel
  constructor
  · rintro rfl
    have hp := intercalate_parts p
    rw [h] at hp
    by_cases hfront : front = []
    · subst hfront
      exact .inl (by simpa using hp.symm)
    · rw [intercalate_append hfront (by simp), String.intercalate_singleton, String.append_empty] at hp
      refine .inr (endsWith_iff.2 ⟨("/".intercalate front).toList, ?_⟩)
      rw [← hp, String.toList_append]
  · rintro (rfl | hslash)
    · rw [hempty] at h
      exact (List.append_eq_singleton_iff.1 h.symm).elim (fun h => by simpa using h.2) (fun h => by simp at h)
    · obtain ⟨stem, hstem⟩ := endsWith_iff.1 hslash
      have hp : p = String.ofList stem ++ "/" ++ "" := by
        rw [← String.toList_inj, String.append_empty, String.toList_append, String.toList_ofList, hstem]
      rw [hp, parts_append_slash, hempty] at h
      simpa using (List.append_inj' h rfl).2.symm

/-- The file name of a path is its last part. -/
theorem fileName?_of_parts {p last : String} {front : List String} (h : parts p = front ++ [last]) (hidle : isIdle last = false)
    (hup : last ≠ "..") : fileName? p = some last := by
  have hpoint : last ≠ "." := by
    rintro rfl
    exact absurd hidle (by decide)
  have hlast : (components p).2.getLast? = some last := by
    rw [components, h]
    split
    · rename_i rest hrest
      cases front with
      | nil => exact absurd (List.cons.inj hrest).1 hpoint
      | cons first front =>
        obtain ⟨-, rfl⟩ := List.cons.inj hrest
        rw [List.append_eq, List.filter_append, List.filter_singleton, hidle, ← List.cons_append]
        exact List.getLast?_concat
    · simp [List.filter_append, hidle]
  unfold fileName?
  rw [hlast]
  split <;> simp_all

/-- A text that is not empty is not split at its points into a single empty part. -/
theorem splitToList_ne_singleton {s : String} (hs : s ≠ "") : s.splitToList (· == '.') ≠ [""] := by
  rw [String.splitToList_of_valid]
  intro h
  by_cases hpoint : '.' ∈ s.toList
  · -- the texts on both sides of a point are two at least
    obtain ⟨before, after, hsplit⟩ := List.append_of_mem hpoint
    rw [hsplit, List.splitOnP_append_cons before after (by decide), List.map_append] at h
    have hlength := congrArg List.length h
    have hbefore := List.length_pos_iff.2 (List.splitOnP_ne_nil (· == '.') before)
    have hafter := List.length_pos_iff.2 (List.splitOnP_ne_nil (· == '.') after)
    simp only [List.length_append, List.length_map, List.length_singleton] at hlength
    omega
  · have hnone : ∀ c ∈ s.toList, (c == '.') = false := by
      intro c hc
      rw [beq_eq_false_iff_ne]
      rintro rfl
      exact hpoint hc
    rw [List.splitOnP_eq_singleton hnone, List.map_singleton, String.ofList_toList] at h
    exact hs (List.cons.inj h).1

/-- A file that is named by adding an extension has it, unless nothing stands in front of it. -/
theorem extension?_join_toml (dir name : String) :
    extension? (join dir (name ++ ".toml")) = if Bare name then none else some "toml" := by
  obtain ⟨front, last, hname⟩ : ∃ front last, parts name = front ++ [last] :=
    ⟨_, _, (List.dropLast_append_getLast (parts_ne_nil name)).symm⟩
  obtain ⟨front', hjoin⟩ := exists_parts_join dir (name ++ ".toml")
  rw [parts_append (by decide) hname, ← List.append_assoc] at hjoin
  have hlong : ∀ short : String, short.length ≤ 2 → last ++ ".toml" ≠ short := by
    rintro _ hshort rfl
    rw [String.length_append, show ".toml".length = 5 by decide] at hshort
    omega
  have hfile : fileName? (join dir (name ++ ".toml")) = some (last ++ ".toml") := by
    refine fileName?_of_parts hjoin ?_ (hlong ".." (by decide))
    rw [isIdle, Bool.or_eq_false_iff, beq_eq_false_iff_ne, beq_eq_false_iff_ne]
    exact ⟨hlong "" (by decide), hlong "." (by decide)⟩
  have hsplit : (last ++ ".toml").splitToList (· == '.') = last.splitToList (· == '.') ++ ["toml"] := by
    have hchars : (last ++ ".toml").toList = last.toList ++ '.' :: "toml".toList := by simp
    rw [String.splitToList_of_valid, String.splitToList_of_valid, hchars, List.splitOnP_append_cons _ _ (by decide), List.map_append]
    rfl
  unfold extension?
  rw [hfile, Option.bind_some, hsplit, List.reverse_append, List.reverse_singleton, List.singleton_append]
  by_cases hlast : last = ""
  · rw [if_pos ((last_eq_empty_iff hname).1 hlast), hlast]
    decide +kernel
  · rw [if_neg fun h => hlast ((last_eq_empty_iff hname).2 h)]
    split
    · rename_i h
      cases h
    · rename_i h
      have hnil := List.reverse_eq_nil_iff.1 (List.cons.inj h).2
      rw [String.splitToList_of_valid, List.map_eq_nil_iff] at hnil
      exact absurd hnil (List.splitOnP_ne_nil _ _)
    · rename_i h
      have hone := congrArg List.reverse (List.cons.inj h).2
      rw [List.reverse_reverse] at hone
      exact absurd hone (splitToList_ne_singleton hlast)
    · rename_i h
      rw [(List.cons.inj h).1]

end DispatchTree.Path
