import Mathlib.Data.List.Induction
import DispatchTree.Proofs.Files.Build
import DispatchTree.Proofs.Files.Extension

/-!
# Edges in memory and links on disk

The same rule is carried out twice: an edge is inserted into a map of numbers, and a link is created in a directory. In both a key
keeps the target it got first. `Mirrors` says that a directory has the links of a map and is otherwise as it was; it holds of an
empty directory and the empty map, one insertion of either kind is answered alike (`Mirrors.sameAnswer`) and keeps it
(`Mirrors.after`), and so it holds after any insertions (`mirrors_afterAll`).
-/

namespace DispatchTree

/-- An edge that is to be inserted: its key, the number of the node it leads to, and the transition it stands for. -/
structure Insertion where
  key : String
  target : Nat
  source : EdgeSource

/-- The state after a step; a step that is refused leaves it. -/
def afterStep {ε α σ : Type} (s : σ) : Except ε (α × σ) → σ
  | .ok (_, next) => next
  | .error _ => s

/-! ## Names in a directory -/

namespace Path

/-- The file name of a joined path is the name that was joined. -/
theorem fileName?_join {base name : String} (hname : IsName name) : fileName? (join base name) = some name := by
  obtain ⟨front, hparts⟩ := exists_parts_join base name
  rw [parts_of_noSlash hname.noSlash] at hparts
  refine fileName?_of_parts hparts ?_ hname.ne_points
  simp [isIdle, hname.ne_empty, hname.ne_point]

/-- A link at the root leads to a node beside it, and one in the directory of a node leads up first. -/
theorem parts_linkTarget (id : Nat) (nested : Bool) :
    parts (linkTarget id nested) = if nested then ["..", tag id] else [tag id] := by
  have htag : parts (tag id) = [tag id] := parts_of_noSlash (isPlain_tag id).noSlash
  cases nested with
  | false => exact htag
  | true =>
    have hslash : linkTarget id true = ".." ++ "/" ++ tag id := Graph.linkTarget_nested id
    rw [hslash, parts_append_slash, htag, parts_of_noSlash (by decide)]
    rfl

/-- The components of a link to a node are its parts. -/
theorem components_linkTarget (id : Nat) (nested : Bool) :
    components (linkTarget id nested) = (false, if nested then ["..", tag id] else [tag id]) := by
  have hplain := isPlain_tag id
  have hidle : isIdle (tag id) = false := by simp [isIdle, hplain.ne_empty, hplain.ne_point]
  rw [components, parts_linkTarget]
  cases nested with
  | false =>
    have habsolute : isAbsolute (linkTarget id false) = false := isAbsolute_of_noSlash hplain.noSlash
    split
    · rename_i hpoint
      exact absurd (List.cons.inj hpoint).1 hplain.ne_point
    · simp [habsolute, hidle]
  | true =>
    have habsolute : isAbsolute (linkTarget id true) = false :=
      (hplain.isAbsolute_join (by decide)).trans (isAbsolute_of_noSlash (by decide))
    have hup : isIdle ".." = false := by decide
    split
    · rename_i hpoint
      exact absurd (List.cons.inj hpoint).1 (by decide)
    · simp [habsolute, hidle, hup]

/-- Links to different nodes differ as paths. -/
theorem same_linkTarget_iff (a b : Nat) (nested : Bool) : same (linkTarget a nested) (linkTarget b nested) = true ↔ a = b := by
  rw [same, beq_iff_eq, components_linkTarget, components_linkTarget]
  constructor
  · intro h
    cases nested with
    | false => simpa using tag_injective (by simpa using h)
    | true => simpa using tag_injective (by simpa using h)
  · rintro rfl
    rfl

end Path

namespace Disk

variable {d : Disk} {base name target text : String} {here : Location}

/-- No link is created under a name that is taken. -/
theorem makeLink_join_of_taken (hb : base ≠ "") (hname : Path.IsName name) (hc : checkPath (Path.join base name) = .ok ())
    (h : d.LeadsTo base here) (htaken : (d.get? (here ++ [name])).isSome) (htarget : checkPath target = .ok ()) :
    d.makeLink target (Path.join base name) = .error .alreadyExists := by
  obtain ⟨k, way⟩ := h
  rw [startOf, ← Path.isAbsolute_join hname hb] at way
  have hnul : ¬('\x00' ∈ target.toList ∨ '\x00' ∈ (Path.join base name).toList) :=
    not_or.2 ⟨(checkPath_eq_ok.1 htarget).1, (checkPath_eq_ok.1 hc).1⟩
  have hfree : d.freeLocation (Path.join base name) false = .error .alreadyExists := by
    simp only [freeLocation, hc, splitNames_of_names (Path.names_join hname hb), startOf, walk_idle_iff.2 way, bind, Except.bind,
      hname.ne_point, hname.ne_points, or_self, if_false, Nat.not_lt.2 hname.short, htaken, if_true]
  simp only [makeLink, if_neg hnul, htarget, hfree, bind, Except.bind]

/-- A link in a directory is read there, wherever it leads, if the system does not fail. -/
theorem readLink_join (hb : base ≠ "") (hname : Path.IsName name) (hc : checkPath (Path.join base name) = .ok ())
    (h : d.LeadsTo base here) (hlink : d.get? (here ++ [name]) = some (.link text)) (hsound : d.defects[here ++ [name]]? = none) :
    d.readLink (Path.join base name) = .ok text := by
  obtain ⟨k, way⟩ := h
  rw [startOf, ← Path.isAbsolute_join hname hb] at way
  have hwalk : d.walk false maxLinks (startOf d.current (Path.join base name)) (namesOf (Path.join base name)) =
      .ok ⟨.existing (here ++ [name]), k⟩ := by
    rw [startOf, namesOf_eq, Path.names_join hname hb, Path.endsWith_join hname hb]
    simp only [Bool.false_eq_true, if_false, List.append_nil]
    rw [way.walk_append (List.cons_ne_nil _ _), walk_name (not_or.2 ⟨hname.ne_empty, hname.ne_point⟩) hname.ne_points hname.short,
      hlink]
    rfl
  have hfind : d.find false (Path.join base name) = .ok (here ++ [name], .link text) := find_eq_ok.2 ⟨hc, ⟨k, hwalk⟩, hlink⟩
  simp only [readLink, hfind, checkLocation, hsound, bind, Except.bind, pure, Except.pure]

end Disk

/-! ## One insertion -/

/-- The edges after an insertion. -/
def Edges.after (es : Edges) (i : Insertion) : Edges := afterStep es (es.insertEdge i.key i.target i.source)

/-- The disk after an insertion in a directory. -/
def Disk.after (dir : String) (nested : Bool) (d : Disk) (i : Insertion) : Disk :=
  afterStep d (d.linkEdge (linkTarget i.target nested) (Path.join dir i.key) i.source)

/-- An insertion that can be made in a directory: its key is a name there, the file system takes the path, and the number of the node
is one of 32 bits. -/
structure Insertion.Fits (i : Insertion) (dir : String) : Prop where
  name : Path.IsName i.key
  path : (Path.join dir i.key).utf8ByteSize ≤ Disk.maxPath
  target : i.target < 2 ^ 32

/-- A path leads to a directory in which nothing stands and the system does not fail. -/
structure Disk.EmptyAt (d : Disk) (dir : String) (here : Location) : Prop where
  accepted : checkPath dir = .ok ()
  leads : d.LeadsTo dir here
  empty : ∀ name, d.get? (here ++ [name]) = none
  sound : ∀ name, d.defects[here ++ [name]]? = none

/-- The answers to one insertion in memory and on disk. -/
inductive SameAnswer (es : Edges) (d : Disk) (dir : String) (here : Location) (nested : Bool) (i : Insertion) : Prop
  /-- The key is new. -/
  | created (hkey : es[i.key]? = none)
      (hmemory : es.insertEdge i.key i.target i.source = .ok (.added, es.insert i.key i.target))
      (hdisk : d.linkEdge (linkTarget i.target nested) (Path.join dir i.key) i.source =
        .ok (.created, d.put (here ++ [i.key]) (.link (linkTarget i.target nested))))
  /-- The key has this target, and nothing changes. -/
  | satisfied (hkey : es[i.key]? = some i.target)
      (hmemory : es.insertEdge i.key i.target i.source = .ok (.duplicate, es))
      (hdisk : d.linkEdge (linkTarget i.target nested) (Path.join dir i.key) i.source = .ok (.alreadySatisfied, d))
  /-- The key has another target, and both refusals name the two targets. -/
  | refused (existing : Nat) (hkey : es[i.key]? = some existing) (hother : existing ≠ i.target)
      (hmemory : es.insertEdge i.key i.target i.source =
        .error ⟨i.source, Text.escaped i.key, tag existing, tag i.target⟩)
      (hdisk : d.linkEdge (linkTarget i.target nested) (Path.join dir i.key) i.source =
        .error (.conflict ⟨i.source, Text.escaped i.key, linkTarget existing nested, linkTarget i.target nested⟩))

/-- A directory has the links of a map, and the rest of the disk is as it was. -/
structure Mirrors (start d : Disk) (here : Location) (nested : Bool) (es : Edges) : Prop where
  links : ∀ name : String, d.get? (here ++ [name]) = es[name]?.map fun id => .link (linkTarget id nested)
  others : ∀ l, (∀ name, l ≠ here ++ [name]) → d.get? l = start.get? l
  grows : Disk.Grows start d

/-- The system takes the targets of links. -/
theorem checkPath_linkTarget {id : Nat} (h : id < 2 ^ 32) (nested : Bool) : Disk.checkPath (linkTarget id nested) = .ok () := by
  have hname : Path.IsName (tag id) := isName_tag (utf8ByteSize_tag (Nat.lt_of_lt_of_le h (by decide)))
  cases nested with
  | false => exact (Graph.checkPath_target hname).1
  | true => exact Graph.linkTarget_nested id ▸ (Graph.checkPath_target hname).2

namespace Mirrors

variable {start d : Disk} {dir : String} {here : Location} {nested : Bool} {es : Edges} {i : Insertion}

/-- An insertion is answered alike in memory and on disk. -/
theorem sameAnswer (h : Mirrors start d here nested es) (hdir : start.EmptyAt dir here) (hi : i.Fits dir) :
    SameAnswer es d dir here nested i := by
  obtain ⟨hnul, hne, -⟩ := Disk.checkPath_eq_ok.1 hdir.accepted
  have hleads := hdir.leads.mono h.grows.includes
  have hpath : Disk.checkPath (Path.join dir i.key) = .ok () :=
    Disk.checkPath_eq_ok.2 ⟨Path.noNul_join hi.name hne hnul, Path.join_ne_empty hi.name hne, hi.path⟩
  have htarget := checkPath_linkTarget hi.target nested
  have hsound : d.defects[here ++ [i.key]]? = none := h.grows.defects ▸ hdir.sound i.key
  have hlink := h.links i.key
  cases hkey : es[i.key]? with
  | none =>
    rw [hkey, Option.map_none] at hlink
    refine .created hkey ?_ ?_
    · rw [Edges.insertEdge, hkey]
    · rw [Disk.linkEdge, Disk.makeLink_join hne hi.name hpath hleads hlink hsound htarget]
  | some existing =>
    rw [hkey, Option.map_some] at hlink
    have htaken := Disk.makeLink_join_of_taken hne hi.name hpath hleads (by rw [hlink]; rfl) htarget
    have hread := Disk.readLink_join hne hi.name hpath hleads hlink hsound
    by_cases hsame : existing = i.target
    · subst hsame
      refine .satisfied hkey ?_ ?_
      · rw [Edges.insertEdge, hkey]
        exact if_pos rfl
      · rw [Disk.linkEdge, htaken]
        dsimp only
        rw [hread]
        dsimp only
        rw [if_pos ((Path.same_linkTarget_iff _ _ nested).2 rfl)]
    · refine .refused existing hkey hsame ?_ ?_
      · rw [Edges.insertEdge, hkey]
        exact if_neg hsame
      · rw [Disk.linkEdge, htaken]
        dsimp only
        rw [hread]
        dsimp only
        rw [if_neg fun h => hsame ((Path.same_linkTarget_iff _ _ nested).1 h), Path.fileName?_join hi.name, Option.getD_some]

/-- A link that is put under a free key mirrors the edge that is put under it. -/
theorem put (h : Mirrors start d here nested es) {key : String} (target : Nat) (hdirectory : d.get? here = some .directory)
    (hkey : es[key]? = none) :
    Mirrors start (d.put (here ++ [key]) (.link (linkTarget target nested))) here nested (es.insert key target) := by
  have hfree : d.get? (here ++ [key]) = none := by rw [h.links, hkey, Option.map_none]
  refine ⟨fun name => ?_, fun l hl => ?_, .add _ h.grows hdirectory hfree⟩
  · rw [Std.ExtTreeMap.getElem?_insert]
    simp only [Std.LawfulEqOrd.compare_eq_iff_eq]
    by_cases hname : key = name
    · subst hname
      rw [if_pos rfl, Disk.get?_put_self, Option.map_some]
    · rw [if_neg hname, Disk.get?_put_of_ne (by simpa using Ne.symm hname), h.links]
  · rw [Disk.get?_put_of_ne (hl key), h.others l hl]

/-- An insertion keeps the directory and the map alike. -/
theorem after (h : Mirrors start d here nested es) (hstart : start.WellFormed) (hdir : start.EmptyAt dir here) (hi : i.Fits dir) :
    Mirrors start (d.after dir nested i) here nested (es.after i) := by
  unfold Disk.after Edges.after
  cases h.sameAnswer hdir hi with
  | created hkey hmemory hdisk =>
    rw [hmemory, hdisk]
    exact h.put i.target ((hdir.leads.mono h.grows.includes).directory (h.grows.wellFormed hstart)) hkey
  | satisfied hkey hmemory hdisk =>
    rw [hmemory, hdisk]
    exact h
  | refused existing hkey hother hmemory hdisk =>
    rw [hmemory, hdisk]
    exact h

end Mirrors

/-! ## Insertions one after the other -/

/-- The edges after insertions in an empty map. -/
def Edges.afterAll (is : List Insertion) : Edges := is.foldl Edges.after ∅

/-- The disk after insertions in a directory. -/
def Disk.afterAll (dir : String) (nested : Bool) (start : Disk) (is : List Insertion) : Disk := is.foldl (Disk.after dir nested) start

/-- An insertion under a free key adds an edge. -/
theorem Edges.after_of_none {es : Edges} {i : Insertion} (h : es[i.key]? = none) : es.after i = es.insert i.key i.target := by
  rw [Edges.after, Edges.insertEdge, h]
  rfl

/-- An insertion under a key that is taken changes nothing. -/
theorem Edges.after_of_some {es : Edges} {i : Insertion} {existing : Nat} (h : es[i.key]? = some existing) : es.after i = es := by
  rw [Edges.after, Edges.insertEdge, h]
  dsimp only
  split
  · rfl
  · rfl

/-- An insertion gives its target to a key that has none. -/
theorem Edges.after_getElem? (es : Edges) (i : Insertion) (key : String) :
    (es.after i)[key]? = es[key]?.or (if i.key = key then some i.target else none) := by
  by_cases hsame : i.key = key
  · subst hsame
    cases hkey : es[i.key]? with
    | none => rw [Edges.after_of_none hkey, Std.ExtTreeMap.getElem?_insert_self, if_pos rfl, Option.none_or]
    | some existing => rw [Edges.after_of_some hkey, hkey, Option.some_or]
  · rw [if_neg hsame, Option.or_none]
    cases hkey : es[i.key]? with
    | none =>
      rw [Edges.after_of_none hkey, Std.ExtTreeMap.getElem?_insert, if_neg]
      exact fun he => hsame (Std.LawfulEqOrd.compare_eq_iff_eq.1 he)
    | some existing => rw [Edges.after_of_some hkey]

/-- After insertions a key has the target of the first of them that has the key. -/
theorem Edges.afterAll_getElem? (is : List Insertion) (key : String) :
    (Edges.afterAll is)[key]? = (is.find? fun i => i.key = key).map Insertion.target := by
  induction is using List.reverseRecOn with
  | nil => exact Std.ExtTreeMap.getElem?_empty
  | append_singleton is i ih =>
    have hlast : Edges.afterAll (is ++ [i]) = (Edges.afterAll is).after i := List.foldl_append
    rw [hlast, Edges.after_getElem?, ih, List.find?_append, Option.map_or, List.find?_singleton]
    by_cases hkey : i.key = key
    · simp [hkey]
    · simp [hkey]

/-- After any insertions the directory has the links of the map. -/
theorem mirrors_afterAll {start : Disk} {dir : String} {here : Location} (hstart : start.WellFormed) (hdir : start.EmptyAt dir here)
    (nested : Bool) (is : List Insertion) (his : ∀ i ∈ is, i.Fits dir) :
    Mirrors start (start.afterAll dir nested is) here nested (Edges.afterAll is) := by
  induction is using List.reverseRecOn with
  | nil =>
    refine ⟨fun name => ?_, fun l _ => rfl, .refl⟩
    rw [Edges.afterAll, List.foldl_nil, Std.ExtTreeMap.getElem?_empty, Option.map_none]
    exact hdir.empty name
  | append_singleton is i ih =>
    have hedges : Edges.afterAll (is ++ [i]) = (Edges.afterAll is).after i := List.foldl_append
    have hdisk : start.afterAll dir nested (is ++ [i]) = (start.afterAll dir nested is).after dir nested i := List.foldl_append
    rw [hedges, hdisk]
    exact (ih fun j hj => his j (List.mem_append_left _ hj)).after hstart hdir (his i (by simp))

/-- Insertion in memory and on disk agree. After any insertions the links of the directory are the edges of the map, each key with the
target that was inserted first, and the next insertion is answered alike. -/
theorem edges_agree_with_links (start : Disk) (hstart : start.WellFormed) (dir : String) (here : Location)
    (hdir : start.EmptyAt dir here) (nested : Bool) (done : List Insertion) (hdone : ∀ i ∈ done, i.Fits dir) :
    Mirrors start (start.afterAll dir nested done) here nested (Edges.afterAll done) ∧
      (∀ key : String, (Edges.afterAll done)[key]? = (done.find? fun i => i.key = key).map Insertion.target) ∧
      ∀ i : Insertion, i.Fits dir → SameAnswer (Edges.afterAll done) (start.afterAll dir nested done) dir here nested i := by
  have hmirrors := mirrors_afterAll hstart hdir nested done hdone
  exact ⟨hmirrors, Edges.afterAll_getElem? done, fun i hi => hmirrors.sameAnswer hdir hi⟩

/-- The current directory of an empty disk is empty. -/
theorem Disk.emptyAt_point : (Disk.workingIn []).EmptyAt "." [] where
  accepted := Disk.checkPath_eq_ok.2 ⟨by decide, by decide, by decide⟩
  leads := by
    have hnames : Path.names "." = ["."] := by
      rw [Path.names, Path.parts_of_noSlash (by decide)]
      rfl
    have hstart : Disk.startOf [] "." = [] := by
      rw [Disk.startOf]
      split
      · rfl
      · rfl
    refine ⟨Disk.maxLinks, ?_⟩
    rw [hnames, show (Disk.workingIn []).current = [] from rfl, hstart]
    exact .skip (.inr rfl) .stay
  empty name := by simp [Disk.workingIn, Disk.get?]
  sound name := Std.ExtTreeMap.getElem?_empty

/-- An edge with a short key that leads to a node. -/
def edgeTo (id : Nat) : Insertion := ⟨"k", id, ⟨"A", ⟨.one, .blank⟩⟩⟩

/-- The insertion fits into the working directory. -/
theorem fits_edgeTo {id : Nat} (h : id < 2 ^ 32) : (edgeTo id).Fits "." := by
  have hname : Path.IsName "k" := ⟨by decide, by decide, by decide, by decide, by decide, by decide⟩
  exact ⟨hname, Nat.le_trans (Path.utf8ByteSize_join_le hname (by decide)) (by decide), h⟩

/-- The same edge twice, and then one that would redirect its key. -/
theorem edges_agree_with_links_redirected :
    (Disk.workingIn []).WellFormed ∧ (Disk.workingIn []).EmptyAt "." [] ∧ (∀ i ∈ [edgeTo 0, edgeTo 0], i.Fits ".") ∧
      (edgeTo 1).Fits "." ∧
      Mirrors (Disk.workingIn []) ((Disk.workingIn []).afterAll "." true [edgeTo 0, edgeTo 0]) [] true
        (Edges.afterAll [edgeTo 0, edgeTo 0]) ∧
      SameAnswer (Edges.afterAll [edgeTo 0, edgeTo 0]) ((Disk.workingIn []).afterAll "." true [edgeTo 0, edgeTo 0]) "." [] true
        (edgeTo 1) := by
  have hdone : ∀ i ∈ [edgeTo 0, edgeTo 0], i.Fits "." := by
    intro i hi
    simp only [List.mem_cons, List.not_mem_nil, or_false, or_self] at hi
    rw [hi]
    exact fits_edgeTo (by decide)
  have hnext : (edgeTo 1).Fits "." := fits_edgeTo (by decide)
  obtain ⟨hmirrors, -, hanswer⟩ :=
    edges_agree_with_links _ Disk.wellFormed_empty "." [] Disk.emptyAt_point true [edgeTo 0, edgeTo 0] hdone
  exact ⟨Disk.wellFormed_empty, Disk.emptyAt_point, hdone, hnext, hmirrors, hanswer _ hnext⟩

end DispatchTree
