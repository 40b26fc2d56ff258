import DispatchTree.Build

/-!
# Paths and their names

What joining and cutting does to the names of a path. A name without a slash that is joined to a path becomes its last name and
changes neither where the path starts nor the names before it. The parent of a path has the names above the last one, up to points
that lead nowhere.
-/

namespace DispatchTree.Path

/-- The parts of a path that are not empty. -/
def names (p : String) : List String := (parts p).filter (· != "")

/-- A name that a file system takes as it is: it leads nowhere else, and it is not too long. -/
structure IsName (name : String) : Prop where
  ne_empty : name ≠ ""
  ne_point : name ≠ "."
  ne_points : name ≠ ".."
  noSlash : '/' ∉ name.toList
  noNul : '\x00' ∉ name.toList
  short : name.utf8ByteSize ≤ Disk.maxName

/-- A name that leads nowhere else, of any length. -/
structure IsPlain (name : String) : Prop where
  ne_empty : name ≠ ""
  ne_point : name ≠ "."
  ne_points : name ≠ ".."
  noSlash : '/' ∉ name.toList

/-- A name leads nowhere else, whatever its length. -/
theorem IsName.isPlain {name : String} (h : IsName name) : IsPlain name := ⟨h.ne_empty, h.ne_point, h.ne_points, h.noSlash⟩

/-- A text ends with another one if its characters do. -/
theorem endsWith_iff {s t : String} : s.endsWith t = true ↔ t.toList <:+ s.toList := by
  rw [← String.endsWith_toSlice, String.Slice.endsWith_string_iff, String.copy_toSlice]

/-- A text without a slash is its only part. -/
theorem parts_of_noSlash {s : String} (h : '/' ∉ s.toList) : parts s = [s] := by
  simp only [parts, List.splitOn_eq_singleton h, List.map_cons, List.map_nil, String.ofList_toList]

/-- A slash divides the parts before it from those behind it. -/
theorem parts_append_slash (a b : String) : parts (a ++ "/" ++ b) = parts a ++ parts b := by
  have h : (a ++ "/" ++ b).toList = a.toList ++ '/' :: b.toList := by simp
  simp only [parts, h, List.splitOn_append_cons_self, List.map_append]

/-- Even the empty path has a part. -/
theorem parts_ne_nil (p : String) : parts p ≠ [] := by
  simp only [parts, ne_eq, List.map_eq_nil_iff]
  exact List.splitOn_ne_nil _ _

/-- What a list is split at is in none of the pieces. -/
theorem notMem_of_mem_splitOn {c : Char} {cs l : List Char} (h : l ∈ cs.splitOn c) : c ∉ l := by
  induction cs generalizing l with
  | nil =>
    simp only [List.splitOn_nil, List.mem_singleton] at h
    simp [h]
  | cons a cs ih =>
    rw [List.splitOn_cons_eq_if_modifyHead] at h
    split at h
    · rcases List.mem_cons.1 h with rfl | h
      · exact List.not_mem_nil
      · exact ih h
    · rename_i ha
      obtain ⟨first, rest, hs⟩ := List.exists_cons_of_ne_nil (List.splitOn_ne_nil c cs)
      rw [hs, List.modifyHead_cons] at h
      rw [hs] at ih
      rcases List.mem_cons.1 h with rfl | h
      · intro hc
        rcases List.mem_cons.1 hc with rfl | hc
        · simp at ha
        · exact ih List.mem_cons_self hc
      · exact ih (List.mem_cons_of_mem _ h)

/-- No part has a slash in it. -/
theorem noSlash_of_mem_parts {p x : String} (h : x ∈ parts p) : '/' ∉ x.toList := by
  obtain ⟨l, hl, rfl⟩ := List.mem_map.1 h
  rw [String.toList_ofList]
  exact notMem_of_mem_splitOn hl

/-- Parts that are put together with slashes are the parts again. -/
theorem parts_intercalate {ps : List String} (hne : ps ≠ []) (h : ∀ x ∈ ps, '/' ∉ x.toList) :
    parts ("/".intercalate ps) = ps := by
  have hs : "/".toList = ['/'] := by decide
  rw [parts, String.toList_intercalate, hs, List.splitOn_intercalate]
  · simp
  · intro l hl
    obtain ⟨x, hx, rfl⟩ := List.mem_map.1 hl
    exact h x hx
  · simpa using hne

/-! ## Joining -/

/-- A path without a slash is relative. -/
theorem isAbsolute_of_noSlash {x : String} (hx : '/' ∉ x.toList) : isAbsolute x = false := by
  rw [isAbsolute, Bool.eq_false_iff]
  intro h
  exact hx (List.IsPrefix.subset (String.startsWith_string_iff.1 h) (by decide))

/-- A path that a name without a slash was added to: the name is its last one, and no slash follows. -/
theorem join_noSlash {base x : String} (hx : '/' ∉ x.toList) (hb : base ≠ "") :
    ∃ stem, join base x = stem ++ "/" ++ x ∧ (base = stem ∨ base = stem ++ "/") := by
  have hempty : base.isEmpty = false := Bool.eq_false_iff.2 fun h => hb (String.isEmpty_iff.1 h)
  simp only [join, isAbsolute_of_noSlash hx, hempty, Bool.false_or, Bool.false_eq_true, if_false]
  split
  · rename_i h
    obtain ⟨stem, hstem⟩ := endsWith_iff.1 h
    have hbase : base = String.ofList stem ++ "/" := by
      rw [← String.toList_inj, String.toList_append, String.toList_ofList, hstem]
    exact ⟨String.ofList stem, by rw [← hbase], .inr hbase⟩
  · exact ⟨base, rfl, .inl rfl⟩

/-- The names before a slash and those behind it. -/
theorem names_append_slash (a b : String) : names (a ++ "/" ++ b) = names a ++ names b := by
  simp only [names, parts_append_slash, List.filter_append]

/-- A slash at the end adds no name. -/
theorem names_slash (stem : String) : names (stem ++ "/") = names stem := by
  have h := names_append_slash stem ""
  rw [String.append_empty] at h
  rw [h, show names "" = [] by decide +kernel, List.append_nil]

/-- Joining adds one name to those of the base. -/
theorem IsPlain.names_join {base x : String} (hx : IsPlain x) (hb : base ≠ "") : names (join base x) = names base ++ [x] := by
  obtain ⟨stem, hj, hbase⟩ := join_noSlash hx.noSlash hb
  have hlast : names x = [x] := by
    simp [names, parts_of_noSlash hx.noSlash, hx.ne_empty]
  rw [hj, names_append_slash, hlast]
  rcases hbase with rfl | rfl
  · rfl
  · rw [names_slash]

theorem names_join {base x : String} (hx : IsName x) (hb : base ≠ "") : names (join base x) = names base ++ [x] :=
  hx.isPlain.names_join hb

/-- A joined path is not empty. -/
theorem IsPlain.join_ne_empty {base x : String} (hx : IsPlain x) (hb : base ≠ "") : join base x ≠ "" := by
  intro h
  have hn := hx.names_join hb
  rw [h, show names "" = [] by decide +kernel] at hn
  simp at hn

theorem join_ne_empty {base x : String} (hx : IsName x) (hb : base ≠ "") : join base x ≠ "" := hx.isPlain.join_ne_empty hb

/-- A joined path does not end with a slash. -/
theorem endsWith_join {base x : String} (hx : IsName x) (hb : base ≠ "") : (join base x).endsWith "/" = false := by
  obtain ⟨stem, hj, -⟩ := join_noSlash hx.noSlash hb
  rw [hj, Bool.eq_false_iff]
  intro h
  have hne : x.toList ≠ [] := fun h => hx.ne_empty (String.toList_eq_nil_iff.1 h)
  rw [endsWith_iff, show "/".toList = ['/'] by decide, List.singleton_suffix_iff_getLast?_eq_some, String.toList_append,
    List.getLast?_append, List.getLast?_eq_some_getLast hne, Option.some_or] at h
  exact hx.noSlash (Option.some.inj h ▸ List.getLast_mem hne)

/-- Whether a path is absolute is decided by its front. -/
theorem isAbsolute_append {base rest : String} (hb : base ≠ "") : isAbsolute (base ++ rest) = isAbsolute base := by
  rw [isAbsolute, isAbsolute, Bool.eq_iff_iff, String.startsWith_string_iff, String.startsWith_string_iff,
    show "/".toList = ['/'] by decide, String.toList_append]
  obtain ⟨c, cs, hc⟩ := List.exists_cons_of_ne_nil fun h => hb (String.toList_eq_nil_iff.1 h)
  rw [hc]
  simp

/-- A name is joined with a slash, unless the base ends with one. -/
theorem IsPlain.join_eq_append {base x : String} (hx : IsPlain x) (hb : base ≠ "") :
    join base x = base ++ x ∨ join base x = base ++ "/" ++ x := by
  obtain ⟨stem, hj, rfl | rfl⟩ := join_noSlash hx.noSlash hb
  · exact .inr hj
  · exact .inl hj

theorem join_eq_append {base x : String} (hx : IsName x) (hb : base ≠ "") :
    join base x = base ++ x ∨ join base x = base ++ "/" ++ x :=
  hx.isPlain.join_eq_append hb

/-- A joined path starts where its base does. -/
theorem IsPlain.isAbsolute_join {base x : String} (hx : IsPlain x) (hb : base ≠ "") :
    isAbsolute (join base x) = isAbsolute base := by
  rcases hx.join_eq_append hb with h | h
  · rw [h, isAbsolute_append hb]
  · rw [h, String.append_assoc, isAbsolute_append hb]

theorem isAbsolute_join {base x : String} (hx : IsName x) (hb : base ≠ "") : isAbsolute (join base x) = isAbsolute base :=
  hx.isPlain.isAbsolute_join hb

/-- Joining a name adds no character that ends a name. -/
theorem noNul_join {base x : String} (hx : IsName x) (hb : base ≠ "") (hn : '\x00' ∉ base.toList) :
    '\x00' ∉ (join base x).toList := by
  rcases join_eq_append hx hb with h | h
  · rw [h, String.toList_append, List.mem_append]
    exact not_or.2 ⟨hn, hx.noNul⟩
  · rw [h, String.toList_append, String.toList_append, List.mem_append, List.mem_append]
    exact not_or.2 ⟨not_or.2 ⟨hn, by decide⟩, hx.noNul⟩

/-- Joining a name adds at most a slash and the length of a name. -/
theorem utf8ByteSize_join_le {base x : String} (hx : IsName x) (hb : base ≠ "") :
    (join base x).utf8ByteSize ≤ base.utf8ByteSize + Disk.maxName + 1 := by
  have hshort := hx.short
  have hslash : ("/" : String).utf8ByteSize = 1 := by decide
  rcases join_eq_append hx hb with h | h
  · rw [h, String.utf8ByteSize_append]
    omega
  · rw [h, String.utf8ByteSize_append, String.utf8ByteSize_append]
    omega

/-! ## The parent of a path -/

/-- A path is its parts with slashes between them. -/
theorem intercalate_parts (p : String) : "/".intercalate (parts p) = p := by
  rw [← String.toList_inj, String.toList_intercalate, show "/".toList = ['/'] by decide, parts, List.map_map]
  simp [Function.comp_def, List.intercalate_splitOn]

/-- A path that is not empty is the text of its parts. -/
theorem ofParts_parts {p : String} (hp : p ≠ "") : ofParts (parts p) = p := by
  have hjoin := intercalate_parts p
  rw [ofParts.eq_def]
  split
  · rename_i h
    rw [h] at hjoin
    exact absurd hjoin.symm hp
  · exact hjoin

/-- The names of a path that is put together are the parts that are not empty. -/
theorem names_ofParts {ps : List String} (hne : ps ≠ []) (h : ∀ x ∈ ps, '/' ∉ x.toList) :
    names (ofParts ps) = ps.filter (· != "") := by
  rw [ofParts.eq_def]
  split
  · decide +kernel
  · rw [names, parts_intercalate hne h]

/-- The text of parts is not empty, also for the single empty part, which is the root. -/
theorem ofParts_ne_empty {ps : List String} (hne : ps ≠ []) (h : ∀ x ∈ ps, '/' ∉ x.toList) : ofParts ps ≠ "" := by
  rw [ofParts.eq_def]
  split
  · decide
  · rename_i hps
    intro he
    have hparts := parts_intercalate hne h
    rw [he, show parts "" = [""] by decide +kernel] at hparts
    exact hps hparts.symm

/-- A text of parts starts at the root if the first part is empty. -/
theorem isAbsolute_ofParts {first : String} {rest : List String} (h : '/' ∉ first.toList) :
    isAbsolute (ofParts (first :: rest)) = (first == "") := by
  rw [ofParts.eq_def]
  split
  · rename_i heq
    rw [List.cons.inj heq |>.1]
    decide +kernel
  · rename_i hps
    have hcs : first = "" ↔ first.toList = [] := String.toList_eq_nil_iff.symm
    rw [isAbsolute, Bool.eq_iff_iff, String.startsWith_string_iff, String.toList_intercalate, show "/".toList = ['/'] by decide,
      beq_iff_eq, hcs, List.map_cons]
    cases hc : first.toList with
    | nil =>
      cases rest with
      | nil => exact absurd (by rw [hcs.2 hc]) hps
      | cons next rest => simp
    | cons c cs =>
      have hne : '/' ≠ c := fun h' => h (by rw [hc, h']; exact List.mem_cons_self)
      cases rest with
      | nil => simp [hne]
      | cons next rest => simp [hne]

/-- What is cut from the end of a path is idle, and what is kept does not end in an idle part. -/
theorem trimIdle_cons (first : String) (rest : List String) :
    ∃ kept tail, trimIdle (first :: rest) = first :: kept ∧ rest = kept ++ tail ∧ (∀ x ∈ tail, isIdle x = true) ∧
      ∀ x, kept.getLast? = some x → isIdle x = false := by
  refine ⟨(rest.reverse.dropWhile isIdle).reverse, (rest.reverse.takeWhile isIdle).reverse, rfl, ?_, ?_, ?_⟩
  · rw [← List.reverse_append, List.takeWhile_append_dropWhile, List.reverse_reverse]
  · intro x hx
    exact List.all_eq_true.1 List.all_takeWhile x (List.mem_reverse.1 hx)
  · intro x hx
    have h := List.head?_dropWhile_not isIdle rest.reverse
    rw [List.getLast?_reverse] at hx
    rwa [hx] at h

/-- An idle part that is not empty is a point. -/
theorem eq_point_of_isIdle {x : String} {tail : List String} (h : ∀ x ∈ tail, isIdle x = true)
    (hx : x ∈ tail.filter (· != "")) : x = "." := by
  obtain ⟨hmem, hne⟩ := List.mem_filter.1 hx
  have hidle := h x hmem
  simp only [isIdle, Bool.or_eq_true, beq_iff_eq] at hidle
  exact hidle.resolve_left (by simpa using hne)

/-- The parent of a path: what stands before its last part that leads anywhere, without idle parts at the end. -/
theorem parent?_of_trimIdle {p x : String} {ps : List String} (h : trimIdle (parts p) = ps ++ [x]) (hne : ps ≠ []) :
    parent? p = some (ofParts (trimIdle ps)) := by
  obtain ⟨y, ys, rfl⟩ := List.exists_cons_of_ne_nil hne
  rw [parent?, h]
  split
  · rename_i h'
    simp at h'
  · rename_i h'
    simp at h'
  · rename_i h'
    simp at h'
  · rw [List.dropLast_concat]

/-- The parent of a path, unless it is empty, is the text of the path's first parts; a name of the path follows them. -/
theorem exists_parts_of_parent? {p q : String} (h : parent? p = some q) (hq : q ≠ "") :
    ∃ front between x tail, front ≠ [] ∧ x ≠ "" ∧ parts p = front ++ (between ++ x :: tail) ∧ q = ofParts front := by
  obtain ⟨first, rest, hparts⟩ := List.exists_cons_of_ne_nil (parts_ne_nil p)
  obtain ⟨kept, tail, htrim, rfl, -, hkept⟩ := trimIdle_cons first rest
  rcases List.eq_nil_or_concat kept with rfl | ⟨mid, x, rfl⟩
  · rw [parent?, hparts, htrim] at h
    split at h <;> simp_all
  · rw [List.concat_eq_append] at *
    have hx : x ≠ "" := by
      rintro rfl
      exact absurd (hkept "" (by simp)) (by decide)
    obtain ⟨kept', points, htrim', rfl, -, -⟩ := trimIdle_cons first mid
    refine ⟨first :: kept', points, x, tail, by simp, hx, by simp [hparts], ?_⟩
    rw [← htrim']
    have hparent : parent? p = some (ofParts (trimIdle (first :: (kept' ++ points)))) :=
      parent?_of_trimIdle (x := x) (by rw [hparts, htrim, List.cons_append]) (by simp)
    exact Option.some.inj (h.symm.trans hparent)

/-- The parent of a path starts where the path starts, and its names are the first ones of the path, without the last. -/
theorem names_parent? {p q : String} (h : parent? p = some q) (hq : q ≠ "") :
    isAbsolute q = isAbsolute p ∧ ∃ rest, rest ≠ [] ∧ names p = names q ++ rest := by
  obtain ⟨front, between, x, tail, hne, hx, hparts, rfl⟩ := exists_parts_of_parent? h hq
  have hslash : ∀ y ∈ front, '/' ∉ y.toList := fun y hy => noSlash_of_mem_parts (p := p) (by rw [hparts]; simp [hy])
  have hp : p ≠ "" := by
    rintro rfl
    rw [show parts "" = [""] by decide +kernel] at hparts
    have hlen := congrArg List.length hparts
    have hpos := List.length_pos_iff.2 hne
    simp only [List.length_append, List.length_cons, List.length_nil] at hlen
    omega
  refine ⟨?_, (between ++ x :: tail).filter (· != ""), ?_, ?_⟩
  · obtain ⟨first, rest, rfl⟩ := List.exists_cons_of_ne_nil hne
    have hfirst := hslash first List.mem_cons_self
    rw [isAbsolute_ofParts hfirst, ← ofParts_parts hp, hparts, List.cons_append, isAbsolute_ofParts hfirst]
  · intro hnil
    have hmem : x ∈ (between ++ x :: tail).filter (· != "") := List.mem_filter.2 ⟨by simp, by simpa using hx⟩
    rw [hnil] at hmem
    exact List.not_mem_nil hmem
  · rw [names_ofParts hne hslash, names, hparts, List.filter_append]

theorem intercalate_append {ps qs : List String} (hp : ps ≠ []) (hq : qs ≠ []) :
    "/".intercalate (ps ++ qs) = "/".intercalate ps ++ "/" ++ "/".intercalate qs := by
  induction ps with
  | nil => exact absurd rfl hp
  | cons x ps ih =>
    cases ps with
    | nil =>
      obtain ⟨y, qs, rfl⟩ := List.exists_cons_of_ne_nil hq
      simp
    | cons y ps =>
      rw [List.cons_append, List.cons_append, String.intercalate_cons_cons, ← List.cons_append, ih (by simp)]
      simp [String.append_assoc]

/-- The parent of a path is what the path begins with. -/
theorem exists_append_of_parent? {p q : String} (h : parent? p = some q) (hq : q ≠ "") : ∃ rest, p = q ++ rest := by
  obtain ⟨front, between, x, tail, hne, -, hparts, rfl⟩ := exists_parts_of_parent? h hq
  have hp : p = "/".intercalate front ++ "/" ++ "/".intercalate (between ++ x :: tail) := by
    rw [← intercalate_append hne (by simp), ← hparts, intercalate_parts]
  rw [ofParts.eq_def]
  split
  · exact ⟨"/".intercalate (between ++ x :: tail), by simpa using hp⟩
  · exact ⟨_, hp.trans String.append_assoc⟩

/-- The parent of a path that ends in a name. A single name has an empty parent. Otherwise the parent starts where the path starts,
and its names are those above the last one, except for points at the end. -/
theorem parent?_of_names {p name : String} {above : List String} (hn : names p = above ++ [name]) (hname : name ≠ ".") :
    (parent? p = some "" ∧ above = []) ∨
      ∃ q points, parent? p = some q ∧ q ≠ "" ∧ isAbsolute q = isAbsolute p ∧ above = names q ++ points ∧
        ∀ x ∈ points, x = "." := by
  obtain ⟨first, rest, hparts⟩ := List.exists_cons_of_ne_nil (parts_ne_nil p)
  have hslash : ∀ x ∈ first :: rest, '/' ∉ x.toList := fun x hx => noSlash_of_mem_parts (hparts ▸ hx)
  obtain ⟨kept, tail, htrim, rfl, htail, hkept⟩ := trimIdle_cons first rest
  -- the last name is not a point, so that nothing of the idle end is among the names
  have htail' : tail.filter (· != "") = [] := by
    rw [names, hparts, ← List.cons_append, List.filter_append] at hn
    rcases List.eq_nil_or_concat (tail.filter (· != "")) with h | ⟨front, x, h⟩
    · exact h
    · have hx : x = name := by
        rw [h, List.concat_eq_append, ← List.append_assoc] at hn
        exact (List.append_inj' hn rfl).2 |> List.cons.inj |>.1
      exact absurd (hx ▸ eq_point_of_isIdle htail (by rw [h]; simp)) hname
  rw [names, hparts, ← List.cons_append, List.filter_append, htail', List.append_nil] at hn
  rcases List.eq_nil_or_concat kept with rfl | ⟨mid, x, rfl⟩
  · -- a single name
    have hne : first ≠ "" := by
      rintro rfl
      simp at hn
    have habove : above = [] := by
      rw [List.filter_cons_of_pos (by simpa using hne), List.filter_nil] at hn
      exact (List.append_eq_singleton_iff.1 hn.symm).resolve_right (by simp) |>.1
    refine .inl ⟨?_, habove⟩
    rw [parent?, hparts, htrim]
    split <;> simp_all
  · rw [List.concat_eq_append] at *
    have hx : x ≠ "" := by
      rintro rfl
      exact absurd (hkept "" (by simp)) (by decide)
    have hlast : [x].filter (· != "") = [x] := by simpa using hx
    rw [← List.cons_append, List.filter_append, hlast] at hn
    have habove : (first :: mid).filter (· != "") = above := (List.append_inj' hn rfl).1
    obtain ⟨kept', points, htrim', rfl, hpoints, -⟩ := trimIdle_cons first mid
    have hslash' : ∀ y ∈ first :: kept', '/' ∉ y.toList := by
      intro y hy
      refine hslash y ?_
      rcases List.mem_cons.1 hy with rfl | hy
      · exact List.mem_cons_self
      · simp [hy]
    have hp : p ≠ "" := by
      rintro rfl
      rw [show parts "" = [""] by decide +kernel] at hparts
      simp at hparts
    refine .inr ⟨ofParts (first :: kept'), points.filter (· != ""), ?_, ofParts_ne_empty (by simp) hslash', ?_, ?_, ?_⟩
    · rw [← htrim']
      exact parent?_of_trimIdle (by rw [hparts, htrim, List.cons_append]) (by simp)
    · have hfirst := hslash first List.mem_cons_self
      rw [isAbsolute_ofParts hfirst, ← ofParts_parts hp, hparts, isAbsolute_ofParts hfirst]
    · rw [names_ofParts (by simp) hslash', ← List.filter_append, List.cons_append, habove]
    · exact fun y hy => eq_point_of_isIdle hpoints hy

end DispatchTree.Path
