import DispatchTree.Proofs.Files.Path

/-!
# Ways through a file system

A way leads from a directory to a directory: its names are entered, left or skipped one by one, and links are followed. Ways are
what the resolution of a path consists of, so that a path resolves as far as there is a way, and on from where the way ends. A way
stays when entries are added.
-/

namespace DispatchTree.Disk

/-- The names of a way lead from a directory to another one; so many links could be followed before, and so many still can. -/
inductive Way (d : Disk) : Nat → Location → List String → Location → Nat → Prop
  | stay {n : Nat} {here : Location} : Way d n here [] here n
  | skip {n k : Nat} {here there : Location} {name : String} {rest : List String} (hname : name = "" ∨ name = ".")
      (way : Way d n here rest there k) : Way d n here (name :: rest) there k
  | leave {n k : Nat} {here there : Location} {rest : List String} (way : Way d n here.dropLast rest there k) :
      Way d n here (".." :: rest) there k
  | enter {n k : Nat} {here there : Location} {name : String} {rest : List String} (hidle : ¬(name = "" ∨ name = "."))
      (hup : name ≠ "..") (hshort : name.utf8ByteSize ≤ maxName) (hentry : d.get? (here ++ [name]) = some .directory)
      (way : Way d n (here ++ [name]) rest there k) : Way d n here (name :: rest) there k
  | follow {n k : Nat} {here there : Location} {name target : String} {rest : List String} (hidle : ¬(name = "" ∨ name = "."))
      (hup : name ≠ "..") (hshort : name.utf8ByteSize ≤ maxName) (hentry : d.get? (here ++ [name]) = some (.link target))
      (way : Way d n (startOf here target) (namesOf target ++ rest) there k) : Way d (n + 1) here (name :: rest) there k

/-- Goes on from a link, if one more may be followed. -/
def jump (d : Disk) (followLast : Bool) : Nat → Location → List String → DiskResult Arrival
  | 0, _, _ => .error .tooManyLinks
  | links + 1, here, names => d.walk followLast links here names

variable {d d' : Disk} {n k : Nat} {here there : Location} {name : String} {names rest : List String} {followLast : Bool}

/-- A walk, with what happens at a link named separately. -/
theorem walk_eq_walkWith (d : Disk) (followLast : Bool) (n : Nat) :
    d.walk followLast n = d.walkWith followLast n (d.jump followLast n) := by
  cases n <;> rfl

/-- A walk without names stays where it is. -/
theorem walk_nil : d.walk followLast n here [] = .ok ⟨.existing here, n⟩ := by
  rw [walk_eq_walkWith, walkWith]

/-- One step of a walk, by its name and by what stands there. -/
theorem walk_cons : d.walk followLast n here (name :: rest) =
    if name = "" ∨ name = "." then d.walk followLast n here rest
    else if name = ".." then d.walk followLast n here.dropLast rest
    else if name.utf8ByteSize > maxName then .error .nameTooLong
    else
      match d.get? (here ++ [name]) with
      | none => if rest.isEmpty then .ok ⟨.missing here name, n⟩ else .error .notFound
      | some .directory => d.walk followLast n (here ++ [name]) rest
      | some (.file _) => if rest.isEmpty then .ok ⟨.existing (here ++ [name]), n⟩ else .error .notADirectory
      | some (.link target) =>
        if rest.isEmpty && !followLast then .ok ⟨.existing (here ++ [name]), n⟩
        else d.jump followLast n (startOf here target) (namesOf target ++ rest) := by
  simp only [walk_eq_walkWith]
  rfl

/-- A walk goes on with fewer names, or jumps with fewer links. -/
theorem walk_induction {motive : Nat → Location → List String → Prop} (nil : ∀ n here, motive n here [])
    (cons : ∀ n here name rest, (∀ next, motive n next rest) → (∀ m start ns, n = m + 1 → motive m start ns) →
      motive n here (name :: rest)) : ∀ n here names, motive n here names := by
  intro n
  induction n using Nat.strongRecOn with
  | _ n ih =>
    intro here names
    induction names generalizing here with
    | nil => exact nil n here
    | cons name rest hrest =>
      refine cons n here name rest hrest fun m start ns hm => ?_
      exact ih m (by omega) start ns

/-- A name that is neither idle nor leads upwards, and is not too long, is looked up. -/
theorem walk_name (hidle : ¬(name = "" ∨ name = ".")) (hup : name ≠ "..") (hshort : name.utf8ByteSize ≤ maxName) :
    d.walk followLast n here (name :: rest) =
      match d.get? (here ++ [name]) with
      | none => if rest.isEmpty then .ok ⟨.missing here name, n⟩ else .error .notFound
      | some .directory => d.walk followLast n (here ++ [name]) rest
      | some (.file _) => if rest.isEmpty then .ok ⟨.existing (here ++ [name]), n⟩ else .error .notADirectory
      | some (.link target) =>
        if rest.isEmpty && !followLast then .ok ⟨.existing (here ++ [name]), n⟩
        else d.jump followLast n (startOf here target) (namesOf target ++ rest) := by
  rw [walk_cons, if_neg hidle, if_neg hup, if_neg (Nat.not_lt.2 hshort)]

theorem Way.append {rest' : List String} {far : Location} {j : Nat} (way : Way d n here names there k)
    (onward : Way d k there rest' far j) : Way d n here (names ++ rest') far j := by
  induction way with
  | stay => exact onward
  | skip hname _ ih => exact .skip hname (ih onward)
  | leave _ ih => exact .leave (ih onward)
  | enter hidle hup hshort hentry _ ih => exact .enter hidle hup hshort hentry (ih onward)
  | follow hidle hup hshort hentry _ ih => exact .follow hidle hup hshort hentry (List.append_assoc .. ▸ ih onward)

/-- A walk follows the way and goes on from its end. -/
theorem Way.walk_append (way : Way d n here names there k) (hrest : rest ≠ []) :
    d.walk followLast n here (names ++ rest) = d.walk followLast k there rest := by
  induction way with
  | stay => rfl
  | skip hname _ ih => rw [List.cons_append, walk_cons, if_pos hname, ih]
  | leave _ ih => rw [List.cons_append, walk_cons, if_neg (by decide), if_pos rfl, ih]
  | enter hidle hup hshort hentry _ ih => rw [List.cons_append, walk_name hidle hup hshort, hentry, ih]
  | follow hidle hup hshort hentry _ ih =>
    have hmore : ∀ ns : List String, (ns ++ rest).isEmpty = false := fun ns => by simp [hrest]
    rw [List.cons_append, walk_name hidle hup hshort, hentry]
    simp only [hmore, Bool.false_and, Bool.false_eq_true, if_false]
    rw [← ih, List.append_assoc]
    rfl

/-- A walk that succeeds passes a directory before each of its names. -/
theorem way_of_walk_append {arrival : Arrival} (hrest : rest ≠ []) (h : d.walk followLast n here (names ++ rest) = .ok arrival) :
    ∃ mid j, Way d n here names mid j ∧ d.walk followLast j mid rest = .ok arrival := by
  generalize hns : names ++ rest = ns at h
  induction n, here, ns using walk_induction generalizing names with
  | nil n here =>
    rw [(List.append_eq_nil_iff.1 hns).2] at hrest
    exact absurd rfl hrest
  | cons n here name tail htail hjump =>
    cases names with
    | nil =>
      rw [List.nil_append] at hns
      exact ⟨here, n, .stay, hns ▸ h⟩
    | cons first names =>
      rw [List.cons_append, List.cons.injEq] at hns
      obtain ⟨rfl, hns⟩ := hns
      have hmore : tail.isEmpty = false := by
        rw [← hns]
        simp [hrest]
      -- the first name is passed, and the walk goes on with the others
      rw [walk_cons] at h
      split at h
      · obtain ⟨mid, j, way, hwalk⟩ := htail here hns h
        exact ⟨mid, j, .skip ‹_› way, hwalk⟩
      · split at h
        · obtain ⟨mid, j, way, hwalk⟩ := htail here.dropLast hns h
          rename_i hup
          exact ⟨mid, j, hup ▸ .leave way, hwalk⟩
        · split at h
          · cases h
          · rename_i hidle hup hlong
            have hshort := Nat.not_lt.1 hlong
            split at h
            · rw [hmore] at h
              cases h
            · rename_i hentry
              obtain ⟨mid, j, way, hwalk⟩ := htail (here ++ [first]) hns h
              exact ⟨mid, j, .enter hidle hup hshort hentry way, hwalk⟩
            · rw [hmore] at h
              cases h
            · rename_i target hentry
              rw [hmore] at h
              cases n with
              | zero => cases h
              | succ m =>
                obtain ⟨mid, j, way, hwalk⟩ := hjump m _ _ rfl (by rw [← hns, List.append_assoc]) h
                exact ⟨mid, j, .follow hidle hup hshort hentry way, hwalk⟩

/-- There is a way to a directory if and only if the walk to it ends there. -/
theorem walk_idle_iff : d.walk true n here (names ++ [""]) = .ok ⟨.existing there, k⟩ ↔ Way d n here names there k := by
  constructor
  · intro h
    obtain ⟨mid, j, way, hwalk⟩ := way_of_walk_append (by simp) h
    rw [walk_cons, if_pos (.inl rfl), walk_nil] at hwalk
    cases hwalk
    exact way
  · intro way
    rw [way.walk_append (List.cons_ne_nil _ _), walk_cons, if_pos (.inl rfl), walk_nil]

/-- A way is what its names lead to, also when the last one is a link. -/
theorem Way.walk_eq (way : Way d n here names there k) : d.walk true n here names = .ok ⟨.existing there, k⟩ := by
  induction way with
  | stay => exact walk_nil
  | skip hname _ ih => rw [walk_cons, if_pos hname, ih]
  | leave _ ih => rw [walk_cons, if_neg (by decide), if_pos rfl, ih]
  | enter hidle hup hshort hentry _ ih => rw [walk_name hidle hup hshort, hentry, ih]
  | follow hidle hup hshort hentry _ ih =>
    rw [walk_name hidle hup hshort, hentry]
    simp only [Bool.not_true, Bool.and_false, Bool.false_eq_true, if_false]
    exact ih

/-- The end of a way is determined by its names. -/
theorem Way.unique {there' : Location} {k' : Nat} (way : Way d n here names there k) (way' : Way d n here names there' k') :
    there = there' ∧ k = k' := by
  have h := way.walk_eq.symm.trans way'.walk_eq
  cases h
  exact ⟨rfl, rfl⟩

/-- A way passes a directory before each of its names. -/
theorem Way.split (way : Way d n here (names ++ rest) there k) :
    ∃ mid j, Way d n here names mid j ∧ Way d j mid rest there k := by
  have hwalk := walk_idle_iff.2 way
  rw [List.append_assoc] at hwalk
  obtain ⟨mid, j, hway, hwalk⟩ := way_of_walk_append (by simp) hwalk
  exact ⟨mid, j, hway, walk_idle_iff.1 hwalk⟩

/-- The end of the names does not matter to a way if it leads nowhere. -/
theorem Way.of_append_idle (way : Way d n here (names ++ [""]) there k) : Way d n here names there k := by
  obtain ⟨mid, j, hway, hlast⟩ := way.split
  have hwalk := hlast.walk_eq
  rw [walk_cons, if_pos (.inl rfl), walk_nil] at hwalk
  cases hwalk
  exact hway

/-- A walk to an entry goes along a way, unless the entry is a file. -/
theorem way_or_file_of_walk (h : d.walk true n here names = .ok ⟨.existing there, k⟩) :
    Way d n here names there k ∨ ∃ content, d.get? there = some (.file content) := by
  induction n, here, names using walk_induction with
  | nil n here =>
    rw [walk_nil] at h
    cases h
    exact .inl .stay
  | cons n here name rest hrest hjump =>
    rw [walk_cons] at h
    split at h
    · exact (hrest here h).imp_left (.skip ‹_›)
    · split at h
      · rename_i hup
        exact (hrest here.dropLast h).imp_left fun way => hup ▸ .leave way
      · split at h
        · cases h
        · rename_i hidle hup hlong
          have hshort := Nat.not_lt.1 hlong
          split at h
          · split at h <;> cases h
          · rename_i hentry
            exact (hrest (here ++ [name]) h).imp_left (.enter hidle hup hshort hentry)
          · rename_i content hentry
            split at h
            · cases h
              exact .inr ⟨content, hentry⟩
            · cases h
          · rename_i target hentry
            simp only [Bool.not_true, Bool.and_false, Bool.false_eq_true, if_false] at h
            cases n with
            | zero => cases h
            | succ m => exact (hjump m _ _ rfl h).imp_left (.follow hidle hup hshort hentry)

/-- Resolving a path never says that something is there already. -/
theorem walk_ne_alreadyExists : d.walk followLast n here names ≠ .error .alreadyExists := by
  induction n, here, names using walk_induction with
  | nil n here =>
    rw [walk_nil]
    nofun
  | cons n here name rest hrest hjump =>
    rw [walk_cons]
    split
    · exact hrest here
    · split
      · exact hrest here.dropLast
      · split
        · nofun
        · split
          · split <;> nofun
          · exact hrest (here ++ [name])
          · split <;> nofun
          · split
            · nofun
            · cases n with
              | zero => nofun
              | succ m => exact hjump m _ _ rfl

end DispatchTree.Disk
