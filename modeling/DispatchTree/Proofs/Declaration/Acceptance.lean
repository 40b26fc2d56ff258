import Mathlib.Data.List.Nodup
import Mathlib.Data.Nat.Find
import DispatchTree.Proofs.Declaration.Order

/-!
# Which descriptions are accepted, and what is reported of the others

What makes a description well formed is said of its texts alone, and so is which fault comes first. A pair, a rule and a description
are each well formed or have a first fault, and that fault is the one reported. The rules before the first one at fault are added as
a whole (`addRules_append`), so that this rule meets a machine with exactly the rules before it (`toMachine_eq_addRules`); as a
description that is not well formed has a first fault (`exists_reports`), nothing else is ever reported.
-/

namespace DispatchTree

/-! ## Pairs -/

/-- A text of two characters of an alphabet. -/
structure IsPairOf (letters : List Char) (text : String) : Prop where
  two : text.toList.length = 2
  letters : ∀ c ∈ text.toList, c ∈ letters

/-- What is wrong with a text that is not a pair: its length, or else the first character that is not in the alphabet. -/
inductive PairFault.Of (letters : List Char) (text : String) : PairFault → Prop
  | notTwo (h : text.toList.length ≠ 2) : Of letters text (.notTwo text)
  | first {a b : Char} (htext : text.toList = [a, b]) (h : a ∉ letters) : Of letters text (.unexpected a)
  | second {a b : Char} (htext : text.toList = [a, b]) (hfirst : a ∈ letters) (h : b ∉ letters) : Of letters text (.unexpected b)

/-- The members of a type are written with one letter each. -/
structure Lettering {α : Type} (ofChar? : Char → Option α) (toChar : α → Char) (letters : List Char) : Prop where
  read : ∀ c x, ofChar? c = some x ↔ c = toChar x
  known : ∀ c, c ∈ letters ↔ ∃ x, c = toChar x

/-- Symbols are written `0`, `1` and `#`. -/
theorem Symbol.lettering : Lettering Symbol.ofChar? Symbol.toChar ['0', '1', '#'] where
  read c x := by cases x <;> grind [Symbol.ofChar?, Symbol.toChar]
  known c := by
    simp only [List.mem_cons, List.not_mem_nil, or_false]
    constructor
    · rintro (h | h | h)
      · exact ⟨.zero, h⟩
      · exact ⟨.one, h⟩
      · exact ⟨.blank, h⟩
    · rintro ⟨x, rfl⟩
      cases x <;> decide

/-- Moves are written `L`, `R` and `N`. -/
theorem Move.lettering : Lettering Move.ofChar? Move.toChar ['L', 'R', 'N'] where
  read c x := by cases x <;> grind [Move.ofChar?, Move.toChar]
  known c := by
    simp only [List.mem_cons, List.not_mem_nil, or_false]
    constructor
    · rintro (h | h | h)
      · exact ⟨.left, h⟩
      · exact ⟨.right, h⟩
      · exact ⟨.stay, h⟩
    · rintro ⟨x, rfl⟩
      cases x <;> decide

namespace Lettering

variable {α : Type} {ofChar? : Char → Option α} {toChar : α → Char} {letters : List Char} {text : String}

/-- A character that is no letter is not read. -/
theorem eq_none (h : Lettering ofChar? toChar letters) {c : Char} (hc : c ∉ letters) : ofChar? c = none :=
  Option.eq_none_iff_forall_ne_some.2 fun x hx => hc ((h.known c).2 ⟨x, (h.read c x).1 hx⟩)

/-- Different members have different letters. -/
theorem injective (h : Lettering ofChar? toChar letters) {x y : α} (hxy : toChar x = toChar y) : x = y := by
  have hx := (h.read (toChar x) x).2 rfl
  rw [(h.read (toChar x) y).2 hxy] at hx
  exact (Option.some.inj hx).symm

/-- What is read from a pair is what it is written with. -/
theorem readPair_eq_ok_iff (h : Lettering ofChar? toChar letters) {x y : α} :
    readPair ofChar? text = .ok (x, y) ↔ text.toList = [toChar x, toChar y] := by
  constructor
  · intro hread
    unfold readPair at hread
    split at hread
    · rename_i a b htext
      split at hread
      · rename_i x' y' ha hb
        cases hread
        rw [htext, (h.read a x).1 ha, (h.read b y).1 hb]
      · cases hread
      · cases hread
    · cases hread
  · intro htext
    rw [readPair, htext]
    simp only [(h.read _ x).2 rfl, (h.read _ y).2 rfl]

/-- The fault that a text has is the one that is reported. -/
theorem readPair_of_fault (h : Lettering ofChar? toChar letters) {f : PairFault} (hf : PairFault.Of letters text f) :
    readPair ofChar? text = .error f := by
  cases hf with
  | notTwo hlength =>
    unfold readPair
    split
    · rename_i a b htext
      exact absurd (by rw [htext]; rfl) hlength
    · rfl
  | first htext ha => simp only [readPair, htext, h.eq_none ha]
  | second htext ha hb =>
    obtain ⟨x, hx⟩ := (h.known _).1 ha
    simp only [readPair, htext, (h.read _ x).2 hx, h.eq_none hb]

/-- A text of two letters is the writing of two members. -/
theorem isPairOf_iff (h : Lettering ofChar? toChar letters) : IsPairOf letters text ↔ ∃ x y, text.toList = [toChar x, toChar y] := by
  constructor
  · rintro ⟨htwo, hletters⟩
    obtain ⟨a, b, htext⟩ := List.length_eq_two.1 htwo
    obtain ⟨x, hx⟩ := (h.known a).1 (hletters a (by simp [htext]))
    obtain ⟨y, hy⟩ := (h.known b).1 (hletters b (by simp [htext]))
    exact ⟨x, y, by rw [htext, hx, hy]⟩
  · rintro ⟨x, y, htext⟩
    have hknown : ∀ x, toChar x ∈ letters := fun x => (h.known _).2 ⟨x, rfl⟩
    refine ⟨by rw [htext]; rfl, fun c hc => ?_⟩
    rw [htext] at hc
    simp only [List.mem_cons, List.not_mem_nil, or_false] at hc
    rcases hc with rfl | rfl
    · exact hknown x
    · exact hknown y

end Lettering

/-- A text is a pair, or something is wrong with it. -/
theorem isPairOf_or_fault (letters : List Char) (text : String) : IsPairOf letters text ∨ ∃ f, PairFault.Of letters text f := by
  by_cases htwo : text.toList.length = 2
  · obtain ⟨a, b, htext⟩ := List.length_eq_two.1 htwo
    by_cases ha : a ∈ letters
    · by_cases hb : b ∈ letters
      · refine .inl ⟨htwo, fun c hc => ?_⟩
        rw [htext] at hc
        simp only [List.mem_cons, List.not_mem_nil, or_false] at hc
        rcases hc with rfl | rfl
        · exact ha
        · exact hb
      · exact .inr ⟨_, .second htext ha hb⟩
    · exact .inr ⟨_, .first htext ha⟩
  · exact .inr ⟨_, .notTwo htwo⟩

/-! ## Rules -/

namespace RuleEntry

/-- What makes a rule well formed. -/
structure WellFormed (e : RuleEntry) : Prop where
  read : IsPairOf ['0', '1', '#'] e.read
  write : IsPairOf ['0', '1', '#'] e.write
  moves : IsPairOf ['L', 'R', 'N'] e.moves
  next : e.next ≠ ""

/-- The first field of a rule that is not as it should be, and what is wrong with it. -/
inductive FirstBad (e : RuleEntry) : RuleFault → Prop
  | read {f : PairFault} (h : f.Of ['0', '1', '#'] e.read) : FirstBad e (.read f)
  | write {f : PairFault} (hread : IsPairOf ['0', '1', '#'] e.read) (h : f.Of ['0', '1', '#'] e.write) : FirstBad e (.write f)
  | moves {f : PairFault} (hread : IsPairOf ['0', '1', '#'] e.read) (hwrite : IsPairOf ['0', '1', '#'] e.write)
      (h : f.Of ['L', 'R', 'N'] e.moves) : FirstBad e (.moves f)
  | next (hread : IsPairOf ['0', '1', '#'] e.read) (hwrite : IsPairOf ['0', '1', '#'] e.write)
      (hmoves : IsPairOf ['L', 'R', 'N'] e.moves) (h : e.next = "") : FirstBad e .emptyNext

/-- A rule is written with the letters of a pair and an action. -/
structure Writes (e : RuleEntry) (p : SymbolPair) (a : Action) : Prop where
  read : e.read.toList = [p.first.toChar, p.second.toChar]
  next : e.next = a.next
  write : e.write.toList = [a.first.write.toChar, a.second.write.toChar]
  moves : e.moves.toList = [a.first.shift.toChar, a.second.shift.toChar]

/-- Two rules are for the same state and pair. -/
def Shares (e e' : RuleEntry) : Prop := e.state = e'.state ∧ e.read = e'.read

variable {e e' : RuleEntry} {p p' : SymbolPair} {a a' : Action}

/-- A rule is well formed if it names a next state and writes a pair and an action. -/
theorem wellFormed_iff : e.WellFormed ↔ e.next ≠ "" ∧ ∃ p a, e.Writes p a := by
  constructor
  · intro h
    obtain ⟨r, r', hread⟩ := Symbol.lettering.isPairOf_iff.1 h.read
    obtain ⟨w, w', hwrite⟩ := Symbol.lettering.isPairOf_iff.1 h.write
    obtain ⟨s, s', hmoves⟩ := Move.lettering.isPairOf_iff.1 h.moves
    exact ⟨h.next, ⟨r, r'⟩, ⟨e.next, ⟨w, s⟩, ⟨w', s'⟩⟩, hread, rfl, hwrite, hmoves⟩
  · rintro ⟨hnext, p, a, h⟩
    exact ⟨Symbol.lettering.isPairOf_iff.2 ⟨_, _, h.read⟩, Symbol.lettering.isPairOf_iff.2 ⟨_, _, h.write⟩,
      Move.lettering.isPairOf_iff.2 ⟨_, _, h.moves⟩, hnext⟩

/-- A rule that writes a pair and an action is read as them. -/
theorem toRule_of_writes (h : e.Writes p a) (hnext : e.next ≠ "") : e.toRule = .ok (p, a) := by
  have hempty : e.next.isEmpty = false := by simpa using hnext
  simp only [toRule, Symbol.lettering.readPair_eq_ok_iff.2 h.read, Symbol.lettering.readPair_eq_ok_iff.2 h.write,
    Move.lettering.readPair_eq_ok_iff.2 h.moves, Except.mapError, bind, Except.bind, hempty, Bool.false_eq_true, if_false]
  rw [h.next]

/-- The first bad field of a rule is the one that is reported. -/
theorem toRule_of_firstBad {f : RuleFault} (h : e.FirstBad f) : e.toRule = .error f := by
  cases h with
  | read hf => simp only [toRule, Symbol.lettering.readPair_of_fault hf, Except.mapError, bind, Except.bind]
  | write hread hf =>
    obtain ⟨r, r', hread⟩ := Symbol.lettering.isPairOf_iff.1 hread
    simp only [toRule, Symbol.lettering.readPair_eq_ok_iff.2 hread, Symbol.lettering.readPair_of_fault hf, Except.mapError, bind,
      Except.bind]
  | moves hread hwrite hf =>
    obtain ⟨r, r', hread⟩ := Symbol.lettering.isPairOf_iff.1 hread
    obtain ⟨w, w', hwrite⟩ := Symbol.lettering.isPairOf_iff.1 hwrite
    simp only [toRule, Symbol.lettering.readPair_eq_ok_iff.2 hread, Symbol.lettering.readPair_eq_ok_iff.2 hwrite,
      Move.lettering.readPair_of_fault hf, Except.mapError, bind, Except.bind]
  | next hread hwrite hmoves hnext =>
    obtain ⟨r, r', hread⟩ := Symbol.lettering.isPairOf_iff.1 hread
    obtain ⟨w, w', hwrite⟩ := Symbol.lettering.isPairOf_iff.1 hwrite
    obtain ⟨s, s', hmoves⟩ := Move.lettering.isPairOf_iff.1 hmoves
    have hempty : e.next.isEmpty = true := by simpa using hnext
    simp only [toRule, Symbol.lettering.readPair_eq_ok_iff.2 hread, Symbol.lettering.readPair_eq_ok_iff.2 hwrite,
      Move.lettering.readPair_eq_ok_iff.2 hmoves, Except.mapError, bind, Except.bind, hempty, if_true]

/-- A rule is well formed, or has a first bad field. -/
theorem wellFormed_or_firstBad (e : RuleEntry) : e.WellFormed ∨ ∃ f, e.FirstBad f := by
  rcases isPairOf_or_fault ['0', '1', '#'] e.read with hread | ⟨f, hf⟩
  · rcases isPairOf_or_fault ['0', '1', '#'] e.write with hwrite | ⟨f, hf⟩
    · rcases isPairOf_or_fault ['L', 'R', 'N'] e.moves with hmoves | ⟨f, hf⟩
      · by_cases hnext : e.next = ""
        · exact .inr ⟨_, .next hread hwrite hmoves hnext⟩
        · exact .inl ⟨hread, hwrite, hmoves, hnext⟩
      · exact .inr ⟨_, .moves hread hwrite hf⟩
    · exact .inr ⟨_, .write hread hf⟩
  · exact .inr ⟨_, .read hf⟩

/-- What is read of a rule is its state and what it writes. -/
theorem rule?_eq_some_iff {r : String × SymbolPair × Action} :
    e.rule? = some r ↔ r.1 = e.state ∧ e.next ≠ "" ∧ e.Writes r.2.1 r.2.2 := by
  obtain ⟨s, p, a⟩ := r
  constructor
  · intro h
    rcases e.wellFormed_or_firstBad with hwell | ⟨f, hf⟩
    · obtain ⟨hnext, p', a', hwrites⟩ := wellFormed_iff.1 hwell
      rw [rule?, toRule_of_writes hwrites hnext] at h
      cases h
      exact ⟨rfl, hnext, hwrites⟩
    · rw [rule?, toRule_of_firstBad hf] at h
      cases h
  · rintro ⟨rfl, hnext, h⟩
    rw [rule?, toRule_of_writes h hnext]
    rfl

/-- A rule can be read exactly if it is well formed. -/
theorem isSome_rule?_iff : e.rule?.isSome ↔ e.WellFormed := by
  rw [Option.isSome_iff_exists, wellFormed_iff]
  constructor
  · rintro ⟨r, hr⟩
    obtain ⟨-, hnext, h⟩ := rule?_eq_some_iff.1 hr
    exact ⟨hnext, _, _, h⟩
  · rintro ⟨hnext, p, a, h⟩
    exact ⟨(e.state, p, a), rule?_eq_some_iff.2 ⟨rfl, hnext, h⟩⟩

/-- Rules are for the same pair exactly if the pair is written alike. -/
theorem Writes.eq_iff (h : e.Writes p a) (h' : e'.Writes p' a') : p = p' ↔ e.read = e'.read := by
  rw [← String.toList_inj, h.read, h'.read]
  constructor
  · rintro rfl
    rfl
  · intro hread
    simp only [List.cons.injEq, and_true] at hread
    cases p
    cases p'
    rw [SymbolPair.mk.injEq]
    exact ⟨Symbol.lettering.injective hread.1, Symbol.lettering.injective hread.2⟩

end RuleEntry

/-! ## Lists of rules -/

namespace Description

/-- The rule at an index is malformed, or is for the state and pair of an earlier rule. -/
def FaultyAt (rules : List RuleEntry) (i : Nat) : Prop :=
  ∃ e, rules[i]? = some e ∧ (¬ e.WellFormed ∨ ∃ j < i, ∃ e', rules[j]? = some e' ∧ e'.Shares e)

/-- The smallest index of a rule at fault. -/
structure FirstFaulty (rules : List RuleEntry) (i : Nat) : Prop where
  faulty : FaultyAt rules i
  least : ∀ j < i, ¬ FaultyAt rules j

/-- Every rule is well formed, and no two are for the same state and pair. -/
structure Clean (rules : List RuleEntry) : Prop where
  wellFormed : ∀ e ∈ rules, e.WellFormed
  distinct : rules.Pairwise fun e e' => ¬ e.Shares e'

/-- Rules are clean if none of them is faulty at its place. -/
theorem clean_iff {rules : List RuleEntry} : Clean rules ↔ ∀ i, ¬ FaultyAt rules i := by
  constructor
  · rintro ⟨hwell, hdistinct⟩ i ⟨e, he, hmalformed | ⟨j, hj, e', he', hshares⟩⟩
    · exact hmalformed (hwell e (List.mem_of_getElem? he))
    · obtain ⟨hi, rfl⟩ := List.getElem?_eq_some_iff.1 he
      obtain ⟨hj', rfl⟩ := List.getElem?_eq_some_iff.1 he'
      exact List.pairwise_iff_getElem.1 hdistinct j i hj' hi hj hshares
  · intro h
    refine ⟨fun e he => ?_, List.pairwise_iff_getElem.2 fun j i hj hi hlt hshares => ?_⟩
    · obtain ⟨i, hi⟩ := List.mem_iff_getElem?.1 he
      by_contra hmalformed
      exact h i ⟨e, hi, .inl hmalformed⟩
    · exact h i ⟨_, List.getElem?_eq_getElem hi, .inr ⟨j, hlt, _, List.getElem?_eq_getElem hj, hshares⟩⟩

theorem getElem?_take_eq_some_iff {rules : List RuleEntry} {n i : Nat} {e : RuleEntry} :
    (rules.take n)[i]? = some e ↔ i < n ∧ rules[i]? = some e := by
  rw [List.getElem?_take]
  split
  · simp [*]
  · simp [*]

/-- The rules before the first one at fault are clean. -/
theorem FirstFaulty.clean_take {rules : List RuleEntry} {i : Nat} (h : FirstFaulty rules i) : Clean (rules.take i) := by
  refine clean_iff.2 fun j => ?_
  rintro ⟨e, he, hfault⟩
  rw [getElem?_take_eq_some_iff] at he
  refine h.least j he.1 ⟨e, he.2, hfault.imp_right ?_⟩
  rintro ⟨k, hk, e', he', hshares⟩
  exact ⟨k, hk, e', (getElem?_take_eq_some_iff.1 he').2, hshares⟩

/-- If the first rule at fault is well formed, it repeats one before it. -/
theorem FirstFaulty.exists_shares {rules : List RuleEntry} {i : Nat} {e : RuleEntry} (h : FirstFaulty rules i) (he : rules[i]? = some e)
    (hwell : e.WellFormed) : ∃ e' ∈ rules.take i, e'.Shares e := by
  obtain ⟨e₀, he₀, hfault⟩ := h.faulty
  rw [he] at he₀
  cases he₀
  obtain ⟨j, hj, e', he', hshares⟩ := hfault.resolve_left (not_not.2 hwell)
  exact ⟨e', List.mem_of_getElem? (getElem?_take_eq_some_iff.2 ⟨hj, he'⟩), hshares⟩

/-- No two of a list of clean rules are for the same state and the same pair. -/
theorem Clean.nodup {rules : List RuleEntry} (h : Clean rules) :
    ((rules.filterMap RuleEntry.rule?).map fun r => (r.1, r.2.1)).Nodup := by
  rw [List.nodup_iff_pairwise_ne, List.pairwise_map, List.pairwise_filterMap]
  refine h.distinct.imp fun {e e'} hne r hr r' hr' heq => hne ?_
  obtain ⟨hstate, -, hwrites⟩ := RuleEntry.rule?_eq_some_iff.1 hr
  obtain ⟨hstate', -, hwrites'⟩ := RuleEntry.rule?_eq_some_iff.1 hr'
  rw [Prod.mk.injEq] at heq
  exact ⟨by rw [← hstate, ← hstate', heq.1], (hwrites.eq_iff hwrites').1 heq.2⟩

/-- Rules are clean if each can be read and no two are for the same state and the same pair. -/
theorem clean_iff_rule? {rules : List RuleEntry} :
    Clean rules ↔ (∀ e ∈ rules, e.rule?.isSome) ∧ ((rules.filterMap RuleEntry.rule?).map fun r => (r.1, r.2.1)).Nodup := by
  constructor
  · exact fun h => ⟨fun e he => RuleEntry.isSome_rule?_iff.2 (h.wellFormed e he), h.nodup⟩
  · rintro ⟨hsome, hnodup⟩
    refine ⟨fun e he => RuleEntry.isSome_rule?_iff.1 (hsome e he), ?_⟩
    rw [List.nodup_iff_pairwise_ne, List.pairwise_map, List.pairwise_filterMap] at hnodup
    refine hnodup.imp_of_mem fun {e e'} he he' hne hshares => ?_
    obtain ⟨r, hr⟩ := Option.isSome_iff_exists.1 (hsome e he)
    obtain ⟨r', hr'⟩ := Option.isSome_iff_exists.1 (hsome e' he')
    obtain ⟨hstate, -, hwrites⟩ := RuleEntry.rule?_eq_some_iff.1 hr
    obtain ⟨hstate', -, hwrites'⟩ := RuleEntry.rule?_eq_some_iff.1 hr'
    refine hne r hr r' hr' (Prod.ext ?_ ((hwrites.eq_iff hwrites').2 hshares.2))
    exact (hstate.trans hshares.1).trans hstate'.symm

/-- Rules that can be added are added before the others. -/
theorem addRules_append {es : List RuleEntry} (rest : List RuleEntry) : ∀ {index : Nat} {m m' : Machine},
    addRules index es m = .ok m' → addRules index (es ++ rest) m = addRules (index + es.length) rest m' := by
  induction es with
  | nil =>
    intro index m m' h
    cases h
    rfl
  | cons e es ih =>
    intro index m m' h
    cases hrule : e.rule? with
    | none =>
      obtain ⟨fault, hfault⟩ := addRules_cons_of_error hrule es index m
      rw [hfault] at h
      cases h
    | some r =>
      rw [addRules_cons_of_ok hrule] at h
      rw [List.cons_append, addRules_cons_of_ok hrule]
      split at h
      · cases h
      · rename_i hfree
        rw [if_neg hfree, ih h, List.length_cons, Nat.add_assoc, Nat.add_comm 1]

end Description

/-! ## Descriptions -/

namespace Machine

/-- The states and pairs that a machine has rules for. -/
def ruled (m : Machine) : List (String × SymbolPair) := m.transitions.toList.flatMap fun e => e.2.toList.map fun q => (e.1, q.1)

/-- A machine has as many rules as pairs of a state and what is read. -/
theorem length_ruled (m : Machine) : m.ruled.length = m.ruleCount := by
  simp only [ruled, ruleCount, List.length_flatMap, List.length_map]

/-- A machine has a rule for a state and a pair if it has an action for them. -/
theorem mem_ruled {m : Machine} {s : String} {p : SymbolPair} : (s, p) ∈ m.ruled ↔ ∃ a, m.action? s p = some a := by
  simp only [ruled, List.mem_flatMap, List.mem_map, Prod.exists, Prod.mk.injEq, Std.ExtTreeMap.mem_toList_iff_getElem?_eq_some,
    action?, row]
  constructor
  · rintro ⟨_, row, hrow, _, a, ha, rfl, rfl⟩
    exact ⟨a, by rw [hrow]; exact ha⟩
  · rintro ⟨a, ha⟩
    cases hrow : m.transitions[s]? with
    | none => simp [hrow] at ha
    | some row => exact ⟨s, row, hrow, p, a, by simpa [hrow] using ha, rfl, rfl⟩

/-- No rule of a machine is counted twice. -/
theorem nodup_ruled (m : Machine) : m.ruled.Nodup := by
  refine List.nodup_flatMap.2 ⟨fun e _ => ?_, ?_⟩
  · refine List.pairwise_map.2 ((Std.ExtTreeMap.distinct_keys_toList (t := e.2)).imp fun h he => h ?_)
    exact Std.LawfulEqOrd.compare_eq_iff_eq.2 (Prod.mk.inj he).2
  · refine (Std.ExtTreeMap.distinct_keys_toList (t := m.transitions)).imp fun {e e'} h x hx hx' => h ?_
    obtain ⟨q, -, rfl⟩ := List.mem_map.1 hx
    obtain ⟨q', -, he⟩ := List.mem_map.1 hx'
    exact Std.LawfulEqOrd.compare_eq_iff_eq.2 (Prod.mk.inj he).1.symm

/-- If the states and pairs with a rule are those of a list, each once, the machine has as many rules as the list has members. -/
theorem ruleCount_eq {m : Machine} {keys : List (String × SymbolPair)} (hnodup : keys.Nodup)
    (hmem : ∀ s p, (s, p) ∈ keys ↔ ∃ a, m.action? s p = some a) : m.ruleCount = keys.length := by
  rw [← length_ruled]
  exact ((List.perm_ext_iff_of_nodup m.nodup_ruled hnodup).2 fun x => mem_ruled.trans (hmem x.1 x.2).symm).length_eq

end Machine

namespace Description

/-- What makes a description well formed: its initial state has a name, and its rules are clean. -/
structure WellFormed (d : Description) : Prop where
  initial : ∃ c ∈ d.initial.toList, Text.isBlank c = false
  rules : Clean d.rules

/-- A machine is the one that a description describes: it has exactly one transition for each rule, and no row without one. -/
structure Describes (d : Description) (m : Machine) : Prop where
  initial : m.initial = d.initial
  prompt : m.prompt = d.prompt
  halts : m.halts = d.halts
  transitions : ∀ s p a, m.action? s p = some a ↔ ∃ e ∈ d.rules, e.state = s ∧ e.Writes p a
  filled : m.Filled
  count : m.ruleCount = d.rules.length

/-- The fault of a description that comes first: a name without letters, or the rule with the smallest index that is malformed or is
for the state and pair of an earlier one. A rule that is both is malformed. -/
inductive Reports (d : Description) : DescriptionFault → Prop
  | initial (h : ∀ c ∈ d.initial.toList, Text.isBlank c = true) : Reports d .missingInitialState
  | malformed {i : Nat} {e : RuleEntry} {f : RuleFault} (hname : ∃ c ∈ d.initial.toList, Text.isBlank c = false)
      (hfirst : FirstFaulty d.rules i) (he : d.rules[i]? = some e) (hf : e.FirstBad f) : Reports d (.invalidRule i e.state f)
  | repeated {i : Nat} {e : RuleEntry} {p : SymbolPair} (hname : ∃ c ∈ d.initial.toList, Text.isBlank c = false)
      (hfirst : FirstFaulty d.rules i) (he : d.rules[i]? = some e) (hwell : e.WellFormed)
      (hp : e.read.toList = [p.first.toChar, p.second.toChar]) : Reports d (.duplicateRule e.state p)

variable {d : Description}

/-- A text is not blank if one of its characters is not. -/
theorem allBlank_eq_false_iff {s : String} : Text.allBlank s = false ↔ ∃ c ∈ s.toList, Text.isBlank c = false := by
  simp [Text.allBlank, List.all_eq_false]

/-- What reading accepts is what is well formed. -/
theorem acceptable_iff : d.Acceptable ↔ d.WellFormed := by
  constructor
  · exact fun h => ⟨allBlank_eq_false_iff.1 h.initial, clean_iff_rule?.2 ⟨h.rules, h.distinct⟩⟩
  · intro h
    obtain ⟨hrules, hdistinct⟩ := clean_iff_rule?.1 h.rules
    exact ⟨allBlank_eq_false_iff.2 h.initial, hrules, hdistinct⟩

/-- The transitions of the machine are the rules that can be read. -/
theorem WellFormed.action?_machine (h : d.WellFormed) {s : String} {p : SymbolPair} {a : Action} :
    d.machine.action? s p = some a ↔ (s, p, a) ∈ d.readable := by
  have hnodup := h.rules.nodup
  constructor
  · intro ha
    by_cases hkey : (s, p) ∈ d.readable.map fun r => (r.1, r.2.1)
    · obtain ⟨⟨s, p, b⟩, hr, hsp⟩ := List.mem_map.1 hkey
      cases hsp
      have hb : d.machine.action? s p = some b := Machine.action?_addRules _ _ hnodup hr
      rw [hb] at ha
      cases ha
      exact hr
    · have hnone : d.machine.action? s p = none := by
        rw [machine, Machine.action?_addRules_of_notMem _ _ hkey]
        simp [Machine.action?, Machine.row, Machine.new]
      rw [hnone] at ha
      cases ha
  · exact fun hr => Machine.action?_addRules _ _ hnodup hr

/-- All rules of a well-formed description can be read. -/
theorem WellFormed.length_readable (h : d.WellFormed) : d.readable.length = d.rules.length := by
  rw [readable, List.length_filterMap_eq_countP]
  exact List.countP_eq_length.2 fun e he => RuleEntry.isSome_rule?_iff.2 (h.rules.wellFormed e he)

/-- The machine of a well-formed description has one rule for each of its rules. -/
theorem WellFormed.ruleCount_machine (h : d.WellFormed) : d.machine.ruleCount = d.rules.length := by
  rw [← h.length_readable, Machine.ruleCount_eq h.rules.nodup, List.length_map]
  · rfl
  · intro s p
    rw [List.mem_map]
    constructor
    · rintro ⟨⟨_, _, a⟩, hr, he⟩
      cases he
      exact ⟨a, h.action?_machine.2 hr⟩
    · rintro ⟨a, ha⟩
      exact ⟨(s, p, a), h.action?_machine.1 ha, rfl⟩

/-- The machine of a well-formed description has its rules. -/
theorem WellFormed.describes (h : d.WellFormed) : d.Describes d.machine where
  initial := Machine.initial_addRules _ _
  prompt := Machine.prompt_addRules _ _
  halts := Machine.halts_addRules _ _
  transitions s p a := by
    rw [h.action?_machine, readable, List.mem_filterMap]
    constructor
    · rintro ⟨e, he, hr⟩
      obtain ⟨hstate, -, hwrites⟩ := RuleEntry.rule?_eq_some_iff.1 hr
      exact ⟨e, he, hstate.symm, hwrites⟩
    · rintro ⟨e, he, rfl, hwrites⟩
      exact ⟨e, he, RuleEntry.rule?_eq_some_iff.2 ⟨rfl, (h.rules.wellFormed e he).next, hwrites⟩⟩
  filled := by
    have hnew : Machine.Filled { Machine.new d.initial with prompt := d.prompt, halts := d.halts } := Machine.filled_new d.initial
    exact hnew.addRules
  count := h.ruleCount_machine

/-- The rule at the first fault meets a machine with the rules before it. -/
theorem toMachine_eq_addRules {i : Nat} {e : RuleEntry} (hname : ∃ c ∈ d.initial.toList, Text.isBlank c = false)
    (hfirst : FirstFaulty d.rules i) (he : d.rules[i]? = some e) :
    d.toMachine = addRules i (e :: d.rules.drop (i + 1)) (machine { d with rules := d.rules.take i }) := by
  have hbefore : Description.WellFormed { d with rules := d.rules.take i } := ⟨hname, hfirst.clean_take⟩
  obtain ⟨hi, rfl⟩ := List.getElem?_eq_some_iff.1 he
  have hok := (toMachine_eq_ok_iff _ _).2 ⟨acceptable_iff.2 hbefore, rfl⟩
  rw [toMachine, if_neg (by rw [allBlank_eq_false_iff.2 hname]; decide)] at hok ⊢
  have hadd := addRules_append (d.rules.drop i) hok
  rw [List.take_append_drop, List.length_take, Nat.min_eq_left (Nat.le_of_lt hi), Nat.zero_add] at hadd
  rw [hadd, List.drop_eq_getElem_cons hi]

/-- What is wrong first with a description is what is reported. -/
theorem toMachine_of_reports {f : DescriptionFault} (h : d.Reports f) : d.toMachine = .error f := by
  cases h with
  | initial hblank =>
    have hall : Text.allBlank d.initial = true := List.all_eq_true.2 hblank
    rw [toMachine, if_pos hall]
  | malformed hname hfirst he hf =>
    rw [toMachine_eq_addRules hname hfirst he]
    simp only [addRules, RuleEntry.toRule_of_firstBad hf, Except.mapError, bind, Except.bind]
  | @repeated i e p hname hfirst he hwell hp =>
    obtain ⟨hnext, p', a, hwrites⟩ := RuleEntry.wellFormed_iff.1 hwell
    have hpair : p' = p := (hwrites.eq_iff ⟨hp, hwrites.next, hwrites.write, hwrites.moves⟩).2 rfl
    subst hpair
    -- the earlier rule is in force when the later one is added
    obtain ⟨e', hmem, hshares⟩ := hfirst.exists_shares he hwell
    have hbefore : Description.WellFormed { d with rules := d.rules.take i } := ⟨hname, hfirst.clean_take⟩
    obtain ⟨-, q, b, hwrites'⟩ := RuleEntry.wellFormed_iff.1 (hbefore.rules.wellFormed e' hmem)
    have hq : q = p' := (hwrites'.eq_iff hwrites).2 hshares.2
    subst hq
    have haction := (hbefore.describes.transitions e.state q b).2 ⟨e', hmem, hshares.1, hwrites'⟩
    have hrule : e.rule? = some (e.state, q, a) := RuleEntry.rule?_eq_some_iff.2 ⟨rfl, hnext, hwrites⟩
    rw [toMachine_eq_addRules hname hfirst he, addRules_cons_of_ok hrule, haction]
    rfl

/-- Rules that are not clean have a first faulty one. -/
theorem exists_firstFaulty {rules : List RuleEntry} (h : ¬ Clean rules) : ∃ i, FirstFaulty rules i := by
  classical
  rw [clean_iff, not_forall] at h
  have hsome : ∃ i, FaultyAt rules i := h.imp fun _ => not_not.1
  exact ⟨Nat.find hsome, Nat.find_spec hsome, fun j hj => Nat.find_min hsome hj⟩

/-- A description that is not well formed has a first fault. -/
theorem exists_reports (h : ¬ d.WellFormed) : ∃ f, d.Reports f := by
  by_cases hname : ∃ c ∈ d.initial.toList, Text.isBlank c = false
  · obtain ⟨i, hfirst⟩ := exists_firstFaulty fun hclean => h ⟨hname, hclean⟩
    obtain ⟨e, he, -⟩ := hfirst.faulty
    rcases e.wellFormed_or_firstBad with hwell | ⟨f, hf⟩
    · obtain ⟨-, p, a, hwrites⟩ := RuleEntry.wellFormed_iff.1 hwell
      exact ⟨_, .repeated hname hfirst he hwell hwrites.read⟩
    · exact ⟨_, .malformed hname hfirst he hf⟩
  · refine ⟨_, .initial fun c hc => ?_⟩
    by_contra hblank
    exact hname ⟨c, hc, Bool.eq_false_iff.2 hblank⟩

end Description

/-- A description is accepted exactly when it is well formed, and gives then the machine that it describes; of any other description
the fault that comes first is reported. -/
theorem description_accepted_iff (d : Description) :
    ((∃ m, d.toMachine = .ok m) ↔ d.WellFormed) ∧ (∀ m, d.toMachine = .ok m → d.Describes m) ∧
      ∀ f, d.toMachine = .error f ↔ d.Reports f := by
  have hok : ∀ m, d.toMachine = .ok m ↔ d.WellFormed ∧ m = d.machine := fun m => by
    rw [Description.toMachine_eq_ok_iff, Description.acceptable_iff]
  refine ⟨?_, fun m hm => ?_, fun f => ⟨fun hf => ?_, Description.toMachine_of_reports⟩⟩
  · constructor
    · rintro ⟨m, hm⟩
      exact ((hok m).1 hm).1
    · exact fun h => ⟨_, (hok _).2 ⟨h, rfl⟩⟩
  · obtain ⟨hwell, rfl⟩ := (hok m).1 hm
    exact hwell.describes
  · have hwell : ¬ d.WellFormed := by
      intro hwell
      rw [(hok _).2 ⟨hwell, rfl⟩] at hf
      cases hf
    -- the first fault is reported, so it is the fault that was reported
    obtain ⟨f', hreports⟩ := Description.exists_reports hwell
    rw [Description.toMachine_of_reports hreports] at hf
    cases hf
    exact hreports

/-- A description with many faults: the second rule repeats the first, writes a letter that is no symbol and has no next state, and
the third repeats the first. -/
def overloaded : Description :=
  ⟨"A", "go", ∅, [⟨"A", "00", "B", "11", "RR"⟩, ⟨"A", "00", "", "1x", "RR"⟩, ⟨"A", "00", "A", "11", "LL"⟩]⟩

theorem wellFormed_twoRules : twoRules.WellFormed := by
  refine ⟨⟨'A', by decide, by decide⟩, fun e he => ?_, ?_⟩
  · simp only [twoRules, List.mem_cons, List.not_mem_nil, or_false] at he
    rcases he with rfl | rfl
    · exact ⟨⟨by decide, by simp⟩, ⟨by decide, by simp⟩, ⟨by decide, by simp⟩, by decide⟩
    · exact ⟨⟨by decide, by simp⟩, ⟨by decide, by simp⟩, ⟨by decide, by simp⟩, by decide⟩
  · simp [twoRules, RuleEntry.Shares]

/-- Two rules for different pairs are accepted, and of many faults the first is reported. -/
theorem description_accepted_twoRules :
    (∃ m, twoRules.toMachine = .ok m ∧ twoRules.Describes m) ∧
      overloaded.toMachine = .error (.invalidRule 1 "A" (.write (.unexpected 'x'))) ∧
      overloaded.Reports (.invalidRule 1 "A" (.write (.unexpected 'x'))) := by
  obtain ⟨m, hm⟩ := (description_accepted_iff twoRules).1.2 wellFormed_twoRules
  have hfault : overloaded.toMachine = .error (.invalidRule 1 "A" (.write (.unexpected 'x'))) := by rfl
  exact ⟨⟨m, hm, (description_accepted_iff twoRules).2.1 m hm⟩, hfault, ((description_accepted_iff overloaded).2.2 _).1 hfault⟩

end DispatchTree
